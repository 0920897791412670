/-
# Windows.FilterExact — installation and verification are exact

* `describeMismatch_iff` — after an installation, verification accepts exactly its own inputs.
* `changed_noticed` — a filter whose effect is changed is noticed.
* `Reachable` — the stores that installations, removals and other providers leave.
* `installs_are_exact` — **over every reachable store: failures leave it unchanged, a success leaves
  others' objects alone and is verified exactly, every change of an installed filter's effect is
  noticed, and a removal leaves nothing owned.**
* `bootTime_sublayer_unnoticed` — a boot-time filter's sublayer is not compared.
-/
import ProgramSplit.Windows.FilterTransactions
import Mathlib.Data.Multiset.ZeroCons

namespace ProgramSplit.Windows.Wfp

set_option autoImplicit false

open Lib

/-! ## Verification -/

theorem littleEndian_inj {a b : UInt32} (same : littleEndian a = littleEndian b) : a = b := by
  simp only [littleEndian, List.cons.injEq, and_true, ← UInt8.toNat_inj, UInt32.toNat_toUInt8,
    UInt32.toNat_shiftRight] at same
  obtain ⟨first, second, third, fourth⟩ := same
  apply UInt32.toNat_inj.mp
  have smallA := a.toNat_lt
  have smallB := b.toNat_lt
  have eight : UInt32.toNat 8 % 32 = 8 := rfl
  have sixteen : UInt32.toNat 16 % 32 = 16 := rfl
  have twentyFour : UInt32.toNat 24 % 32 = 24 := rfl
  simp only [eight, sixteen, twentyFour, Nat.shiftRight_eq_div_pow] at second third fourth
  omega

theorem contextFor_inj {ip ip' : UInt32} : contextMatches (contextFor ip) ip' = true ↔ ip' = ip := by
  rw [contextMatches, beq_iff_eq]
  constructor
  · intro same
    have parts := List.append_inj_left (List.append_inj_left same (by rfl)) (by rfl)
    exact (littleEndian_inj parts).symm
  · rintro rfl
    rfl

theorem describeFilters_eq_empty (owned : Owned) (apps : List AppEntry) (context : Guid) (ip : UInt32) :
    describeFilters owned apps context ip = "" ↔ (owned.filters.map (·.signature)).Perm
      ((forEachFilter apps context ip true).map filterSignature) := by
  rw [← sortTexts_eq_iff]
  unfold describeFilters expectedSignatures
  dsimp only
  split
  next differs =>
    constructor
    · intro empty
      simp [← String.toList_inj] at empty
    · intro same
      exact absurd same differs
  next same =>
    exact iff_of_true rfl (not_not.mp same)

/-- **What an empty mismatch says**, one clause for each kind of object. -/
theorem describeMismatch_eq_empty (owned : Owned) (apps : List AppEntry) (ip : UInt32) :
    describeMismatch owned apps ip = "" ↔
      (∃ flags, owned.provider = some flags ∧ has flags kProviderPersistent = true) ∧
        (owned.sublayers.length = 1 ∧ owned.sublayers.all sublayerCurrent = true) ∧
          (owned.callouts.length = kCallouts.length ∧
            owned.callouts.countP calloutCurrent = kCallouts.length) ∧
            ∃ context, owned.contexts = [context] ∧ has context.flags kContextPersistent = true ∧
              context.type = .general ∧ contextMatches context.data ip = true ∧
                (owned.filters.map (·.signature)).Perm
                  ((forEachFilter apps context.key ip true).map filterSignature) := by
  unfold describeMismatch
  split
  next none => simp [none]
  next flags isSome =>
    simp only [isSome, Option.some.injEq, exists_eq_left']
    split
    next absent => simp_all
    next present =>
      have persistent : has flags kProviderPersistent = true := by simpa using present
      split
      next wrong =>
        refine iff_of_false (by simp [← String.toList_inj]) ?_
        rintro ⟨-, ⟨one, all⟩, -⟩
        simp [one, all] at wrong
      next sublayers =>
        rw [not_or, not_not] at sublayers
        split
        next wrong =>
          refine iff_of_false (by simp [← String.toList_inj]) ?_
          rintro ⟨-, -, ⟨length, count⟩, -⟩
          simp [length, count] at wrong
        next callouts =>
          rw [not_or, not_not, not_not] at callouts
          have known : owned.sublayers.length = 1 ∧ owned.sublayers.all sublayerCurrent = true :=
            ⟨sublayers.1, by simpa using sublayers.2⟩
          split
          next context one =>
            simp only [persistent, known, callouts, one, true_and, and_self, List.cons.injEq,
              and_true, exists_eq_left']
            split
            next wrong =>
              refine iff_of_false (by simp) ?_
              rintro ⟨flags, type, data, -⟩
              simp [flags, type, data] at wrong
            next right =>
              rw [describeFilters_eq_empty]
              have fields : has context.flags kContextPersistent = true ∧ context.type = .general ∧
                  contextMatches context.data ip = true := by
                simpa [not_or] using right
              simp [fields]
          next contexts several =>
            refine iff_of_false (by simp [← String.toList_inj]) ?_
            rintro ⟨-, -, -, context, one, -⟩
            exact several context one

/-- The signatures that a snapshot shows. -/
theorem owned_signatures_perm (t : Store) :
    ((t.owned false).filters.map (·.signature)).Perm
      ((values filterVisible t.filters).map filterSignature) := by
  refine ((owned_filters_perm t).map _).trans (List.Perm.of_eq ?_)
  simp [values, ownedFilter, Function.comp_def]

section Installed

variable {s t : Store} {apps : List AppEntry} {ip : UInt32}

theorem calloutVisible_key {k : Guid} {c : Callout}
    (current : calloutCurrent ⟨k, c.flags, c.layer⟩ = true) : k = kCalloutBind ∨ k = kCalloutConnect := by
  unfold calloutCurrent at current
  split at current
  next rule found =>
    have member := List.mem_of_find?_eq_some found
    have keys : rule.key = k := by simpa using List.find?_some found
    have known : ∀ rule ∈ kCallouts, rule.key = kCalloutBind ∨ rule.key = kCalloutConnect := by decide
    rw [← keys]
    exact known rule member
  next => cases current

/-- Both callouts are shown, and nothing else. -/
theorem installed_callouts (ready : CalloutsReady s.callouts [] t.callouts) :
    (t.owned false).callouts.length = kCallouts.length ∧
      (t.owned false).callouts.countP calloutCurrent = kCallouts.length := by
  obtain ⟨bind, lookupBind, visibleBind⟩ :=
    ready.present ⟨kCalloutBind, kLayerBindV4⟩ (by decide) (by simp)
  obtain ⟨connect, lookupConnect, visibleConnect⟩ :=
    ready.present ⟨kCalloutConnect, kLayerConnectV4⟩ (by decide) (by simp)
  have different : kCalloutBind ≠ kCalloutConnect := by decide
  have shown := filter_pairs_perm t.callouts calloutVisible
    [(kCalloutBind, bind), (kCalloutConnect, connect)] (by simp [different]) (by
      intro k c
      simp only [List.mem_cons, Prod.mk.injEq, List.not_mem_nil, or_false]
      constructor
      · rintro (⟨rfl, rfl⟩ | ⟨rfl, rfl⟩)
        · exact ⟨lookupBind, visibleBind⟩
        · exact ⟨lookupConnect, visibleConnect⟩
      · rintro ⟨lookup, visible⟩
        rcases calloutVisible_key (ready.current k c lookup visible) with rfl | rfl
        · exact .inl ⟨rfl, Option.some.inj (lookup.symm.trans lookupBind)⟩
        · exact .inr ⟨rfl, Option.some.inj (lookup.symm.trans lookupConnect)⟩)
  have perm := (owned_callouts_perm t).trans (shown.map _)
  refine ⟨perm.length_eq, ?_⟩
  rw [perm.countP_eq]
  simp [ready.current _ _ lookupBind visibleBind, ready.current _ _ lookupConnect visibleConnect,
    kCallouts]

theorem installed_sublayers (ready : SublayerReady s.sublayers t.sublayers) :
    (t.owned false).sublayers.length = 1 ∧ (t.owned false).sublayers.all sublayerCurrent = true := by
  obtain ⟨x, lookup, isOwned, current⟩ := ready.current
  have shown := filter_pairs_perm t.sublayers (fun x => ownedBy x.provider) [(kSublayer, x)] (by simp) (by
      intro k y
      simp only [List.mem_singleton, Prod.mk.injEq]
      constructor
      · rintro ⟨rfl, rfl⟩
        exact ⟨lookup, isOwned⟩
      · rintro ⟨present, owned⟩
        obtain rfl := ready.alone k y present owned
        exact ⟨rfl, Option.some.inj (present.symm.trans lookup)⟩)
  rw [owned_sublayers, List.perm_singleton.mp shown]
  simp [current]

theorem installed_context {key : Guid} (ready : ContextReady s.contexts key ip t.contexts) :
    ∃ id, (t.owned false).contexts = [⟨key, id, kContextPersistent, .general, contextFor ip⟩] := by
  obtain ⟨-, id, lookup, alone⟩ := ready
  have shown := filter_pairs_perm t.contexts contextVisible
    [(id, ⟨key, some kProvider, kContextPersistent, .general, some (contextFor ip)⟩)] (by simp) (by
      intro id' c
      simp only [List.mem_singleton, Prod.mk.injEq]
      constructor
      · rintro ⟨rfl, rfl⟩
        exact ⟨lookup, rfl⟩
      · rintro ⟨present, visible⟩
        obtain rfl := alone id' c present visible
        exact ⟨rfl, Option.some.inj (present.symm.trans lookup)⟩)
  refine ⟨id, ?_⟩
  rw [owned_contexts, List.perm_singleton.mp shown]
  simp [contextData]

/-- **Verification accepts exactly the inputs of the installation.**  Only the filters may differ
from what the installation left. -/
theorem describeMismatch_installed (installed : Installed s apps ip false t)
    (filters : FiniteMap UInt64 Filter) (apps' : List AppEntry) (ip' : UInt32) :
    ∃ key, ((values filterVisible t.filters).map filterSignature).Perm
        ((forEachFilter apps key ip true).map filterSignature) ∧
      (describeMismatch ((⟨t.providers, t.sublayers, t.callouts, t.contexts, filters⟩ : Store).owned false)
          apps' ip' = "" ↔ ip' = ip ∧ ((values filterVisible filters).map filterSignature).Perm
            ((forEachFilter apps' key ip true).map filterSignature)) := by
  obtain ⟨missing, key, none, shape⟩ := installed
  obtain rfl := none rfl
  refine ⟨key, ?_, ?_⟩
  · exact shape.filters.signatures.trans ((List.reverse_perm _).map _)
  obtain ⟨id, context⟩ := installed_context shape.contexts
  have provider := shape.providers.1
  have sublayers := installed_sublayers shape.sublayers
  have callouts := installed_callouts shape.callouts
  have shown := owned_signatures_perm ⟨t.providers, t.sublayers, t.callouts, t.contexts, filters⟩
  rw [describeMismatch_eq_empty]
  constructor
  · rintro ⟨-, -, -, found, one, -, -, matched, perm⟩
    obtain rfl : (⟨key, id, kContextPersistent, .general, contextFor ip⟩ : OwnedContext) = found := by
      have both := context.symm.trans one
      simpa using both
    obtain rfl := contextFor_inj.mp matched
    exact ⟨rfl, shown.symm.trans perm⟩
  · rintro ⟨rfl, perm⟩
    have persistent : has kContextPersistent kContextPersistent = true := by decide
    exact ⟨provider, sublayers, callouts, _, context, persistent, rfl, contextFor_inj.mpr rfl,
      shown.trans perm⟩

theorem describeMismatch_iff (installed : Installed s apps ip false t) (apps' : List AppEntry)
    (ip' : UInt32) :
    describeMismatch (t.owned false) apps' ip' = "" ↔ ip' = ip ∧ apps'.Perm apps := by
  obtain ⟨key, signatures, verified⟩ := describeMismatch_installed installed t.filters apps' ip'
  rw [verified]
  refine and_congr_right fun _ => ?_
  rw [← signatures_perm_iff apps' apps key ip]
  constructor
  · intro perm
    exact perm.symm.trans signatures
  · intro perm
    exact signatures.trans perm.symm

/-- One of the listed parts of a filter differs.  A boot-time filter's sublayer is not one of
them. -/
def Changed (f g : Filter) : Prop :=
  f.layerKey ≠ g.layerKey ∨ (f.bootTime = false ∧ f.subLayerKey ≠ g.subLayerKey) ∨
    f.actionType ≠ g.actionType ∨ f.callout ≠ g.callout ∨ f.persistence ≠ g.persistence ∨
      ¬ f.conditions.Perm g.conditions ∨ f.providerData ≠ g.providerData ∨ f.context ≠ g.context

theorem Changed.signature {f g : Filter} (changed : Changed f g)
    (spelled : ∀ condition ∈ f.conditions, condition.conditionValue.Spelled) :
    filterSignature f ≠ filterSignature g := by
  intro same
  have effect := signature_eq same
  rcases changed with layer | ⟨boot, sublayer⟩ | action | callout | persistence | conditions | tag | context
  · exact layer effect.layer
  · exact sublayer (effect.sublayer boot)
  · exact action effect.action
  · exact callout effect.callout
  · exact persistence effect.persistence
  · exact conditions (effect.conditions_perm spelled)
  · exact tag effect.tag
  · exact context effect.context

/-- The store with one filter replaced. -/
def Store.withFilter (t : Store) (id : UInt64) (g : Filter) : Store :=
  { t with filters := AList.insert id g t.filters }

/-- **A filter whose effect is changed is noticed.** -/
theorem changed_noticed (installed : Installed s apps ip false t) (regular : Regular t) {id : UInt64}
    {f g : Filter} (present : t.filters.lookup id = some f) (isOwned : ownedBy f.providerKey = true)
    (changed : Changed f g) {apps' : List AppEntry} (same : apps'.Perm apps) :
    describeMismatch ((t.withFilter id g).owned false) apps' ip ≠ "" := by
  intro empty
  have visible : filterVisible f = true := by
    simp [filterVisible, isOwned, regular id f present isOwned]
  have spelled : ∀ condition ∈ f.conditions, condition.conditionValue.Spelled := by
    obtain ⟨missing, key, -, shape⟩ := installed
    exact shape.filters.spelled id f present visible
  obtain ⟨key, signatures, verified⟩ :=
    describeMismatch_installed installed (AList.insert id g t.filters) apps' ip
  obtain ⟨-, perm⟩ := verified.mp empty
  have unchanged := (perm.trans ((signatures_perm_iff apps' apps key ip).mpr same)).trans signatures.symm
  obtain ⟨others, before, after⟩ := values_replace filterVisible g present
  rw [if_pos visible] at before
  have both := ((after.map filterSignature).symm.trans unchanged).trans (before.map filterSignature)
  cases shown : filterVisible g with
  | false =>
    have lengths := both.length_eq
    simp [shown] at lengths
  | true =>
    rw [shown, if_pos rfl] at both
    simp only [List.cons_append, List.nil_append, List.map_cons] at both
    rw [← Multiset.coe_eq_coe, ← Multiset.cons_coe, ← Multiset.cons_coe, Multiset.cons_inj_left] at both
    exact changed.signature spelled both.symm

/-- A boot-time filter's sublayer is not compared. -/
theorem bootTime_unnoticed (installed : Installed s apps ip false t) {id : UInt64} {f : Filter}
    (present : t.filters.lookup id = some f) (boot : f.bootTime = true) (sublayer : Guid) :
    describeMismatch ((t.withFilter id { f with subLayerKey := sublayer }).owned false) apps ip = "" := by
  obtain ⟨key, signatures, verified⟩ := describeMismatch_installed installed
    (AList.insert id { f with subLayerKey := sublayer } t.filters) apps ip
  refine verified.mpr ⟨rfl, List.Perm.trans ?_ signatures⟩
  obtain ⟨others, before, after⟩ :=
    values_replace filterVisible { f with subLayerKey := sublayer } present
  have shown : filterVisible { f with subLayerKey := sublayer } = filterVisible f := rfl
  refine (after.map _).trans (List.Perm.trans (List.Perm.of_eq ?_) (before.map _).symm)
  rw [shown]
  cases filterVisible f with
  | false => rfl
  | true => simp [filterSignature_bootTime boot]

end Installed

/-! ## Runs -/

/-- The objects of the project are the same in both stores: other providers' programs were run. -/
structure SameOwned (s t : Store) : Prop where
  provider : t.providers.lookup kProvider = s.providers.lookup kProvider
  sublayers : SameOn (fun x => ownedBy x.provider) s.sublayers t.sublayers
  callouts : SameOn (fun c => ownedBy c.provider) s.callouts t.callouts
  contexts : SameOn (fun c => ownedBy c.provider) s.contexts t.contexts
  filters : SameOn (fun f => ownedBy f.providerKey) s.filters t.filters

/-- The stores that installations and removals leave, whatever fails in them and wherever they die,
among the objects of other providers. -/
inductive Reachable : Store → Prop
  | start {s : Store} (none : NoneOwned s) : Reachable s
  | install {s : Store} (reached : Reachable s) (apps : List AppEntry) (ip : UInt32)
      (answers : List Answer) : Reachable (install apps ip ⟨s, none⟩ answers).2.1.store
  | removal {s : Store} (reached : Reachable s) (answers : List Answer) :
      Reachable (removeAll ⟨s, none⟩ answers).2.1.store
  | others {s t : Store} (reached : Reachable s) (same : SameOwned s t) : Reachable t

/-- **Every reachable store is regular.** -/
theorem Reachable.regular {s : Store} (reachable : Reachable s) : Regular s := by
  have relied : ∀ answers : List Answer, ∀ answer ∈ answers, True := fun _ _ _ => trivial
  induction reachable with
  | start none =>
    intro id f lookup isOwned
    rw [none.filters id f lookup] at isOwned
    exact Bool.noConfusion isOwned
  | @install s _ apps ip answers ih =>
    refine (install_meets s apps ip).after (J := fun _ w => Regular w.store)
      (w := ⟨s, none⟩) rfl (relied answers)
      ?_ ?_ ?_
    · intro _ w installed
      exact installed.regular ih
    · rintro e w (same | ⟨-, installed⟩)
      · rw [same]
        exact ih
      · exact installed.regular ih
    · intro w (same : w.store = s)
      rw [same]
      exact ih
  | @removal s _ answers ih =>
    refine (removeAll_meets s).after (J := fun _ w => Regular w.store)
      (w := ⟨s, none⟩) rfl (relied answers) ?_ ?_ ?_
    · rintro _ w ⟨none, -⟩ id f lookup isOwned
      rw [none.filters id f lookup] at isOwned
      exact Bool.noConfusion isOwned
    · intro e w (same : w.store = s)
      rw [same]
      exact ih
    · intro w (same : w.store = s)
      rw [same]
      exact ih
  | others _ same ih =>
    intro id f lookup isOwned
    exact ih id f ((same.filters id f isOwned).mp lookup) isOwned

/-- A finished installation leaves the whole set. -/
theorem installed_of_finished {s : Store} {apps : List AppEntry} {ip : UInt32} {answers : List Answer}
    (finished : (install apps ip ⟨s, none⟩ answers).1 = .ok ()) :
    Installed s apps ip false (install apps ip ⟨s, none⟩ answers).2.1.store := by
  have outcome := (install_meets s apps ip).after
    (J := fun outcome w => outcome = .ok () → Installed s apps ip false w.store)
    (w := ⟨s, none⟩) rfl (fun (answer : Answer) (_ : answer ∈ answers) => trivial)
    (fun _ _ installed _ => installed) (fun _ _ _ raised => by cases raised) fun _ _ died => by cases died
  exact outcome finished

/-- What is claimed of a finished installation. -/
structure Exact (s : Store) (apps : List AppEntry) (ip : UInt32) (t : Store) : Prop where
  others : Others s t
  verified : ∀ apps' ip', describeMismatch (t.owned false) apps' ip' = "" ↔ ip' = ip ∧ apps'.Perm apps
  noticed : ∀ id f g, t.filters.lookup id = some f → ownedBy f.providerKey = true → Changed f g →
    ∀ apps' : List AppEntry, apps'.Perm apps →
      describeMismatch ((t.withFilter id g).owned false) apps' ip ≠ ""

/-- What an outcome of an installation says of the store.  The error that the redirect was left out
is thrown after the commit. -/
structure InstallOutcome (s : Store) (apps : List AppEntry) (ip : UInt32)
    (outcome : Outcome Failure Unit) (t : Store) : Prop where
  finished : outcome = .ok () → Exact s apps ip t
  failed : ∀ e, outcome = .raised e → t = s ∨ e = calloutInUse ∧ Others s t
  died : outcome = .died → t = s

structure RemoveOutcome (s : Store) (outcome : Outcome Failure Owned) (t : Store) : Prop where
  finished : ∀ removed, outcome = .ok removed → NoneOwned t ∧ Others s t
  failed : ∀ e, outcome = .raised e → t = s
  died : outcome = .died → t = s

/-- **Installation and verification are exact.**  From every reachable store, for every list of
applications and tunnel address, and whatever each call of the filter engine answers. -/
theorem installs_are_exact {s : Store} (reachable : Reachable s) (apps : List AppEntry) (ip : UInt32)
    (answers : List Answer) :
    InstallOutcome s apps ip (install apps ip ⟨s, none⟩ answers).1
        (install apps ip ⟨s, none⟩ answers).2.1.store ∧
      RemoveOutcome s (removeAll ⟨s, none⟩ answers).1 (removeAll ⟨s, none⟩ answers).2.1.store := by
  have relied : ∀ answer ∈ answers, True := fun _ _ => trivial
  constructor
  · refine (install_meets s apps ip).after (J := fun outcome w => InstallOutcome s apps ip outcome w.store)
      (w := ⟨s, none⟩) rfl relied ?_ ?_ ?_
    · intro _ w installed
      refine ⟨fun _ => ⟨installed.others, describeMismatch_iff installed, ?_⟩, by simp, by simp⟩
      intro id f g present isOwned changed apps' same
      exact changed_noticed installed (installed.regular reachable.regular) present isOwned changed same
    · intro e w failed
      refine ⟨by simp, fun e' sameError => ?_, by simp⟩
      obtain rfl := Outcome.raised.inj sameError
      exact failed.imp_right fun thrown => ⟨thrown.1, thrown.2.others⟩
    · intro w same
      exact ⟨by simp, by simp, fun _ => same⟩
  · refine (removeAll_meets s).after (J := fun outcome w => RemoveOutcome s outcome w.store)
      (w := ⟨s, none⟩) rfl relied ?_ ?_ ?_
    · intro _ w done
      exact ⟨fun _ _ => done, by simp, by simp⟩
    · intro e w same
      exact ⟨by simp, fun _ _ => same, by simp⟩
    · intro w same
      exact ⟨by simp, by simp, fun _ => same⟩

/-! ## Poles -/

def emptyStore : Store :=
  ⟨∅, ∅, ∅, ∅, ∅⟩

theorem emptyStore_none : NoneOwned emptyStore where
  provider := rfl
  sublayers _ _ present := by cases present
  callouts _ _ present := by cases present
  contexts _ _ present := by cases present
  filters _ _ present := by cases present

/-- An engine that refuses nothing and numbers what it makes, while the process makes so many calls. -/
def answering (first calls : Nat) : List Answer :=
  (List.range' first calls).map fun n => ⟨none, n.toUInt64, { Guid.zero with data1 := n.toUInt32 }, Guid.zero⟩

def willing : List Answer := answering 0 60

def curlApp : AppEntry :=
  ⟨[0x63, 0, 0x75, 0, 0x72, 0, 0x6c, 0, 0, 0], [0x63, 0, 9, 0, 0x63, 0]⟩

def installedStore : Store :=
  (install [curlApp] 0x0a000002 ⟨emptyStore, none⟩ willing).2.1.store

theorem willing_install : (install [curlApp] 0x0a000002 ⟨emptyStore, none⟩ willing).1 = .ok () := by
  decide +kernel

def bothApps : List AppEntry := [curlApp, ⟨[0x77, 0, 0, 0], [0x77, 0, 9, 0, 0x77, 0]⟩]

/-- Over the earlier installation, with a second application and another tunnel address. -/
def renewed (calls : Nat) : Outcome Failure Unit × Engine × List Answer :=
  install bothApps 0x0a000003 ⟨installedStore, none⟩ (answering 100 calls)

/-- An installation over an earlier one that dies on the way changes nothing; one that finishes is
verified for its own inputs and not for the earlier ones. -/
theorem installs_are_exact_renewed :
    (renewed 60).1 = .died ∧ (renewed 60).2.1.store = installedStore ∧
      Exact installedStore bothApps 0x0a000003 (renewed 70).2.1.store ∧
      describeMismatch ((renewed 70).2.1.store.owned false) [curlApp] 0x0a000002 ≠ "" := by
  have reachable : Reachable installedStore := .install (.start emptyStore_none) [curlApp] 0x0a000002 willing
  have installs := fun calls => (installs_are_exact reachable bothApps 0x0a000003 (answering 100 calls)).1
  have ended : (renewed 60).1 = .died ∧ (renewed 70).1 = .ok () := by
    constructor <;> decide +kernel
  unfold renewed at ended ⊢
  have isExact := (installs 70).finished ended.2
  refine ⟨ended.1, (installs 60).died ended.1, isExact, fun empty => ?_⟩
  exact absurd ((isExact.verified [curlApp] 0x0a000002).mp empty).1 (by decide)

theorem installedStore_installed : Installed emptyStore [curlApp] 0x0a000002 false installedStore :=
  installed_of_finished willing_install

/-- **A boot-time filter's sublayer is not compared**: after an installation it can be changed, and
verification still passes. -/
theorem bootTime_sublayer_unnoticed :
    ∃ id f, installedStore.filters.lookup id = some f ∧ ownedBy f.providerKey = true ∧
      f.subLayerKey ≠ kSublayer ∧ describeMismatch
        ((installedStore.withFilter id { f with subLayerKey := kSublayer }).owned false)
          [curlApp] 0x0a000002 = "" := by
  have some : ((installedStore.filters.lookup 39).map fun f =>
      (ownedBy f.providerKey, f.bootTime, decide (f.subLayerKey = kSublayer))) =
        some (true, true, false) := by
    decide +kernel
  obtain ⟨f, present, facts⟩ := Option.map_eq_some_iff.mp some
  simp only [Prod.mk.injEq, decide_eq_false_iff_not] at facts
  exact ⟨39, f, present, facts.1, facts.2.2,
    bootTime_unnoticed installedStore_installed present facts.2.1 kSublayer⟩

end ProgramSplit.Windows.Wfp
