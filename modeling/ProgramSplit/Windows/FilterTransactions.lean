/-
# Windows.FilterTransactions — what a transaction of the filter probe leaves

* `Within` — the triple of a transaction's body: the committed store is not touched, whatever fails.
* `snapshot_spec` — a snapshot shows the working copy and leaves it as it is.
* `Shape` — what is known of each kind of object of the working copy; a call changes one kind.
* `installBody_spec`, `removeBody_spec` — **what the two bodies leave of each kind.**
-/
import ProgramSplit.Windows.FilterStore
import ProgramSplit.Windows.FilterSignature
import ProgramSplit.Lib.MapViews

namespace ProgramSplit.Windows.Wfp

set_option autoImplicit false

open Lib

/-! ## Bodies of transactions -/

def Untouched (s : Store) (w : Engine) : Prop :=
  w.store = s

/-- The committed store is untouched and the working copy is as `P` says. -/
def Working (s : Store) (P : Store → Prop) (w : Engine) : Prop :=
  w.store = s ∧ ∃ t, w.transaction = some t ∧ P t

/-- The triple of a part of a transaction's body. -/
def Within {A : Type} (s : Store) (P : Store → Prop) (m : Probe A) (Q : A → Store → Prop) : Prop :=
  Meets (fun _ => True) (Untouched s) (Working s P) m (fun a => Working s (Q a)) fun _ => Untouched s

section Rules

variable {A B : Type} {s : Store} {P P' : Store → Prop} {Q Q' : A → Store → Prop}

theorem within_call {operation : String} {f : Answer → Store → Option (A × Store)}
    (effect : ∀ answer t a t', P t → f answer t = some (a, t') → Q a t') :
    Within s P (call operation f) Q := by
  refine meets_step (fun w start => start.1) ?_
  rintro w answer ⟨same, t, opened, start⟩ -
  rw [opened]
  cases answer.status with
  | some code => exact same
  | none =>
    dsimp only
    cases made : f answer t with
    | none => exact same
    | some pair => exact ⟨same, pair.2, rfl, effect answer t pair.1 pair.2 start made⟩

/-- A call that the engine refuses under a condition, and that otherwise changes the working copy. -/
theorem within_guarded {operation : String} {bad : Answer → Store → Prop}
    [∀ answer t, Decidable (bad answer t)]
    {next : Answer → Store → Store} {Q : Unit → Store → Prop}
      (effect : ∀ answer t, P t → ¬bad answer t → Q () (next answer t)) :
    Within s P (call operation fun answer t => if bad answer t then none
      else some ((), next answer t)) Q := by
  refine within_call fun answer t a t' start made => ?_
  split at made
  next => cases made
  next free =>
    obtain ⟨-, rfl⟩ := Prod.mk.inj (Option.some.inj made)
    exact effect answer t start free

theorem within_query {operation : String} (f : Store → A) :
    Within s P (query operation f) fun a t => P t ∧ a = f t := by
  apply within_call
  intro answer t a t' start made
  obtain ⟨rfl, rfl⟩ := Prod.mk.inj (Option.some.inj made)
  exact ⟨start, rfl⟩

theorem within_pure {a : A} (post : ∀ t, P t → Q a t) : Within s P (pure a) Q :=
  meets_pure fun _ start => ⟨start.1, start.2.imp fun _ => And.imp_right (post _)⟩

theorem within_bind {m : Probe B} {f : B → Probe A} {M : B → Store → Prop} (first : Within s P m M)
    (second : ∀ b, Within s (M b) (f b) Q) : Within s P (m >>= f) Q :=
  meets_bind first second

theorem within_mono {m : Probe A} (within : Within s P' m Q') (pre : ∀ t, P t → P' t)
    (post : ∀ a t, Q' a t → Q a t) : Within s P m Q :=
  meets_mono within (fun _ start => ⟨start.1, start.2.imp fun _ => And.imp_right (pre _)⟩)
    (fun _ _ done => ⟨done.1, done.2.imp fun _ => And.imp_right (post _ _)⟩) fun _ _ err => err

/-- What is known beside the working copy can be assumed. -/
theorem within_given {known : Prop} {m : Probe A} (body : known → Within s P m Q) :
    Within s (fun t => P t ∧ known) m Q := by
  rintro w ⟨same, t, opened, start, isKnown⟩
  exact body isKnown w ⟨same, t, opened, start⟩

theorem within_when {condition : Bool} {m : Probe Unit} {Q : Unit → Store → Prop}
    (yes : condition = true → Within s P m Q) (no : condition = false → ∀ t, P t → Q () t) :
    Within s P (Proc.when condition m) Q :=
  meets_when yes fun off _ start => ⟨start.1, start.2.imp fun _ => And.imp_right (no off _)⟩

theorem within_require {condition : Bool} {e : Failure} :
    Within s P (Proc.require condition e) fun _ t => P t ∧ condition = true :=
  meets_require (fun _ _ start => start.1) fun holds _ start =>
    ⟨start.1, start.2.imp fun _ => And.imp_right fun now => ⟨now, holds⟩⟩

/-- **A transaction is all or nothing.** -/
theorem inTransaction_meets {body : Probe A} (within : Within s (· = s) body Q) :
    Meets (fun _ => True) (Untouched s) (fun w => w.store = s) (inTransaction body)
      (fun a w => Q a w.store) fun _ => Untouched s := by
  refine meets_bind (M := fun _ => Working s (· = s)) ?_ fun _ => ?_
  · refine meets_step (fun w start => start) fun w answer start _ => ?_
    cases answer.status with
    | some code => exact start
    | none => exact ⟨start, w.store, rfl, start⟩
  · have committed : Meets (fun _ => True) (Untouched s) (Working s (· = s))
        (do
          let a ← body
          commit
          return a) (fun a w => Q a w.store) fun _ => Untouched s := by
      refine meets_bind within fun a => meets_bind (M := fun _ w => Q a w.store) ?_ fun _ => ?_
      · refine meets_step (fun w start => start.1) ?_
        rintro w answer ⟨same, t, opened, made⟩ -
        rw [opened]
        cases answer.status with
        | some code => exact same
        | none => exact made
      · exact meets_pure fun w post => post
    refine meets_handle committed fun e => ?_
    refine meets_bind (M := fun _ => Untouched s) (meets_alter fun w same => same) fun _ => ?_
    exact meets_raise fun w same => same

end Rules

/-! ## Snapshots -/

/-- What a snapshot of a store shows. -/
def Store.owned (t : Store) (everyLayer : Bool) : Owned :=
  let layers (known : List Guid) : List (Option Guid) := if everyLayer then [none] else known.map some
  { provider := t.providers.lookup kProvider
    filters := (((layers filterLayers).flatMap t.filtersIn).filter fun (_, f) =>
      ownedBy f.providerKey).map fun (id, f) => ownedFilter id f
    callouts := (((layers calloutLayers).flatMap t.calloutsIn).filter fun (_, c) =>
      ownedBy c.provider).map fun (key, c) => ⟨key, c.flags, c.layer⟩
    contexts := ((t.contextsOf (!everyLayer)).filter fun (_, c) => ownedBy c.provider).map
      fun (id, c) => ⟨c.key, id, c.flags, c.type, contextData c⟩
    sublayers := ((t.sublayersOf everyLayer).filter fun (_, s) => ownedBy s.provider).map
      fun (key, s) => ⟨key, s.flags, s.weight⟩ }

theorem query_spec {A : Type} {operation : String} (s t₀ : Store) (f : Store → A) :
    Within s (· = t₀) (query operation f) fun a t => t = t₀ ∧ a = f t₀ := by
  refine within_mono (within_query f) (fun _ start => start) ?_
  rintro a t ⟨rfl, found⟩
  exact ⟨rfl, found⟩

theorem collect_spec {A B : Type} {s t₀ : Store} {operation : String} (f : B → Store → List A) :
    ∀ bs : List B, Within s (· = t₀) (collect (fun b => query operation (f b)) bs) fun found t =>
      t = t₀ ∧ found = bs.flatMap fun b => f b t₀
  | [] => within_pure fun t start => ⟨start, rfl⟩
  | b :: rest => by
    refine within_bind (query_spec s t₀ (f b)) fun first => within_given fun isFirst => ?_
    refine within_bind (collect_spec f rest) fun others => within_given fun areOthers => ?_
    apply within_pure
    rintro t rfl
    exact ⟨rfl, by rw [isFirst, areOthers, List.flatMap_cons]⟩

/-- A snapshot reads the working copy and leaves it as it is. -/
theorem snapshot_spec (s t₀ : Store) (everyLayer : Bool) :
    Within s (· = t₀) (snapshot everyLayer) fun owned t => t = t₀ ∧ owned = t₀.owned everyLayer := by
  refine within_bind (query_spec s t₀ _) fun provider => within_given fun isProvider => ?_
  refine within_bind (collect_spec (fun layer t => t.filtersIn layer) _) fun filters =>
    within_given fun areFilters => ?_
  refine within_bind (collect_spec (fun layer t => t.calloutsIn layer) _) fun callouts =>
    within_given fun areCallouts => ?_
  refine within_bind (query_spec s t₀ _) fun contexts => within_given fun areContexts => ?_
  refine within_bind (query_spec s t₀ _) fun sublayers => within_given fun areSublayers => ?_
  apply within_pure
  rintro t rfl
  subst isProvider areFilters areCallouts areContexts areSublayers
  exact ⟨rfl, rfl⟩

/-- A filter that a snapshot of the known layers shows. -/
def filterVisible (f : Filter) : Bool :=
  ownedBy f.providerKey && decide (f.layerKey ∈ filterLayers)

def calloutVisible (c : Callout) : Bool :=
  ownedBy c.provider && decide (c.layer ∈ calloutLayers)

def contextVisible (c : Context) : Bool :=
  ownedBy c.provider && c.type == .general

/-- What enumerations of the known layers return together. -/
theorem layers_perm {K V : Type} [DecidableEq K] (m : FiniteMap K V) (owned : V → Bool)
    (layer : V → Guid) {known : List Guid}
    (nodup : known.Nodup) {enumerate : Option Guid → List (K × V)} (enumerated : ∀ l, enumerate (some l) =
      (pairs m).filter fun entry => owned entry.2 && layer entry.2 == l) :
    (((known.map some).flatMap enumerate).filter fun entry => owned entry.2).Perm
      ((pairs m).filter fun entry => owned entry.2 && decide (layer entry.2 ∈ known)) := by
  have grouped := filter_flatMap_perm (fun entry : K × V => owned entry.2)
    (fun entry => layer entry.2) (pairs m) nodup
  refine (List.Perm.of_eq ?_).trans grouped
  rw [List.flatMap_map, List.filter_flatMap]
  congr 1
  funext l
  rw [enumerated, List.filter_filter]
  congr 1
  funext entry
  cases owned entry.2 <;> rfl

theorem owned_filters_perm (t : Store) :
    (t.owned false).filters.Perm (((pairs t.filters).filter fun entry => filterVisible entry.2).map
      fun entry => ownedFilter entry.1 entry.2) :=
  (layers_perm t.filters (fun f => ownedBy f.providerKey) Filter.layerKey
    (by decide +kernel : filterLayers.Nodup)
    fun _ => rfl).map _

theorem owned_callouts_perm (t : Store) :
    (t.owned false).callouts.Perm (((pairs t.callouts).filter fun entry => calloutVisible entry.2).map
      fun entry => ⟨entry.1, entry.2.flags, entry.2.layer⟩) :=
  (layers_perm t.callouts (fun c => ownedBy c.provider) Callout.layer
    (by decide +kernel : calloutLayers.Nodup)
    fun _ => rfl).map _

theorem owned_contexts (t : Store) :
    (t.owned false).contexts = ((pairs t.contexts).filter fun entry => contextVisible entry.2).map
      fun entry => ⟨entry.2.key, entry.1, entry.2.flags, entry.2.type, contextData entry.2⟩ := by
  simp only [Store.owned, Store.contextsOf, pairs, List.filter_filter]
  congr 2
  funext entry
  cases isOwned : ownedBy entry.2.provider <;> simp [contextVisible, isOwned]

theorem owned_sublayers (t : Store) (everyLayer : Bool) :
    (t.owned everyLayer).sublayers = ((pairs t.sublayers).filter fun entry =>
      ownedBy entry.2.provider).map fun entry => ⟨entry.1, entry.2.flags, entry.2.weight⟩ := by
  simp only [Store.owned, Store.sublayersOf, pairs, List.filter_filter]
  congr 2
  funext entry
  cases isOwned : ownedBy entry.2.provider <;> simp

/-! ### What is listed for deletion -/

section Listed

variable {t : Store} {everyLayer : Bool}

theorem mem_owned_filter_ids {id : UInt64} :
    id ∈ (t.owned everyLayer).filters.map (·.id) ↔ ∃ f, t.filters.lookup id = some f ∧
      ownedBy f.providerKey = true ∧ (everyLayer = false → f.layerKey ∈ filterLayers) := by
  cases everyLayer with
  | true =>
    simp [Store.owned, Store.filtersIn, ownedFilter, ← mem_pairs, pairs]
  | false =>
    rw [((owned_filters_perm t).map _).mem_iff]
    simp [mem_pairs, filterVisible, ownedFilter]

theorem mem_owned_callouts {c : OwnedCallout} :
    c ∈ (t.owned everyLayer).callouts ↔ ∃ callout, t.callouts.lookup c.key = some callout ∧
      ownedBy callout.provider = true ∧ (everyLayer = false → callout.layer ∈ calloutLayers) ∧
        c.flags = callout.flags ∧ c.layer = callout.layer := by
  have shown : (t.owned everyLayer).callouts.Perm (((pairs t.callouts).filter fun entry =>
      ownedBy entry.2.provider && (everyLayer || decide (entry.2.layer ∈ calloutLayers))).map
        fun entry => ⟨entry.1, entry.2.flags, entry.2.layer⟩) := by
    cases everyLayer with
    | true => simp [Store.owned, Store.calloutsIn, pairs, List.filter_map, Function.comp_def]
    | false => exact owned_callouts_perm t
  rw [shown.mem_iff]
  simp only [List.mem_map, List.mem_filter, Bool.and_eq_true, Bool.or_eq_true, decide_eq_true_eq]
  constructor
  · rintro ⟨⟨key, callout⟩, ⟨member, isOwned, layer⟩, rfl⟩
    exact ⟨callout, mem_pairs.mp member, isOwned, fun known => layer.resolve_left (by simp [known]), rfl, rfl⟩
  · rintro ⟨callout, present, isOwned, layer, flags, same⟩
    refine ⟨(c.key, callout), ⟨mem_pairs.mpr present, isOwned, ?_⟩, by rw [← flags, ← same]⟩
    cases everyLayer with
    | true => exact .inl rfl
    | false => exact .inr (layer rfl)

theorem mem_owned_context_ids {id : UInt64} :
    id ∈ (t.owned everyLayer).contexts.map (·.id) ↔ ∃ c, t.contexts.lookup id = some c ∧
      ownedBy c.provider = true ∧ (everyLayer = false → c.type = .general) := by
  cases everyLayer with
  | true =>
    simp [Store.owned, Store.contextsOf, ← mem_pairs, pairs]
  | false =>
    rw [owned_contexts]
    simp [mem_pairs, contextVisible]

theorem mem_owned_sublayers {x : OwnedSublayer} :
    x ∈ (t.owned everyLayer).sublayers ↔ ∃ sublayer, t.sublayers.lookup x.key = some sublayer ∧
      ownedBy sublayer.provider = true ∧ x.flags = sublayer.flags ∧ x.weight = sublayer.weight := by
  rw [owned_sublayers]
  simp only [List.mem_map, List.mem_filter]
  constructor
  · rintro ⟨⟨key, sublayer⟩, ⟨member, isOwned⟩, rfl⟩
    exact ⟨sublayer, mem_pairs.mp member, isOwned, rfl, rfl⟩
  · rintro ⟨sublayer, present, isOwned, flags, weight⟩
    refine ⟨(x.key, sublayer), ⟨mem_pairs.mpr present, isOwned⟩, ?_⟩
    cases x
    simp_all

end Listed

/-! ## One kind of object at a time -/

/-- What is known of each kind of object. -/
structure Shape (providers : FiniteMap Guid UInt32 → Prop) (sublayers : FiniteMap Guid Sublayer → Prop)
    (callouts : FiniteMap Guid Callout → Prop) (contexts : FiniteMap UInt64 Context → Prop)
    (filters : FiniteMap UInt64 Filter → Prop) (t : Store) : Prop where
  providers : providers t.providers
  sublayers : sublayers t.sublayers
  callouts : callouts t.callouts
  contexts : contexts t.contexts
  filters : filters t.filters

theorem shape_self (s t : Store) (same : t = s) :
    Shape (· = s.providers) (· = s.sublayers) (· = s.callouts) (· = s.contexts) (· = s.filters) t := by
  subst same
  exact ⟨rfl, rfl, rfl, rfl, rfl⟩

section Shapes

variable {s : Store} {pp : FiniteMap Guid UInt32 → Prop} {ps : FiniteMap Guid Sublayer → Prop}
  {pc : FiniteMap Guid Callout → Prop} {px : FiniteMap UInt64 Context → Prop}
  {pf : FiniteMap UInt64 Filter → Prop}

/-- Deletions one after another. -/
theorem within_erase {K V B : Type} [DecidableEq K] {J : FiniteMap K V → Store → Prop}
    {delete : K → Probe Unit} (key : B → K)
    (one : ∀ m k, Within s (J m) (delete k) fun _ => J (m.erase k)) :
    ∀ (bs : List B) (m : FiniteMap K V), Within s (J m) (Proc.each (fun b => delete (key b)) bs) fun _ =>
      J (eraseAll (bs.map key) m)
  | [], _ => within_pure fun _ start => start
  | b :: rest, m => within_bind (one m (key b)) fun _ => within_erase key one rest (m.erase (key b))

theorem filterDelete_spec (m : FiniteMap UInt64 Filter) (id : UInt64) :
    Within s (Shape pp ps pc px (· = m)) (filterDeleteById id) fun _ => Shape pp ps pc px (· = m.erase id) :=
  within_guarded fun _ _ start _ => { start with filters := by rw [start.filters] }

theorem contextDelete_spec (m : FiniteMap UInt64 Context) (id : UInt64) :
    Within s (Shape pp ps pc (· = m) pf) (contextDeleteById id) fun _ => Shape pp ps pc (· = m.erase id) pf :=
  within_guarded fun _ _ start _ => { start with contexts := by rw [start.contexts] }

theorem calloutDelete_spec (m : FiniteMap Guid Callout) (key : Guid) :
    Within s (Shape pp ps (· = m) px pf) (calloutDeleteByKey key) fun _ =>
    Shape pp ps (· = m.erase key) px pf :=
  within_guarded fun _ _ start _ => { start with callouts := by rw [start.callouts] }

theorem sublayerDelete_spec (m : FiniteMap Guid Sublayer) (key : Guid) :
    Within s (Shape pp (· = m) pc px pf) (subLayerDeleteByKey key) fun _ =>
    Shape pp (· = m.erase key) pc px pf :=
  within_guarded fun _ _ start _ => { start with sublayers := by rw [start.sublayers] }

/-- The callouts that are not current are deleted, and the rules without a current one are left to
add. -/
theorem settleCallouts_spec (m : FiniteMap Guid Callout) :
    ∀ (owned : List OwnedCallout) (rules : List CalloutRule),
      Within s (Shape pp ps (· = m) px pf) (settleCallouts owned rules) fun toAdd t =>
        Shape pp ps (· = eraseAll ((owned.filter fun c => !calloutCurrent c).map (·.key)) m) px pf t ∧
          toAdd = rules.filter fun rule => ∀ c ∈ owned, calloutCurrent c = true → rule.key ≠ c.key
  | [], rules => within_pure fun t start => ⟨start, by simp⟩
  | callout :: rest, rules => by
    unfold settleCallouts
    by_cases current : calloutCurrent callout = true
    · rw [if_pos current]
      refine within_mono (settleCallouts_spec m rest _) (fun _ start => start) ?_
      rintro toAdd t ⟨shape, rfl⟩
      refine ⟨by simpa [current] using shape, ?_⟩
      rw [List.filter_filter]
      congr 1
      funext rule
      simp [current, Bool.decide_and, Bool.and_comm]
    · rw [if_neg current]
      refine within_bind (calloutDelete_spec m callout.key) fun _ => ?_
      refine within_mono (settleCallouts_spec (m.erase callout.key) rest rules)
        (fun _ start => start) ?_
      rintro toAdd t ⟨shape, rfl⟩
      refine ⟨?_, by simp [current]⟩
      simpa [current, eraseAll] using shape

/-- The sublayers that are not current are deleted. -/
theorem settleSublayers_spec (m : FiniteMap Guid Sublayer) :
    ∀ (owned : List OwnedSublayer) (present : Bool),
      Within s (Shape pp (· = m) pc px pf) (settleSublayers owned present) fun found t =>
        Shape pp (· = eraseAll ((owned.filter fun x => !sublayerCurrent x).map (·.key)) m) pc px pf t ∧
          found = (present || owned.any sublayerCurrent)
  | [], present => within_pure fun t start => ⟨start, by simp⟩
  | sublayer :: rest, present => by
    unfold settleSublayers
    by_cases current : sublayerCurrent sublayer = true
    · rw [if_pos current]
      refine within_mono (settleSublayers_spec m rest true) (fun _ start => start) ?_
      rintro found t ⟨shape, rfl⟩
      exact ⟨by simpa [current] using shape, by simp [current]⟩
    · rw [if_neg current]
      refine within_bind (sublayerDelete_spec m sublayer.key) fun _ => ?_
      refine within_mono (settleSublayers_spec (m.erase sublayer.key) rest present)
        (fun _ start => start) ?_
      rintro found t ⟨shape, rfl⟩
      refine ⟨?_, by simp [current]⟩
      simpa [current, eraseAll] using shape

theorem deleteFiltersAndContexts_spec (filters : FiniteMap UInt64 Filter)
    (contexts : FiniteMap UInt64 Context) (owned : Owned) :
    Within s (Shape pp ps pc (· = contexts) (· = filters)) (deleteFiltersAndContexts owned)
      fun _ => Shape pp ps pc (· = eraseAll (owned.contexts.map (·.id)) contexts)
        (· = eraseAll (owned.filters.map (·.id)) filters) :=
  within_bind (within_erase OwnedFilter.id filterDelete_spec owned.filters filters) fun _ =>
    within_erase OwnedContext.id contextDelete_spec owned.contexts contexts

/-! ### Additions -/

/-- The provider is there and persistent, and the others are as they were. -/
def ProviderReady (before now : FiniteMap Guid UInt32) : Prop :=
  (∃ flags, now.lookup kProvider = some flags ∧ has flags kProviderPersistent = true) ∧
    ∀ k, k ≠ kProvider → now.lookup k = before.lookup k

theorem settleProvider_spec (m : FiniteMap Guid UInt32)
    (persistent : (m.lookup kProvider).all (fun flags => has flags kProviderPersistent) = true) :
    Within s (Shape (· = m) ps pc px pf)
      (Proc.when (m.lookup kProvider).isNone (providerAdd kProvider kProviderPersistent))
      fun _ => Shape (ProviderReady m) ps pc px pf := by
  apply within_when
  · refine fun absent => within_guarded fun answer t start _ => ?_
    refine { start with providers := ⟨⟨kProviderPersistent, ?_, by decide⟩, ?_⟩ }
    · rw [FiniteMap.lookup_insert_of, if_pos rfl]
    · intro k other
      rw [FiniteMap.lookup_insert_of, if_neg other, start.providers]
  · intro present t start
    refine { start with providers := ⟨?_, fun k _ => by rw [start.providers]⟩ }
    cases found : m.lookup kProvider with
    | none => simp [found] at present
    | some flags =>
      rw [found] at persistent
      exact ⟨flags, start.providers ▸ found, by simpa using persistent⟩

/-- The sublayer of the project is the one it owns, and those of others are as they were. -/
structure SublayerReady (before now : FiniteMap Guid Sublayer) : Prop where
  others : SameOn (fun x => !ownedBy x.provider) before now
  current : ∃ x, now.lookup kSublayer = some x ∧ ownedBy x.provider = true ∧
    sublayerCurrent ⟨kSublayer, x.flags, x.weight⟩ = true
  alone : ∀ k x, now.lookup k = some x → ownedBy x.provider = true → k = kSublayer

theorem sublayerCurrent_key {x : OwnedSublayer} (current : sublayerCurrent x = true) :
    x.key = kSublayer := by
  simp only [sublayerCurrent, Bool.and_eq_true, beq_iff_eq] at current
  exact current.1.1

/-- What is left after the sublayers that are not current are deleted. -/
def Store.settledSublayers (t : Store) : FiniteMap Guid Sublayer :=
  eraseAll (((t.owned false).sublayers.filter fun x => !sublayerCurrent x).map (·.key)) t.sublayers

theorem lookup_settledSublayers {t : Store} {k : Guid} {x : Sublayer} :
    t.settledSublayers.lookup k = some x ↔ t.sublayers.lookup k = some x ∧
      (ownedBy x.provider = true → sublayerCurrent ⟨k, x.flags, x.weight⟩ = true) := by
  rw [Store.settledSublayers, lookup_eraseAll_some, and_comm]
  refine and_congr_right fun present => ?_
  simp only [List.mem_map, List.mem_filter, mem_owned_sublayers]
  constructor
  · intro kept isOwned
    by_contra stale
    exact kept ⟨⟨k, x.flags, x.weight⟩, ⟨⟨x, present, isOwned, rfl, rfl⟩, by simpa using stale⟩, rfl⟩
  · rintro current ⟨⟨k', flags, weight⟩, ⟨⟨x', present', isOwned, rfl, rfl⟩, stale⟩, rfl⟩
    have same : x' = x := Option.some.inj (present'.symm.trans present)
    subst same
    simp [current isOwned] at stale

theorem settledSublayers_others (t : Store) :
    SameOn (fun x => !ownedBy x.provider) t.sublayers t.settledSublayers := by
  intro k x foreign
  rw [lookup_settledSublayers]
  exact and_iff_left fun isOwned => by simp [isOwned] at foreign

/-- The owned sublayers that are left are current, so each has the one key. -/
theorem settledSublayers_alone {t : Store} {k : Guid} {x : Sublayer}
    (present : t.settledSublayers.lookup k = some x) (isOwned : ownedBy x.provider = true) :
    k = kSublayer :=
  sublayerCurrent_key ((lookup_settledSublayers.mp present).2 isOwned)

theorem settleSublayer_spec (t₀ : Store) (present : Bool)
    (found : present = (false || (t₀.owned false).sublayers.any sublayerCurrent)) :
    Within s (Shape pp (· = t₀.settledSublayers) pc px pf)
      (Proc.when (!present) (subLayerAdd kSublayer ⟨some kProvider, kSublayerPersistent, kSublayerWeight⟩))
      fun _ => Shape pp (SublayerReady t₀.sublayers) pc px pf := by
  apply within_when
  · refine fun absent => within_guarded fun answer t start free => ?_
    have unused : t.sublayers.lookup kSublayer = none := by simpa using free
    refine { start with sublayers :=
      ⟨?_, ⟨⟨some kProvider, kSublayerPersistent, kSublayerWeight⟩, ?_, by decide, by decide⟩, ?_⟩ }
    · refine SameOn.trans ?_ (SameOn.insert unused (by simp [ownedBy]))
      exact start.sublayers ▸ settledSublayers_others t₀
    · rw [FiniteMap.lookup_insert_of, if_pos rfl]
    · intro k x lookup isOwned
      rw [FiniteMap.lookup_insert_of] at lookup
      split at lookup
      next same => exact same
      next => exact settledSublayers_alone (start.sublayers ▸ lookup) isOwned
  · intro isPresent t start
    have some : present = true := by simpa using isPresent
    rw [some, Bool.false_or, eq_comm, List.any_eq_true] at found
    obtain ⟨⟨k, flags, weight⟩, member, current⟩ := found
    obtain ⟨x, lookup, isOwned, rfl, rfl⟩ := mem_owned_sublayers.mp member
    obtain rfl : k = kSublayer := sublayerCurrent_key current
    refine { start with sublayers := ⟨?_, ⟨x, ?_, isOwned, current⟩, ?_⟩ }
    · exact start.sublayers ▸ settledSublayers_others t₀
    · rw [start.sublayers, lookup_settledSublayers]
      exact ⟨lookup, fun _ => current⟩
    · intro k x lookup isOwned
      exact settledSublayers_alone (start.sublayers ▸ lookup) isOwned

/-- Every callout of the project that is seen is current, those of the rules are there but for the
missing ones, and those of others are as they were. -/
structure CalloutsReady (before : FiniteMap Guid Callout) (missing : List CalloutRule)
    (now : FiniteMap Guid Callout) : Prop where
  others : SameOn (fun c => !ownedBy c.provider) before now
  current : ∀ k c, now.lookup k = some c → calloutVisible c = true →
    calloutCurrent ⟨k, c.flags, c.layer⟩ = true
  present : ∀ rule ∈ kCallouts, rule ∉ missing → ∃ c, now.lookup rule.key = some c ∧
    calloutVisible c = true

/-- The rules whose callout is not there, or not current. -/
def Store.missingCallouts (t : Store) : List CalloutRule :=
  kCallouts.filter fun rule => ∀ c ∈ (t.owned false).callouts, calloutCurrent c = true → rule.key ≠ c.key

theorem settledCallouts_ready (t : Store) :
    CalloutsReady t.callouts t.missingCallouts
      (eraseAll (((t.owned false).callouts.filter fun c => !calloutCurrent c).map (·.key)) t.callouts) := by
  have listed : ∀ {k c}, t.callouts.lookup k = some c → calloutVisible c = true →
      (⟨k, c.flags, c.layer⟩ : OwnedCallout) ∈ (t.owned false).callouts := by
    intro k c present visible
    have parts : ownedBy c.provider = true ∧ c.layer ∈ calloutLayers := by
      simpa [calloutVisible] using visible
    exact mem_owned_callouts.mpr ⟨c, present, parts.1, fun _ => parts.2, rfl, rfl⟩
  refine ⟨SameOn.eraseAll ?_, ?_, ?_⟩
  · intro k member c present
    obtain ⟨listed, inOwned, rfl⟩ := List.mem_map.mp member
    obtain ⟨callout, lookup, isOwned, -⟩ := mem_owned_callouts.mp (List.mem_filter.mp inOwned).1
    rw [Option.some.inj (present.symm.trans lookup)]
    simp [isOwned]
  · intro k c present visible
    obtain ⟨kept, lookup⟩ := lookup_eraseAll_some.mp present
    by_contra stale
    exact kept (List.mem_map.mpr ⟨⟨k, c.flags, c.layer⟩,
      List.mem_filter.mpr ⟨listed lookup visible, by simpa using stale⟩, rfl⟩)
  · intro rule inRules notMissing
    have isCurrent : ∃ c ∈ (t.owned false).callouts, calloutCurrent c = true ∧ rule.key = c.key := by
      by_contra none
      push Not at none
      exact notMissing (List.mem_filter.mpr ⟨inRules, by simpa using none⟩)
    obtain ⟨c, inOwned, current, sameKey⟩ := isCurrent
    obtain ⟨callout, lookup, isOwned, layer, flags, layers⟩ := mem_owned_callouts.mp inOwned
    refine ⟨callout, ?_, by simp [calloutVisible, isOwned, layer rfl]⟩
    rw [sameKey, lookup_eraseAll_some]
    refine ⟨fun erased => ?_, lookup⟩
    obtain ⟨c', stale, sameKey'⟩ := List.mem_map.mp erased
    obtain ⟨inOwned', notCurrent⟩ := List.mem_filter.mp stale
    obtain ⟨callout', lookup', -, -, flags', layers'⟩ := mem_owned_callouts.mp inOwned'
    rw [sameKey', lookup] at lookup'
    have same : c' = c := by
      cases c
      cases c'
      simp_all
    rw [same, current] at notCurrent
    exact Bool.noConfusion notCurrent

/-- The callout that is added for a rule. -/
def ruleCallout (rule : CalloutRule) : Callout :=
  ⟨some kProvider, kCalloutPersistent ||| kUsesProviderContext, rule.layer⟩

theorem addCallout_spec (before : FiniteMap Guid Callout) {rule : CalloutRule}
    (rest : List CalloutRule) (inRules : rule ∈ kCallouts) :
    Within s (Shape pp ps (CalloutsReady before (rule :: rest)) px pf) (addCallout rule)
      fun _ => Shape pp ps (CalloutsReady before rest) px pf := by
  have made : ∀ rule ∈ kCallouts, calloutVisible (ruleCallout rule) = true ∧
      calloutCurrent ⟨rule.key, (ruleCallout rule).flags, (ruleCallout rule).layer⟩ = true := by
    decide +kernel
  refine within_guarded fun answer t start free => ?_
  have unused : t.callouts.lookup rule.key = none := by simpa using free
  refine { start with callouts := ⟨?_, ?_, ?_⟩ }
  · exact start.callouts.others.trans (SameOn.insert unused (by simp [ownedBy]))
  · intro k c lookup visible
    rw [FiniteMap.lookup_insert_of] at lookup
    split at lookup
    next same =>
      subst same
      rw [← Option.some.inj lookup]
      exact (made rule inRules).2
    next => exact start.callouts.current k c lookup visible
  · intro rule' inRules' notRest
    rw [FiniteMap.lookup_insert_of]
    by_cases same : rule'.key = rule.key
    · rw [if_pos same]
      exact ⟨_, rfl, (made rule inRules).1⟩
    · rw [if_neg same]
      refine start.callouts.present rule' inRules' fun member => ?_
      rcases List.mem_cons.mp member with rfl | inRest
      · exact same rfl
      · exact notRest inRest

theorem addCallouts_spec (before : FiniteMap Guid Callout) :
    ∀ rules : List CalloutRule, (∀ rule ∈ rules, rule ∈ kCallouts) →
      Within s (Shape pp ps (CalloutsReady before rules) px pf) (Proc.each addCallout rules)
        fun _ => Shape pp ps (CalloutsReady before []) px pf
  | [], _ => within_pure fun _ start => start
  | rule :: rest, inRules => by
    refine within_bind (addCallout_spec before rest (inRules rule List.mem_cons_self)) fun _ => ?_
    exact addCallouts_spec before rest fun rule member => inRules rule (List.mem_cons_of_mem _ member)

/-- The context of the project is the only one that is seen. -/
def ContextReady (before : FiniteMap UInt64 Context) (key : Guid) (ip : UInt32)
    (now : FiniteMap UInt64 Context) : Prop :=
  SameOn (fun c => !ownedBy c.provider) before now ∧
    ∃ id, now.lookup id =
        some ⟨key, some kProvider, kContextPersistent, .general, some (contextFor ip)⟩ ∧
      ∀ id' c, now.lookup id' = some c → contextVisible c = true → id' = id

theorem contextAdd_spec (t₀ : Store) (key : Guid) (ip : UInt32) :
    Within s
      (Shape pp ps pc (· = eraseAll ((t₀.owned false).contexts.map (·.id)) t₀.contexts) pf)
      (contextAdd ⟨key, some kProvider, kContextPersistent, .general, some (contextFor ip)⟩)
      fun _ => Shape pp ps pc (ContextReady t₀.contexts key ip) pf := by
  refine within_guarded fun answer t start free => ?_
  have unused : t.contexts.lookup answer.id = none := by
    rw [not_or] at free
    simpa using free.1
  refine { start with contexts := ⟨?_, answer.id, ?_, ?_⟩ }
  · refine SameOn.trans ?_ (SameOn.insert unused (by simp [ownedBy]))
    rw [start.contexts]
    refine SameOn.eraseAll fun id member c lookup => ?_
    obtain ⟨c', lookup', isOwned, -⟩ := mem_owned_context_ids.mp member
    rw [Option.some.inj (lookup.symm.trans lookup')]
    simp [isOwned]
  · rw [FiniteMap.lookup_insert_of, if_pos rfl]
  · intro id' c lookup visible
    rw [FiniteMap.lookup_insert_of] at lookup
    split at lookup
    next same => exact same
    next =>
      rw [start.contexts] at lookup
      obtain ⟨notListed, present⟩ := lookup_eraseAll_some.mp lookup
      have parts : ownedBy c.provider = true ∧ c.type = .general := by
        simpa [contextVisible] using visible
      exact absurd (mem_owned_context_ids.mpr ⟨c, present, parts.1, fun _ => parts.2⟩) notListed

/-- The filters that are seen have the signatures of the drafts, those of others are as they were,
and no filter of the project is put into another layer. -/
structure FiltersReady (before : FiniteMap UInt64 Filter) (drafts : List Filter)
    (now : FiniteMap UInt64 Filter) : Prop where
  others : SameOn (fun f => !ownedBy f.providerKey) before now
  signatures : ((values filterVisible now).map filterSignature).Perm (drafts.map filterSignature)
  spelled : ∀ id f, now.lookup id = some f → filterVisible f = true →
    ∀ condition ∈ f.conditions, condition.conditionValue.Spelled
  layers : ∀ id f, now.lookup id = some f → ownedBy f.providerKey = true →
    before.lookup id = some f ∨ f.layerKey ∈ filterLayers

theorem erasedFilters_ready (t : Store) :
    FiltersReady t.filters [] (eraseAll ((t.owned false).filters.map (·.id)) t.filters) := by
  have unseen : ∀ id f, (eraseAll ((t.owned false).filters.map (·.id)) t.filters).lookup id = some f →
      filterVisible f = false := by
    intro id f lookup
    obtain ⟨notListed, present⟩ := lookup_eraseAll_some.mp lookup
    by_contra visible
    have parts : ownedBy f.providerKey = true ∧ f.layerKey ∈ filterLayers := by
      simpa [filterVisible] using visible
    exact notListed (mem_owned_filter_ids.mpr ⟨f, present, parts.1, fun _ => parts.2⟩)
  refine ⟨SameOn.eraseAll fun id member f lookup => ?_, ?_, ?_, ?_⟩
  · obtain ⟨f', lookup', isOwned, -⟩ := mem_owned_filter_ids.mp member
    rw [Option.some.inj (lookup.symm.trans lookup')]
    simp [isOwned]
  · rw [values_eq_nil unseen]
  · intro id f lookup visible
    rw [unseen id f lookup] at visible
    exact Bool.noConfusion visible
  · intro id f lookup _
    exact .inl (lookup_eraseAll_some.mp lookup).2

theorem kept_signature (filter : Filter) (key bootSublayer : Guid) :
    filterSignature (kept { filter with filterKey := key } bootSublayer) = filterSignature filter := by
  unfold kept
  split
  next boot =>
    rw [filterSignature_bootTime (f := { filter with filterKey := key }) boot, filterSignature_key]
  next => rw [filterSignature_key]

theorem kept_rest (filter : Filter) (key bootSublayer : Guid) :
    (kept { filter with filterKey := key } bootSublayer).providerKey = filter.providerKey ∧
      (kept { filter with filterKey := key } bootSublayer).layerKey = filter.layerKey ∧
        (kept { filter with filterKey := key } bootSublayer).conditions = filter.conditions := by
  unfold kept
  split <;> exact ⟨rfl, rfl, rfl⟩

theorem addFilter_spec (before : FiniteMap UInt64 Filter) (done : List Filter) {filter : Filter}
    (visible : filterVisible filter = true)
    (spelled : ∀ condition ∈ filter.conditions, condition.conditionValue.Spelled) :
    Within s (Shape pp ps pc px (FiltersReady before done)) (addFilter filter)
      fun _ => Shape pp ps pc px (FiltersReady before (filter :: done)) := by
  refine within_bind (M := fun _ => Shape pp ps pc px (FiltersReady before done)) ?_ fun key => ?_
  · apply within_call
    rintro answer t a t' start made
    obtain ⟨-, rfl⟩ := Prod.mk.inj (Option.some.inj made)
    exact start
  refine within_guarded fun answer t start free => ?_
  have unused : t.filters.lookup answer.id = none := by
    rw [not_or] at free
    simpa using free.1
  obtain ⟨provider, layer, conditions⟩ := kept_rest filter key answer.bootSublayer
  have parts : ownedBy filter.providerKey = true ∧ filter.layerKey ∈ filterLayers := by
    simpa [filterVisible] using visible
  have keptVisible : filterVisible (kept { filter with filterKey := key } answer.bootSublayer) = true := by
    rw [filterVisible, provider, layer]
    exact visible
  refine { start with filters := ⟨?_, ?_, ?_, ?_⟩ }
  · refine start.filters.others.trans (SameOn.insert unused ?_)
    simp only [provider, parts.1, Bool.not_true]
  · rw [values_insert unused, if_pos keptVisible]
    simp only [List.cons_append, List.nil_append, List.map_cons, kept_signature]
    exact start.filters.signatures.cons _
  · intro id f lookup isVisible
    rw [FiniteMap.lookup_insert_of] at lookup
    split at lookup
    next =>
      rw [← Option.some.inj lookup, conditions]
      exact spelled
    next => exact start.filters.spelled id f lookup isVisible
  · intro id f lookup isOwned
    rw [FiniteMap.lookup_insert_of] at lookup
    split at lookup
    next =>
      rw [← Option.some.inj lookup, layer]
      exact .inr parts.2
    next => exact start.filters.layers id f lookup isOwned

theorem addFilters_spec (before : FiniteMap UInt64 Filter) :
    ∀ (filters done : List Filter), (∀ filter ∈ filters, filterVisible filter = true ∧
        ∀ condition ∈ filter.conditions, condition.conditionValue.Spelled) →
      Within s (Shape pp ps pc px (FiltersReady before done)) (Proc.each addFilter filters)
        fun _ => Shape pp ps pc px (FiltersReady before (filters.reverse ++ done))
  | [], _, _ => within_pure fun _ start => start
  | filter :: rest, done, drafts => by
    obtain ⟨visible, spelled⟩ := drafts filter List.mem_cons_self
    refine within_bind (addFilter_spec before done visible spelled) fun _ => ?_
    have more := addFilters_spec before rest (filter :: done) fun filter member =>
      drafts filter (List.mem_cons_of_mem _ member)
    simpa using more

theorem forEachFilter_visible (apps : List AppEntry) (context : Guid) (ip : UInt32) (redirects : Bool) :
    ∀ filter ∈ forEachFilter apps context ip redirects, filterVisible filter = true ∧
      ∀ condition ∈ filter.conditions, condition.conditionValue.Spelled := by
  have layers : ∀ rule ∈ kRules, rule.layer ∈ filterLayers := by decide +kernel
  intro filter member
  obtain ⟨app, -, rule, inRules, boot, rfl, -⟩ := mem_forEachFilter member
  refine ⟨?_, draft_spelled rule app context ip boot⟩
  simp [filterVisible, draftFilter, ownedBy, layers rule inRules]

end Shapes

/-! ## Installation -/

/-- The objects of other providers are the same in both stores. -/
structure Others (s t : Store) : Prop where
  providers : ∀ k, k ≠ kProvider → t.providers.lookup k = s.providers.lookup k
  sublayers : SameOn (fun x => !ownedBy x.provider) s.sublayers t.sublayers
  callouts : SameOn (fun c => !ownedBy c.provider) s.callouts t.callouts
  contexts : SameOn (fun c => !ownedBy c.provider) s.contexts t.contexts
  filters : SameOn (fun f => !ownedBy f.providerKey) s.filters t.filters

/-- Every filter of the project lies in a layer that its snapshots show. -/
def Regular (t : Store) : Prop :=
  ∀ id f, t.filters.lookup id = some f → ownedBy f.providerKey = true → f.layerKey ∈ filterLayers

theorem calloutsForeign_spec (s t₀ : Store) :
    ∀ rules : List CalloutRule, Within s (· = t₀) (calloutsForeign rules) fun foreign t =>
      t = t₀ ∧ foreign = rules.any fun rule =>
        (t₀.callouts.lookup rule.key).any fun c => !ownedBy c.provider
  | [] => within_pure fun t start => ⟨start, rfl⟩
  | rule :: rest => by
    refine within_bind (query_spec s t₀ _) fun existing => within_given fun isExisting => ?_
    refine within_bind (calloutsForeign_spec s t₀ rest) fun others => within_given fun areOthers => ?_
    apply within_pure
    rintro t rfl
    exact ⟨rfl, by rw [isExisting, areOthers, List.any_cons]⟩

/-- What an installation leaves: the drafts of its inputs with one context, and the redirects only
if both callout keys are free. -/
def Installed (s : Store) (apps : List AppEntry) (ip : UInt32) (foreign : Bool) (t : Store) : Prop :=
  ∃ (missing : List CalloutRule) (key : Guid), (foreign = false → missing = []) ∧
    Shape (ProviderReady s.providers) (SublayerReady s.sublayers) (CalloutsReady s.callouts missing)
      (ContextReady s.contexts key ip)
      (FiltersReady s.filters (forEachFilter apps key ip !foreign).reverse) t

/-- What is known of each kind once everything that is not current is deleted. -/
theorem settled_shape (s t : Store) {pp : FiniteMap Guid UInt32 → Prop}
    {ps : FiniteMap Guid Sublayer → Prop} {px : FiniteMap UInt64 Context → Prop}
    (shape : Shape pp ps
      (· = eraseAll (((s.owned false).callouts.filter fun c => !calloutCurrent c).map (·.key)) s.callouts)
      px (· = eraseAll ((s.owned false).filters.map (·.id)) s.filters) t) :
    Shape pp ps (CalloutsReady s.callouts s.missingCallouts) px (FiltersReady s.filters []) t := by
  refine { shape with callouts := ?_, filters := ?_ }
  · rw [shape.callouts]
    exact settledCallouts_ready s
  · rw [shape.filters]
    exact erasedFilters_ready s

/-- **The body of an installation.** -/
theorem installBody_spec (s : Store) (apps : List AppEntry) (ip : UInt32) :
    Within s (· = s) (installBody apps ip) fun foreign => Installed s apps ip foreign := by
  refine within_bind (calloutsForeign_spec s s kCallouts) fun foreign => within_given fun _ => ?_
  refine within_bind (snapshot_spec s s false) fun existing => within_given fun isExisting => ?_
  subst isExisting
  refine within_bind within_require fun _ => within_given fun persistent => ?_
  refine within_mono ?_ (shape_self s) fun _ _ post => post
  refine within_bind (settleProvider_spec s.providers persistent) fun _ => ?_
  refine within_bind (deleteFiltersAndContexts_spec s.filters s.contexts (s.owned false)) fun _ => ?_
  refine within_bind (settleCallouts_spec s.callouts (s.owned false).callouts kCallouts) fun toAdd =>
    within_given fun isToAdd => ?_
  obtain rfl : toAdd = s.missingCallouts := isToAdd
  refine within_bind (settleSublayers_spec s.sublayers (s.owned false).sublayers false) fun present =>
    within_given fun isPresent => ?_
  refine within_bind (settleSublayer_spec s present isPresent) fun _ => ?_
  -- the callouts are added unless another provider holds one of the keys
  refine within_bind (M := fun _ t => ∃ missing, (foreign = false → missing = []) ∧
    Shape (ProviderReady s.providers) (SublayerReady s.sublayers) (CalloutsReady s.callouts missing)
      (· = eraseAll ((s.owned false).contexts.map (·.id)) s.contexts)
      (FiltersReady s.filters []) t) ?_ fun _ => ?_
  · refine within_mono ?_ (fun t shape => settled_shape s t shape) fun _ _ post => post
    apply within_when
    · intro free
      refine within_mono (addCallouts_spec s.callouts s.missingCallouts ?_) (fun _ start => start)
        fun _ t shape => ⟨[], fun _ => rfl, shape⟩
      exact fun rule member => (List.mem_filter.mp member).1
    · intro isForeign t shape
      exact ⟨s.missingCallouts, fun free => by simp [free] at isForeign, shape⟩
  rintro w ⟨same, t, opened, missing, none, shape⟩
  refine within_bind (M := fun _ => Shape (ProviderReady s.providers) (SublayerReady s.sublayers)
    (CalloutsReady s.callouts missing) (· = eraseAll ((s.owned false).contexts.map (·.id)) s.contexts)
    (FiltersReady s.filters [])) ?_ (fun key => ?_) w ⟨same, t, opened, shape⟩
  · apply within_call
    rintro answer t a t' start made
    obtain ⟨-, rfl⟩ := Prod.mk.inj (Option.some.inj made)
    exact start
  refine within_bind (contextAdd_spec s key ip) fun _ => ?_
  refine within_bind (addFilters_spec s.filters _ [] (forEachFilter_visible apps key ip !foreign))
    fun _ => ?_
  apply within_pure
  intro t shape
  exact ⟨missing, key, none, by simpa using shape⟩

theorem Installed.others {s t : Store} {apps : List AppEntry} {ip : UInt32} {foreign : Bool}
    (installed : Installed s apps ip foreign t) : Others s t := by
  obtain ⟨missing, key, -, shape⟩ := installed
  exact ⟨shape.providers.2, shape.sublayers.others, shape.callouts.others, shape.contexts.1,
    shape.filters.others⟩

theorem Installed.regular {s t : Store} {apps : List AppEntry} {ip : UInt32} {foreign : Bool}
    (installed : Installed s apps ip foreign t) (regular : Regular s) : Regular t := by
  obtain ⟨missing, key, -, shape⟩ := installed
  intro id f lookup isOwned
  rcases shape.filters.layers id f lookup isOwned with before | known
  · exact regular id f before isOwned
  · exact known

/-- An installation: nothing is changed unless its transaction is committed. -/
theorem install_meets (s : Store) (apps : List AppEntry) (ip : UInt32) :
    Meets (fun _ => True) (Untouched s) (fun w => w.store = s) (install apps ip)
      (fun _ w => Installed s apps ip false w.store)
      fun e w => w.store = s ∨ e = calloutInUse ∧ Installed s apps ip true w.store := by
  have committed := inTransaction_meets (installBody_spec s apps ip)
  refine meets_bind (meets_mono committed (fun _ start => start) (fun _ _ post => post)
    fun _ _ same => .inl same) fun foreign => ?_
  apply meets_require
  · intro isForeign w installed
    obtain rfl : foreign = true := by simpa using isForeign
    exact .inr ⟨rfl, installed⟩
  · intro free w installed
    obtain rfl : foreign = false := by simpa using free
    exact installed

/-! ## Removal -/

/-- No object of the project is left. -/
structure NoneOwned (t : Store) : Prop where
  provider : t.providers.lookup kProvider = none
  sublayers : ∀ k x, t.sublayers.lookup k = some x → ownedBy x.provider = false
  callouts : ∀ k c, t.callouts.lookup k = some c → ownedBy c.provider = false
  contexts : ∀ id c, t.contexts.lookup id = some c → ownedBy c.provider = false
  filters : ∀ id f, t.filters.lookup id = some f → ownedBy f.providerKey = false

section Removal

variable {s : Store} {pp : FiniteMap Guid UInt32 → Prop} {ps : FiniteMap Guid Sublayer → Prop}
  {pc : FiniteMap Guid Callout → Prop} {px : FiniteMap UInt64 Context → Prop}
  {pf : FiniteMap UInt64 Filter → Prop}

theorem deleteProvider_spec (m : FiniteMap Guid UInt32) :
    Within s (Shape (· = m) ps pc px pf)
      (Proc.when (m.lookup kProvider).isSome (providerDeleteByKey kProvider))
      fun _ => Shape (fun now => now.lookup kProvider = none ∧
        ∀ k, k ≠ kProvider → now.lookup k = m.lookup k) ps pc px pf := by
  apply within_when
  · refine fun present => within_guarded fun answer t start _ => ?_
    refine { start with providers := ⟨?_, fun k other => ?_⟩ }
    · rw [FiniteMap.lookup_erase_of, if_pos rfl]
    · rw [FiniteMap.lookup_erase_of, if_neg other, start.providers]
  · intro absent t start
    refine { start with providers := ⟨?_, fun k _ => by rw [start.providers]⟩ }
    rw [start.providers]
    simpa using absent

end Removal

/-- What is erased by a list of the owned keys: others' objects stay and no owned one does. -/
theorem eraseAll_owned {K V : Type} [DecidableEq K] (owned : V → Bool) (m : FiniteMap K V) (ks : List K)
    (listed : ∀ k, k ∈ ks ↔ ∃ v, m.lookup k = some v ∧ owned v = true) :
    SameOn (fun v => !owned v) m (eraseAll ks m) ∧
      ∀ k v, (eraseAll ks m).lookup k = some v → owned v = false := by
  constructor
  · refine SameOn.eraseAll fun k member v present => ?_
    obtain ⟨v', present', isOwned⟩ := (listed k).mp member
    rw [Option.some.inj (present.symm.trans present')]
    simp [isOwned]
  · intro k v present
    obtain ⟨notListed, before⟩ := lookup_eraseAll_some.mp present
    by_contra isOwned
    exact notListed ((listed k).mpr ⟨v, before, by simpa using isOwned⟩)

/-- **The body of a removal.** -/
theorem removeBody_spec (s : Store) :
    Within s (· = s) removeBody fun _ t => NoneOwned t ∧ Others s t := by
  refine within_bind (snapshot_spec s s true) fun existing => within_given fun isExisting => ?_
  subst isExisting
  refine within_mono ?_ (shape_self s) fun _ _ post => post
  refine within_bind (deleteFiltersAndContexts_spec s.filters s.contexts (s.owned true)) fun _ => ?_
  refine within_bind (within_erase OwnedCallout.key calloutDelete_spec
    (s.owned true).callouts s.callouts) fun _ => ?_
  refine within_bind (within_erase OwnedSublayer.key sublayerDelete_spec
    (s.owned true).sublayers s.sublayers) fun _ => ?_
  refine within_bind (deleteProvider_spec s.providers) fun _ => ?_
  apply within_pure
  intro t shape
  obtain ⟨keptFilters, noFilters⟩ := eraseAll_owned (fun f => ownedBy f.providerKey) s.filters
    ((s.owned true).filters.map (·.id)) fun id => mem_owned_filter_ids.trans (by simp)
  obtain ⟨keptContexts, noContexts⟩ := eraseAll_owned (fun c => ownedBy c.provider) s.contexts
    ((s.owned true).contexts.map (·.id)) fun id => mem_owned_context_ids.trans (by simp)
  obtain ⟨keptCallouts, noCallouts⟩ := eraseAll_owned (fun c => ownedBy c.provider) s.callouts
    ((s.owned true).callouts.map (·.key)) fun key => by
      rw [List.mem_map]
      constructor
      · rintro ⟨c, member, rfl⟩
        obtain ⟨callout, lookup, isOwned, -⟩ := mem_owned_callouts.mp member
        exact ⟨callout, lookup, isOwned⟩
      · rintro ⟨c, lookup, isOwned⟩
        exact ⟨⟨key, c.flags, c.layer⟩, mem_owned_callouts.mpr ⟨c, lookup, isOwned, by simp⟩, rfl⟩
  obtain ⟨keptSublayers, noSublayers⟩ := eraseAll_owned (fun x => ownedBy x.provider) s.sublayers
    ((s.owned true).sublayers.map (·.key)) fun key => by
      rw [List.mem_map]
      constructor
      · rintro ⟨x, member, rfl⟩
        obtain ⟨sublayer, lookup, isOwned, -⟩ := mem_owned_sublayers.mp member
        exact ⟨sublayer, lookup, isOwned⟩
      · rintro ⟨x, lookup, isOwned⟩
        exact ⟨⟨key, x.flags, x.weight⟩, mem_owned_sublayers.mpr ⟨x, lookup, isOwned, rfl, rfl⟩, rfl⟩
  constructor
  · exact ⟨shape.providers.1, shape.sublayers ▸ noSublayers, shape.callouts ▸ noCallouts,
      shape.contexts ▸ noContexts, shape.filters ▸ noFilters⟩
  · exact ⟨shape.providers.2, shape.sublayers ▸ keptSublayers, shape.callouts ▸ keptCallouts,
      shape.contexts ▸ keptContexts, shape.filters ▸ keptFilters⟩

/-- A removal: nothing is changed unless its transaction is committed. -/
theorem removeAll_meets (s : Store) :
    Meets (fun _ => True) (Untouched s) (fun w => w.store = s) removeAll
      (fun _ w => NoneOwned w.store ∧ Others s w.store) fun _ => Untouched s :=
  inTransaction_meets (removeBody_spec s)

end ProgramSplit.Windows.Wfp
