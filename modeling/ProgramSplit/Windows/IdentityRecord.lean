/-
# Windows.IdentityRecord — an executable's coming and going, and the identity record

A second run identifies the entries from the record of the first, the filters it installed, and a
file system in which some entries are absent and some no longer resolve.

* `installed_filters` — the filters of an installation carry the identifiers and tags they were
  made of.
* `retained_eq` — an entry that no longer resolves gets its identifiers back, in order.
* `record_kept_iff` — **the record is the same exactly if the fully lowered identifier of no
  unresolved entry stands behind the other, and the pairs given to the filters always are.**
* `upper_letter_reordered` — an upper-case letter outside ASCII changes the record.
-/
import ProgramSplit.Windows.FilterExact
import ProgramSplit.Windows.IdentityRetained
import ProgramSplit.Windows.IdentityText

namespace ProgramSplit.Windows.Wfp

set_option autoImplicit false

open Lib
open Lib.Utf16

/-! ## What installed filters carry -/

/-- The listed entry and the path that a filter's provider data hold. -/
def taggedBy (data : Bytes) : WString × WString :=
  if data.length % 2 = 0 then tagOf (units data) else ([], [])

variable {entry : WString}

theorem taggedBy_memory (tabFree : 9 ∉ entry) (path : WString) :
    taggedBy (memory (entry ++ 9 :: path)) = (entry, path) := by
  have even : (memory (entry ++ 9 :: path)).length % 2 = 0 := by
    rw [memory_length]
    omega
  have untabbed : ∀ u ∈ entry, (u != 9) = true := by
    intro u member
    have other : u ≠ 9 := fun same => tabFree (same ▸ member)
    simpa using other
  rw [taggedBy, if_pos even, units_memory, tagOf, List.takeWhile_append_of_pos untabbed,
    List.dropWhile_append_of_pos untabbed]
  simp

theorem draft_appIds (rule : FilterRule) (app : AppEntry) (context : Guid) (ip : UInt32) (boot : Bool) :
    (draftFilter rule app context ip boot).conditions.filterMap conditionAppId = [app.appId] := by
  have flags : kConditionFlags ≠ kConditionAppId := by decide
  have address : kConditionLocalAddress ≠ kConditionAppId := by decide
  have loopback : conditionAppId loopbackCondition = none := if_neg flags
  have tunnel : conditionAppId (tunnelCondition ip) = none := if_neg address
  have own : conditionAppId (appCondition app) = some app.appId := if_pos rfl
  simp only [draftFilter, List.filterMap_cons, own, List.filterMap_append]
  cases rule.exceptLoopback <;> cases rule.exceptTunnel <;> simp [loopback, tunnel]

/-- A filter with the effect of a draft carries the draft's identifier and tag. -/
theorem ownedFilter_of_effect {rule : FilterRule} {app : AppEntry} {context : Guid} {ip : UInt32}
    {boot : Bool} {f : Filter} (effect : SameEffect (draftFilter rule app context ip boot) f)
    (id : UInt64) :
    (ownedFilter id f).appId = app.appId ∧
      ((ownedFilter id f).tag, (ownedFilter id f).path) = taggedBy app.tag := by
  have conditions := effect.conditions_perm (draft_spelled rule app context ip boot)
  have named : f.conditions.filterMap conditionAppId = [app.appId] := by
    rw [← draft_appIds rule app context ip boot]
    exact List.perm_singleton.mp (draft_appIds rule app context ip boot ▸ (conditions.symm.filterMap _))
      |>.trans (draft_appIds rule app context ip boot).symm
  have data : f.providerData = app.tag := effect.tag.symm
  constructor
  · show ((f.conditions.filterMap conditionAppId).getLast?).getD [] = app.appId
    rw [named]
    rfl
  · show taggedBy f.providerData = taggedBy app.tag
    rw [data]

/-- **The filters of an installation carry the identifiers and tags they were made of**, and every
one of those is carried. -/
theorem installed_filters {s t : Store} {apps : List AppEntry} {ip : UInt32}
    (installed : Installed s apps ip false t) :
    (∀ filter ∈ (t.owned false).filters, ∃ app ∈ apps, filter.appId = app.appId ∧
      (filter.tag, filter.path) = taggedBy app.tag) ∧
    ∀ app ∈ apps, ∃ filter ∈ (t.owned false).filters, filter.appId = app.appId ∧
      (filter.tag, filter.path) = taggedBy app.tag := by
  obtain ⟨missing, key, -, shape⟩ := installed
  have signatures := shape.filters.signatures.trans ((List.reverse_perm _).map _)
  have shown : ∀ filter, filter ∈ (t.owned false).filters ↔ ∃ id f, t.filters.lookup id = some f ∧
      filterVisible f = true ∧ ownedFilter id f = filter := by
    intro filter
    rw [(owned_filters_perm t).mem_iff, List.mem_map]
    constructor
    · rintro ⟨⟨id, f⟩, member, rfl⟩
      rw [List.mem_filter, mem_pairs] at member
      exact ⟨id, f, member.1, member.2, rfl⟩
    · rintro ⟨id, f, lookup, visible, rfl⟩
      exact ⟨(id, f), List.mem_filter.mpr ⟨mem_pairs.mpr lookup, visible⟩, rfl⟩
  constructor
  · intro filter member
    obtain ⟨id, f, lookup, visible, rfl⟩ := (shown filter).mp member
    have inSignatures : filterSignature f ∈ (forEachFilter apps key ip true).map filterSignature :=
      signatures.subset (List.mem_map_of_mem (mem_values.mpr ⟨id, lookup, visible⟩))
    obtain ⟨draft, inDrafts, same⟩ := List.mem_map.mp inSignatures
    obtain ⟨app, inApps, rule, -, boot, rfl, -⟩ := mem_forEachFilter inDrafts
    exact ⟨app, inApps, ownedFilter_of_effect (signature_eq same) id⟩
  · intro app inApps
    have inDrafts : draftFilter ⟨kLayerBindV4, FWP_ACTION_CALLOUT_TERMINATING, some kCalloutBind,
      false, false⟩
        app key ip false ∈ forEachFilter apps key ip true := by
      refine List.mem_flatMap.mpr ⟨app, inApps, List.mem_flatMap.mpr ⟨_, List.mem_cons_self, ?_⟩⟩
      exact List.mem_cons_self
    have inValues := signatures.symm.subset (List.mem_map_of_mem inDrafts)
    obtain ⟨f, inside, same⟩ := List.mem_map.mp inValues
    obtain ⟨id, lookup, visible⟩ := mem_values.mp inside
    exact ⟨ownedFilter id f, (shown _).mpr ⟨id, f, lookup, visible, rfl⟩,
      ownedFilter_of_effect (signature_eq same.symm) id⟩

/-! ## What is retained -/

/-- **An entry that no longer resolves gets its identifiers back, in order**: the filters carry them
with their path, and the record adds no others. -/
theorem retained_eq {previous : Identities} {filters : List OwnedFilter} {entry path : WString}
    {ids : List Bytes} (isPath : path ≠ []) (nodup : ids.Nodup) (isSome : ids ≠ [])
    (nonempty : ∀ id ∈ ids, id ≠ [])
    (carried : ∀ filter ∈ filters, filter.tag = entry → filter.path = path ∧ filter.appId ∈ ids)
    (all : ∀ id ∈ ids, ∃ filter ∈ filters, filter.tag = entry ∧ filter.appId = id)
    (recorded : ∀ identity, previous.find entry = some identity → ∀ group ∈ identity.groups,
      ∀ id ∈ group.ids, id ∈ ids) :
    retainedIdentity (gather previous filters entry) = ⟨.retained, path, sortIds ids, []⟩ := by
  have gathers := gathers_gather previous filters entry
  have onPath : ∀ id own, (own, id) ∈ filterPairs filters entry → own = path ∧ id ∈ ids := by
    intro id own member
    obtain ⟨filter, inFilters, isTagged, rfl, rfl⟩ := mem_filterPairs.mp member
    exact carried filter inFilters isTagged
  have isAssigned : ∀ id, assigned (allPairs previous filters entry) id = if id ∈ ids then some path
      else none := by
    intro id
    split
    next isId =>
      obtain ⟨filter, inFilters, isTagged, rfl⟩ := all id isId
      have member := mem_filterPairs.mpr ⟨filter, inFilters, isTagged,
        (carried filter inFilters isTagged).1, rfl⟩
      rw [allPairs, assigned_append,
        assigned_of_only (nonempty _ isId) member fun other inPairs => (onPath _ other inPairs).1]
      rfl
    next isOther =>
      refine assigned_none fun own member => isOther ?_
      rcases List.mem_append.mp member with inFilters | inRecord
      · exact (onPath id own inFilters).2
      · obtain ⟨group, inGroups, inPairs⟩ := List.mem_flatMap.mp inRecord
        obtain ⟨identity, isFound, inIdentity⟩ := List.mem_flatMap.mp inGroups
        obtain ⟨_, inIds, ⟨⟩⟩ := List.mem_map.mp inPairs
        exact recorded identity (Option.mem_toList.mp isFound) group inIdentity id inIds
  have some : sortIds ids ≠ [] := sortIds_ne_nil isSome
  refine canonical_ext (canonical_retained gathers) ⟨List.pairwise_singleton _ _,
    List.forall_mem_singleton.mpr
    ⟨sortIds_sorted _, sortIds_nodup nodup⟩, nofun, (if_neg some).symm,
    fun empty => absurd empty some⟩ fun own id => ?_
  rw [located_retained gathers]
  simp [isAssigned, Located, ResolvedIdentity.groups, mem_sortIds, settledPath, isPath, eq_comm, and_comm]

/-! ## Two runs -/

variable (downcase : Bytes → Option Bytes)

theorem fullyLowered_length (id : Bytes) :
    (fullyLowered downcase id).length = id.length := by
  unfold fullyLowered
  split
  next => rfl
  next long =>
    split
    next => rfl
    next =>
      split
      next same =>
        rw [List.length_append, List.length_drop, same]
        omega
      next => rfl

theorem fullyLowered_ne_nil {downcase : Bytes → Option Bytes} {id : Bytes} (nonempty : id ≠ []) :
    fullyLowered downcase id ≠ [] := by
  intro empty
  have length := fullyLowered_length downcase id
  rw [empty] at length
  exact nonempty (List.length_eq_zero_iff.mp length.symm)

theorem idsOf_ne_nil (id : Bytes) : idsOf downcase id ≠ [] := by
  unfold idsOf
  split <;> simp

theorem idsOf_nodup (id : Bytes) : (idsOf downcase id).Nodup := by
  unfold idsOf
  split
  next different => simpa using different
  next => simp

theorem mem_idsOf_ne_nil {downcase : Bytes → Option Bytes} {id : Bytes} (nonempty : id ≠ []) :
    ∀ other ∈ idsOf downcase id, other ≠ [] := by
  intro other member
  unfold idsOf at member
  split at member
  next =>
    rcases List.mem_cons.mp member with rfl | isId
    · exact fullyLowered_ne_nil nonempty
    · rw [List.mem_singleton.mp isId]
      exact nonempty
  next =>
    rw [List.mem_singleton.mp member]
    exact nonempty

/-- The two identifiers are in order exactly if the lowered one does not stand behind. -/
theorem sortIds_idsOf (id : Bytes) :
    sortIds (idsOf downcase id) = idsOf downcase id ↔ fullyLowered downcase id ≤ id := by
  unfold idsOf sortIds
  by_cases same : fullyLowered downcase id = id
  · rw [if_neg (not_not.mpr same), same]
    exact iff_of_true rfl (List.le_refl id)
  · rw [if_pos same]
    simp only [List.insertionSort_cons, List.insertionSort_nil, List.orderedInsert_nil,
      List.orderedInsert_cons]
    split
    next le => exact iff_of_true rfl le
    next notLe =>
      refine iff_of_false (fun equal => same ?_) notLe
      exact (List.cons.inj equal).1.symm

theorem appIdFromNtPath_ne_nil (ntPath : WString) : appIdFromNtPath ntPath ≠ [] := by
  simp [appIdFromNtPath]

/-- The identifier of a present file is the one derived from its NT path. -/
def Machine.IdsAgree (machine : Machine) (listed : List WString) : Prop :=
  ∀ entry ∈ listed, machine.Resolves entry → machine.presentId (machine.resolve entry).1 = [] ∨
    machine.presentId (machine.resolve entry).1 = appIdFromNtPath (machine.resolve entry).2

/-- The entry has the same final paths on both machines, up to the case of ASCII letters. -/
def SameFinal (first second : Machine) (entry : WString) : Prop :=
  lower (second.resolve entry).1 = lower (first.resolve entry).1 ∧
    lower (second.resolve entry).2 = lower (first.resolve entry).2

/-- The identifier of an entry, from its NT path. -/
def Machine.appId (machine : Machine) (entry : WString) : Bytes :=
  appIdFromNtPath (machine.resolve entry).2

/-- The row of an entry that resolves. -/
def Machine.row (machine : Machine) (entry : WString) : Row :=
  ⟨entry, lower (machine.resolve entry).1, idsOf machine.downcase (machine.appId entry)⟩

/-- An identity with one path and the identifiers of a row. -/
def Row.Of (row : Row) (identity : ResolvedIdentity) : Prop :=
  identity.path = row.path ∧ identity.ids = row.ids ∧ identity.others = []

theorem resolvedIdentity_row {machine : Machine} {listed : List WString}
    (agree : machine.IdsAgree listed) (member : entry ∈ listed) (resolves : machine.Resolves entry) :
    (machine.row entry).Of (resolvedIdentity machine entry) := by
  have isId : (if machine.presentId (machine.resolve entry).1 = [] then
      appIdFromNtPath (machine.resolve entry).2 else machine.presentId (machine.resolve entry).1) =
        machine.appId entry := by
    rcases agree entry member resolves with absent | present
    · rw [if_pos absent]
      rfl
    · rw [if_neg (present ▸ appIdFromNtPath_ne_nil _), present]
      rfl
  refine ⟨rfl, ?_, rfl⟩
  show idsOf machine.downcase _ = idsOf machine.downcase _
  rw [isId]

theorem row_writable {machine : Machine} (isEntry : Entry entry) (tabFree : 9 ∉ entry)
    (resolves : machine.Resolves entry) : (machine.row entry).Writable where
  entry := isEntry.nonempty
  entryPlain := ⟨tabFree, isEntry.oneLine⟩
  path := by
    have isPath := resolves.1
    simpa [Machine.row, lower] using isPath
  pathPlain := (resolvePath_plain machine.fs .dos ⟨tabFree, isEntry.oneLine⟩).lower
  ids := idsOf_ne_nil _ _
  idNonempty := mem_idsOf_ne_nil (appIdFromNtPath_ne_nil _)

/-- The bytes of a record whose entries have one row each. -/
theorem serialize_rows (entries : List WString) (identity : WString → ResolvedIdentity)
    (row : WString → Row) (named : ∀ entry ∈ entries, (row entry).entry = entry)
    (ofRow : ∀ entry ∈ entries, (row entry).Of (identity entry))
    (isSome : ∀ entry ∈ entries, (row entry).ids ≠ []) :
    serializeIdentities (entries.map fun entry => (entry, identity entry)) =
      kIdentityHeader ++ ((entries.map row).map Row.line).flatMap fun line => line ++ [10] := by
  unfold serializeIdentities
  congr 1
  rw [List.flatMap_map, List.flatMap_map, List.flatMap_map]
  refine List.flatMap_congr fun entry member => ?_
  obtain ⟨path, ids, others⟩ := ofRow entry member
  have some : (identity entry).ids ≠ [] := ids ▸ isSome entry member
  dsimp only
  rw [if_neg some, ResolvedIdentity.groups, path, ids, others]
  simp [recordLine, Row.line, named entry member]

/-- Texts of lines of the same lengths are the same exactly if the lines are. -/
theorem flatMap_inj_of_length {A : Type} {f g : A → Bytes} :
    ∀ (list : List A), (∀ a ∈ list, (f a).length = (g a).length) →
      (list.flatMap f = list.flatMap g ↔ ∀ a ∈ list, f a = g a)
  | [], _ => by simp
  | a :: rest, lengths => by
    have tails := flatMap_inj_of_length rest fun b member => lengths b (List.mem_cons_of_mem _ member)
    rw [List.flatMap_cons, List.flatMap_cons, List.forall_mem_cons, ← tails]
    constructor
    · exact fun same => List.append_inj same (lengths a List.mem_cons_self)
    · rintro ⟨first, others⟩
      rw [first, others]

theorem sortEntries_eq_of_perm {listed listed' : List WString} (perm : listed.Perm listed') :
    listed.insertionSort (· ≤ ·) = listed'.insertionSort (· ≤ ·) :=
  Lib.Digits.insertionSort_eq_of_perm (fun _ _ => List.le_antisymm) perm

section TwoRuns

variable {listed : List WString} {first second : Machine} {previous : Identities} {before current : Owned}

/-- What is assumed of the listed entries and the two machines: every entry resolves at first, and
one that resolves again has the same final paths. -/
structure Setting (listed : List WString) (first second : Machine) : Prop where
  entries : ∀ entry ∈ listed, Entry entry
  tabFree : ∀ entry ∈ listed, 9 ∉ entry
  sameTable : second.downcase = first.downcase
  resolved : ∀ entry ∈ listed, first.Resolves entry
  agree : first.IdsAgree listed
  agree' : second.IdsAgree listed
  final : ∀ entry ∈ listed, second.Resolves entry → SameFinal first second entry

/-- The pairs that are given to the filters, when each entry has one row. -/
theorem appIds_rows (entries : List WString) (identity : WString → ResolvedIdentity)
    (row : WString → Row) (ofRow : ∀ entry ∈ entries, (row entry).Of (identity entry)) :
    appIds (entries.map fun entry => (entry, identity entry)) = entries.flatMap fun entry =>
      (row entry).ids.map fun id => ⟨id, memory (entry ++ 9 :: (row entry).path)⟩ := by
  unfold appIds
  rw [List.flatMap_map]
  refine List.flatMap_congr fun entry member => ?_
  obtain ⟨path, ids, others⟩ := ofRow entry member
  simp [ResolvedIdentity.groups, path, ids, others]

/-- The row of an entry after the second run: in order where it no longer resolves. -/
def secondRow (first second : Machine) (entry : WString) : Row :=
  if second.Resolves entry then first.row entry
  else { first.row entry with ids := sortIds (first.row entry).ids }

theorem secondRow_perm (first second : Machine) (entry : WString) :
    (secondRow first second entry).ids.Perm (first.row entry).ids ∧
      (secondRow first second entry).path = (first.row entry).path ∧
        (secondRow first second entry).entry = entry := by
  unfold secondRow
  split
  next => exact ⟨List.Perm.refl _, rfl, rfl⟩
  next => exact ⟨List.perm_insertionSort _ _, rfl, rfl⟩

theorem idsText_length_perm {ids ids' : List Bytes} (perm : ids.Perm ids') :
    (idsText ids).length = (idsText ids').length := by
  have length : ∀ list : List Bytes, (idsText list).length =
      (list.map fun id => (ascii (Lib.Digits.hexBytes id)).length).sum + (list.length - 1) := by
    intro list
    induction list with
    | nil => rfl
    | cons id list ih =>
      cases list with
      | nil => simp [idsText]
      | cons id' list =>
        have shape : idsText (id :: id' :: list) =
            ascii (Lib.Digits.hexBytes id) ++ [44] ++ idsText (id' :: list) := by
          simp [idsText, List.intercalate_cons_cons]
        rw [shape, List.length_append, List.length_append, ih]
        simp
        omega
  rw [length, length, (perm.map _).sum_eq, perm.length_eq]

theorem mem_sortEntries : entry ∈ listed.insertionSort (· ≤ ·) ↔ entry ∈ listed :=
  (List.perm_insertionSort (· ≤ ·) listed).mem_iff

theorem secondRow_line (first second : Machine) (entry : WString) :
    (secondRow first second entry).line = (first.row entry).line ↔
      (second.Resolves entry ∨ fullyLowered first.downcase (first.appId entry) ≤ first.appId entry) := by
  unfold secondRow
  split
  next resolves => exact iff_of_true rfl (.inl resolves)
  next unresolved =>
    rw [or_iff_right unresolved, ← sortIds_idsOf]
    constructor
    · intro same
      have texts := List.append_cancel_left same
      have behind := (List.cons.inj (List.append_cancel_left (List.cons.inj texts).2)).2
      refine idsText_inj (fun empty => ?_) (idsOf_ne_nil _ _) behind
      exact idsOf_ne_nil first.downcase (first.appId entry)
        (List.nil_perm.mp (empty ▸ List.perm_insertionSort (· ≤ ·) _))
    · intro sorted
      show Row.line { first.row entry with ids := sortIds (idsOf first.downcase (first.appId entry)) } = _
      rw [sorted]
      rfl

theorem secondRow_length (first second : Machine) (entry : WString) :
    (secondRow first second entry).line.length = (first.row entry).line.length := by
  obtain ⟨ids, path, named⟩ := secondRow_perm first second entry
  have names : (secondRow first second entry).entry = (first.row entry).entry := named
  simp only [Row.line, List.length_append, List.length_cons, names, path, idsText_length_perm ids]

variable (setting : Setting listed first second)

include setting

theorem first_identity (member : entry ∈ listed) :
    (first.row entry).Of (identify first previous before entry) := by
  have resolves := setting.resolved entry member
  rw [identify, if_pos resolves]
  exact resolvedIdentity_row setting.agree member resolves

theorem first_record :
    serializeIdentities (identifyApps first listed previous before) = kIdentityHeader ++
      (((listed.insertionSort (· ≤ ·)).map first.row).map Row.line).flatMap fun line => line ++ [10] :=
  serialize_rows _ _ first.row (fun _ _ => rfl)
    (fun _ member => first_identity setting (mem_sortEntries.mp member)) fun _ _ => idsOf_ne_nil _ _

/-- What the record of the first run holds for an entry are the entry's own identifiers. -/
theorem recorded_ids {identity : ResolvedIdentity}
    (found : (parseIdentities (serializeIdentities (identifyApps first listed previous before))).find
      entry = some identity) :
    ∀ group ∈ identity.groups, ∀ id ∈ group.ids, id ∈ (first.row entry).ids := by
  have writable : ∀ row ∈ (listed.insertionSort (· ≤ ·)).map first.row, row.Writable := by
    intro row inRows
    obtain ⟨entry, member, rfl⟩ := List.mem_map.mp inRows
    have inListed := mem_sortEntries.mp member
    exact row_writable (setting.entries entry inListed) (setting.tabFree entry inListed)
      (setting.resolved entry inListed)
  rw [first_record setting, parseIdentities_rows writable] at found
  intro group inGroups id inIds
  obtain ⟨row, inRows, named, inRow⟩ := find_addRows found group inGroups id inIds
  obtain ⟨written, inWritten, rfl⟩ := List.mem_map.mp inRows
  obtain ⟨entry', member, rfl⟩ := List.mem_map.mp inWritten
  have sameEntry : entry' = entry := by
    rw [← named]
    exact (wide_utf8 (setting.entries entry' (mem_sortEntries.mp member)).wellFormed).symm
  exact sameEntry ▸ inRow

variable {s t : Store} {ip : UInt32}
  (installed : Installed s (appIds (identifyApps first listed previous before)) ip false t)
  (enumerated : current.filters.Perm (t.owned false).filters)

include installed enumerated

/-- The filters tagged with an entry carry its path and its identifiers, all of them. -/
theorem entry_filters (member : entry ∈ listed) :
    (∀ filter ∈ current.filters, filter.tag = entry →
      filter.path = (first.row entry).path ∧ filter.appId ∈ (first.row entry).ids) ∧
    ∀ id ∈ (first.row entry).ids, ∃ filter ∈ current.filters, filter.tag = entry ∧ filter.appId = id := by
  have given : appIds (identifyApps first listed previous before) =
      (listed.insertionSort (· ≤ ·)).flatMap fun entry => (first.row entry).ids.map fun id =>
        ⟨id, memory (entry ++ 9 :: (first.row entry).path)⟩ :=
    appIds_rows _ _ first.row fun _ member => first_identity setting (mem_sortEntries.mp member)
  obtain ⟨carried, all⟩ := installed_filters installed
  rw [given] at carried all
  constructor
  · intro filter inFilters isTagged
    obtain ⟨app, inApps, appId, tagged⟩ := carried filter (enumerated.subset inFilters)
    obtain ⟨entry', inEntries, inPairs⟩ := List.mem_flatMap.mp inApps
    obtain ⟨id, inIds, rfl⟩ := List.mem_map.mp inPairs
    rw [taggedBy_memory (setting.tabFree entry' (mem_sortEntries.mp inEntries)), Prod.mk.injEq] at tagged
    obtain rfl : entry' = entry := tagged.1.symm.trans isTagged
    exact ⟨tagged.2, appId ▸ inIds⟩
  · intro id inIds
    obtain ⟨filter, inFilters, appId, tagged⟩ :=
      all ⟨id, memory (entry ++ 9 :: (first.row entry).path)⟩
        (List.mem_flatMap.mpr ⟨entry, mem_sortEntries.mpr member, List.mem_map_of_mem inIds⟩)
    rw [taggedBy_memory (setting.tabFree entry member), Prod.mk.injEq] at tagged
    exact ⟨filter, enumerated.symm.subset inFilters, tagged.1, appId⟩

theorem second_identity (member : entry ∈ listed) :
    (secondRow first second entry).Of (identify second
      (parseIdentities (serializeIdentities (identifyApps first listed previous before))) current entry) := by
  unfold identify secondRow
  split
  next resolves =>
    obtain ⟨path, ids, others⟩ := resolvedIdentity_row setting.agree' member resolves
    obtain ⟨samePath, sameNt⟩ := setting.final entry member resolves
    have sameId : second.appId entry = first.appId entry := by
      unfold Machine.appId appIdFromNtPath
      rw [sameNt]
    refine ⟨path.trans samePath, ids.trans ?_, others⟩
    show idsOf second.downcase (second.appId entry) = idsOf first.downcase (first.appId entry)
    rw [setting.sameTable, sameId]
  next =>
    obtain ⟨carried, all⟩ := entry_filters setting installed enumerated member
    have writable := row_writable (setting.entries entry member) (setting.tabFree entry member)
      (setting.resolved entry member)
    rw [retained_eq writable.path (idsOf_nodup _ _) writable.ids writable.idNonempty carried all
      fun identity found => recorded_ids setting found]
    exact ⟨rfl, rfl, rfl⟩

/-- The second run writes the same bytes exactly if every unresolved entry's identifiers were in
order. -/
theorem second_record_iff {listed' : List WString} (order : listed'.Perm listed) :
    serializeIdentities (identifyApps second listed'
        (parseIdentities (serializeIdentities (identifyApps first listed previous before))) current) =
      serializeIdentities (identifyApps first listed previous before) ↔
        ∀ entry ∈ listed, ¬ second.Resolves entry →
          fullyLowered first.downcase (first.appId entry) ≤ first.appId entry := by
  have written : serializeIdentities (identifyApps second listed'
      (parseIdentities (serializeIdentities (identifyApps first listed previous before))) current) =
        kIdentityHeader ++ (((listed.insertionSort (· ≤ ·)).map (secondRow first second)).map
          Row.line).flatMap fun line => line ++ [10] := by
    rw [identifyApps, sortEntries_eq_of_perm order]
    refine serialize_rows _ _ (secondRow first second)
      (fun entry _ => (secondRow_perm first second entry).2.2)
      (fun _ member => second_identity setting installed enumerated (mem_sortEntries.mp member)) ?_
    intro entry _ empty
    have perm := (secondRow_perm first second entry).1
    rw [empty, List.nil_perm] at perm
    exact idsOf_ne_nil _ _ perm
  rw [written, first_record setting, List.append_cancel_left_eq]
  simp only [List.flatMap_map]
  rw [flatMap_inj_of_length]
  · constructor
    · intro same entry member unresolved
      have line := List.append_cancel_right (same entry (mem_sortEntries.mpr member))
      exact ((secondRow_line first second entry).mp line).resolve_left unresolved
    · intro ordered entry member
      rw [(secondRow_line first second entry).mpr]
      by_cases resolves : second.Resolves entry
      · exact .inl resolves
      · exact .inr (ordered entry (mem_sortEntries.mp member) resolves)
  · intro entry _
    rw [List.length_append, List.length_append, secondRow_length]

theorem second_appIds_perm {listed' : List WString} (order : listed'.Perm listed) :
    (appIds (identifyApps second listed'
        (parseIdentities (serializeIdentities (identifyApps first listed previous before))) current)).Perm
      (appIds (identifyApps first listed previous before)) := by
  have secondPairs := appIds_rows (listed.insertionSort (· ≤ ·)) (identify second
    (parseIdentities (serializeIdentities (identifyApps first listed previous before))) current)
    (secondRow first second) fun _ member =>
      second_identity setting installed enumerated (mem_sortEntries.mp member)
  have firstPairs := appIds_rows (listed.insertionSort (· ≤ ·)) (identify first previous before) first.row
    fun _ member => first_identity setting (mem_sortEntries.mp member)
  unfold identifyApps at secondPairs firstPairs ⊢
  rw [sortEntries_eq_of_perm order, secondPairs, firstPairs]
  refine List.Perm.flatMap_left _ fun entry _ => ?_
  obtain ⟨ids, path, -⟩ := secondRow_perm first second entry
  rw [path]
  exact ids.map _

end TwoRuns

/-- **An executable's coming and going changes the record exactly where identifiers were not in
order.**  For every loaded list in which an entry with a tab names no stream and holds no NUL, every
file system in which all entries resolved at first and some no longer do, every installation that
finished, and every order in which the entries are visited and the filters enumerated. -/
theorem record_kept_iff {bytes : Bytes} {listed₀ listed listed' : List WString}
    (loaded : loadIncludedPaths bytes = .ok listed₀) (order : listed.Perm listed₀)
    (order' : listed'.Perm listed₀) (tabs : ∀ entry ∈ listed₀, 9 ∈ entry → 0 ∉ entry ∧ 58 ∉ entry.drop 2)
    {first second : Machine}
    (sameTable : second.downcase = first.downcase) (resolved : ∀ entry ∈ listed₀, first.Resolves entry)
    (agree : first.IdsAgree listed₀) (agree' : second.IdsAgree listed₀)
    (final : ∀ entry ∈ listed₀, second.Resolves entry → SameFinal first second entry)
    {previous : Identities} {before current : Owned} {s t : Store} {ip : UInt32} {answers : List Answer}
    (finished : (install (appIds (identifyApps first listed previous before)) ip ⟨s, none⟩ answers).1 =
      .ok ())
    (left : (install (appIds (identifyApps first listed previous before)) ip ⟨s, none⟩ answers).2.1.store = t)
    (enumerated : current.filters.Perm (t.owned false).filters) :
    let identified := identifyApps first listed previous before
    let again := identifyApps second listed' (parseIdentities (serializeIdentities identified)) current
    (serializeIdentities again = serializeIdentities identified ↔
      ∀ entry ∈ listed₀, ¬ second.Resolves entry →
        fullyLowered first.downcase (first.appId entry) ≤ first.appId entry) ∧
      (appIds again).Perm (appIds identified) := by
  have inListed : ∀ entry, entry ∈ listed ↔ entry ∈ listed₀ := fun _ => order.mem_iff
  have setting : Setting listed first second :=
    { entries := fun entry member => (listed_entry loaded).2 entry ((inListed entry).mp member)
      tabFree := fun entry member => (resolved entry ((inListed entry).mp member)).tabFree
        (tabs entry ((inListed entry).mp member))
      sameTable
      resolved := fun entry member => resolved entry ((inListed entry).mp member)
      agree := fun entry member => agree entry ((inListed entry).mp member)
      agree' := fun entry member => agree' entry ((inListed entry).mp member)
      final := fun entry member => final entry ((inListed entry).mp member) }
  have installed := left ▸ installed_of_finished finished
  have sameEntries : listed'.Perm listed := order'.trans order.symm
  intro identified again
  refine ⟨?_, second_appIds_perm setting installed enumerated sameEntries⟩
  rw [second_record_iff setting installed enumerated sameEntries]
  simp only [inListed]

/-! ## Poles -/

/-- A drive on which every name without a tab is present. -/
def presentDrive (name : WString) (plain : 9 ∉ name ∧ 10 ∉ name) : FileSystem where
  attributes w := if 9 ∈ w then .refused else .present
  finalName
    | .dos, _ => name
    | .nt, _ => 92 :: name
  tab _ tab _ := if_pos tab
  plain format _ := by
    cases format with
    | dos => exact plain
    | nt =>
      refine ⟨fun inside => ?_, fun inside => ?_⟩
      · rcases List.mem_cons.mp inside with slash | inName
        · exact absurd slash (by decide)
        · exact plain.1 inName
      · rcases List.mem_cons.mp inside with slash | inName
        · exact absurd slash (by decide)
        · exact plain.2 inName

/-- The drive is gone. -/
def missingDrive : FileSystem where
  attributes _ := .refused
  finalName _ _ := []
  plain _ _ := by simp
  tab _ _ _ := rfl

/-- The case table, at one letter. -/
def lowerE (bytes : Bytes) : Option Bytes :=
  some (memory ((units bytes).map fun u => if u = 0xC9 then 0xE9 else u))

def machineWith (fs : FileSystem) : Machine :=
  ⟨fs, fun _ => [], lowerE⟩

/-- An engine that refuses nothing in a longer run. -/
def patient : List Answer :=
  (List.range 100).map fun n => ⟨none, n.toUInt64, { Guid.zero with data1 := n.toUInt32 }, Guid.zero⟩

def noneOwned : Owned :=
  ⟨none, [], [], [], []⟩

/-- `c:\É` -/
def upperEntry : WString := [99, 58, 92, 0xC9]

/-- `c:\e` -/
def plainEntry : WString := [99, 58, 92, 101]

def upperBefore : Machine := machineWith (presentDrive upperEntry (by decide))

def plainBefore : Machine := machineWith (presentDrive plainEntry (by decide))

def after : Machine := machineWith missingDrive

theorem after_unresolved (entry : WString) : ¬ after.Resolves entry := by
  have gone : (after.resolve entry).1 = [] := by
    show resolveFrom missingDrive .dos (entry.length + 1) entry [] = []
    unfold resolveFrom
    split <;> rfl
  exact fun resolves => resolves.1 gone

theorem after_agree (listed : List WString) : after.IdsAgree listed :=
  fun _ _ _ => .inl rfl

def plainIdentified : Identities :=
  identifyApps plainBefore [plainEntry] [] noneOwned

def plainStore : Store :=
  (install (appIds plainIdentified) 0x0a000002 ⟨emptyStore, none⟩ patient).2.1.store

theorem plain_install : (install (appIds (identifyApps plainBefore [plainEntry] [] noneOwned)) 0x0a000002
    ⟨emptyStore, none⟩ patient).1 = .ok () := by
  decide +kernel

theorem plain_left : (install (appIds (identifyApps plainBefore [plainEntry] [] noneOwned)) 0x0a000002
    ⟨emptyStore, none⟩ patient).2.1.store = plainStore := by
  rw [plainStore, plainIdentified]

/-- An ASCII name keeps its record while its drive is gone. -/
theorem record_kept_plain :
    serializeIdentities (identifyApps after [plainEntry] (parseIdentities (serializeIdentities
        plainIdentified)) (plainStore.owned false)) = serializeIdentities plainIdentified ∧
      (appIds (identifyApps after [plainEntry] (parseIdentities (serializeIdentities plainIdentified))
        (plainStore.owned false))).Perm (appIds plainIdentified) := by
  have loaded : loadIncludedPaths [99, 58, 92, 101] = .ok [plainEntry] := by decide
  have tabs : ∀ entry ∈ [plainEntry], 9 ∈ entry → 0 ∉ entry ∧ 58 ∉ entry.drop 2 := by decide
  have sameTable : after.downcase = plainBefore.downcase := rfl
  have resolved : ∀ entry ∈ [plainEntry], plainBefore.Resolves entry := by decide
  have agree : plainBefore.IdsAgree [plainEntry] := fun _ _ _ => .inl rfl
  have final : ∀ entry ∈ [plainEntry], after.Resolves entry → SameFinal plainBefore after entry :=
    fun entry _ resolves => absurd resolves (after_unresolved entry)
  have enumerated : (plainStore.owned false).filters.Perm (plainStore.owned false).filters :=
    List.Perm.refl _
  have kept := record_kept_iff loaded (List.Perm.refl _) (List.Perm.refl _) tabs sameTable resolved
    agree (after_agree _) final plain_install plain_left enumerated
  refine ⟨kept.1.mpr ?_, kept.2⟩
  intro entry member _
  rw [List.mem_singleton.mp member]
  decide

def upperIdentified : Identities :=
  identifyApps upperBefore [upperEntry] [] noneOwned

def upperStore : Store :=
  (install (appIds upperIdentified) 0x0a000002 ⟨emptyStore, none⟩ patient).2.1.store

theorem upper_loaded : loadIncludedPaths [99, 58, 92, 0xC3, 0x89] = .ok [upperEntry] := by
  decide

theorem upper_install :
    (install (appIds upperIdentified) 0x0a000002 ⟨emptyStore, none⟩ patient).1 = .ok () := by
  decide +kernel

theorem upper_installed : Installed emptyStore (appIds upperIdentified) 0x0a000002 false upperStore := by
  have installed := installed_of_finished upper_install
  exact installed

theorem upper_setting : Setting [upperEntry] upperBefore after where
  entries := (listed_entry upper_loaded).2
  tabFree := by decide
  sameTable := rfl
  resolved := by decide
  agree _ _ _ := .inl rfl
  agree' := after_agree _
  final entry _ resolves := absurd resolves (after_unresolved entry)

/-- **An upper-case letter outside ASCII changes the record**: `c:\É` is installed while it resolves,
and once its drive is gone the two identifiers are written in the other order. -/
theorem upper_letter_reordered :
    loadIncludedPaths [99, 58, 92, 0xC3, 0x89] = .ok [upperEntry] ∧ upperBefore.Resolves upperEntry ∧
      (install (appIds upperIdentified) 0x0a000002 ⟨emptyStore, none⟩ patient).1 = .ok () ∧
        serializeIdentities (identifyApps after [upperEntry] (parseIdentities (serializeIdentities
          upperIdentified)) (upperStore.owned false)) ≠ serializeIdentities upperIdentified := by
  have enumerated : (upperStore.owned false).filters.Perm (upperStore.owned false).filters :=
    List.Perm.refl _
  have installed := upper_installed
  have ordered := second_record_iff upper_setting installed enumerated (List.Perm.refl _)
  refine ⟨upper_loaded, by decide, upper_install, fun same => ?_⟩
  have inOrder := ordered.mp same upperEntry List.mem_cons_self (after_unresolved upperEntry)
  revert inOrder
  decide

end ProgramSplit.Windows.Wfp
