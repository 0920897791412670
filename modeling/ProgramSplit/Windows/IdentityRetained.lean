/-
# Windows.IdentityRetained — what an unresolved entry keeps

An entry that does not resolve gathers pairs of a path and an identifier, first those of the filters
tagged with it in the order they are enumerated, then those of the record.  Each identifier stays
with the first path it comes with.

* `assigned` — that first path.
* `Gathers` — the groups are the identifiers by their assigned path, in order.
* `Located` — where an identifier ends up; those without a path join the least one.
* `Canonical` — an identity in order is known by where its identifiers are.
-/
import ProgramSplit.Windows.Identity

namespace ProgramSplit.Windows.Wfp

set_option autoImplicit false

/-! ## The first path of an identifier -/

/-- The pairs of a path and an identifier that the filters tagged with an entry carry. -/
def filterPairs (filters : List OwnedFilter) (entry : WString) : List (WString × Bytes) :=
  (filters.filter fun filter => filter.tag == entry).map fun filter => (filter.path, filter.appId)

theorem mem_filterPairs {filters : List OwnedFilter} {entry path : WString} {id : Bytes} :
    (path, id) ∈ filterPairs filters entry ↔
      ∃ filter ∈ filters, filter.tag = entry ∧ filter.path = path ∧ filter.appId = id := by
  unfold filterPairs
  rw [List.mem_map]
  constructor
  · rintro ⟨filter, member, same⟩
    obtain ⟨inFilters, isTagged⟩ := List.mem_filter.mp member
    cases same
    exact ⟨filter, inFilters, eq_of_beq isTagged, rfl, rfl⟩
  · rintro ⟨filter, inFilters, isTagged, rfl, rfl⟩
    exact ⟨filter, List.mem_filter.mpr ⟨inFilters, by simpa using isTagged⟩, rfl⟩

/-- The pairs recorded for an entry. -/
def recordPairs (previous : Identities) (entry : WString) : List (WString × Bytes) :=
  ((previous.find entry).toList.flatMap ResolvedIdentity.groups).flatMap fun group =>
    group.ids.map fun id => (group.path, id)

/-- The path an identifier first comes with; an empty identifier is none. -/
def assigned (pairs : List (WString × Bytes)) (id : Bytes) : Option WString :=
  if id = [] then none else (pairs.find? fun pair => pair.2 == id).map (·.1)

theorem assigned_append (pairs more : List (WString × Bytes)) (id : Bytes) :
    assigned (pairs ++ more) id = (assigned pairs id).or (assigned more id) := by
  unfold assigned
  split
  · rfl
  · rw [List.find?_append, Option.map_or]

theorem assigned_singleton (path : WString) (id other : Bytes) :
    assigned [(path, id)] other = if other ≠ [] ∧ id = other then some path else none := by
  unfold assigned
  by_cases empty : other = []
  · simp [empty]
  · by_cases same : id = other <;> simp [empty, same]

variable {pairs : List (WString × Bytes)} {id : Bytes} {path : WString}

theorem assigned_mem
    (isAssigned : assigned pairs id = some path) : id ≠ [] ∧ (path, id) ∈ pairs := by
  unfold assigned at isAssigned
  split at isAssigned
  · cases isAssigned
  next nonempty =>
    obtain ⟨pair, found, rfl⟩ := Option.map_eq_some_iff.mp isAssigned
    have isId : pair.2 = id := by simpa using List.find?_some found
    exact ⟨nonempty, isId ▸ List.mem_of_find?_eq_some found⟩

theorem assigned_isSome :
    (assigned pairs id).isSome ↔ id ≠ [] ∧ ∃ path, (path, id) ∈ pairs := by
  constructor
  · intro present
    obtain ⟨path, isAssigned⟩ := Option.isSome_iff_exists.mp present
    exact ⟨(assigned_mem isAssigned).1, path, (assigned_mem isAssigned).2⟩
  · rintro ⟨nonempty, path, member⟩
    rw [assigned, if_neg nonempty, Option.isSome_map, List.find?_isSome]
    exact ⟨(path, id), member, by simp⟩

theorem assigned_none (absent : ∀ path, (path, id) ∉ pairs) :
    assigned pairs id = none := by
  by_contra present
  obtain ⟨-, path, member⟩ := assigned_isSome.mp (Option.isSome_iff_ne_none.mpr present)
  exact absent path member

/-- An identifier that comes with one path only is assigned it. -/
theorem assigned_of_only (nonempty : id ≠ [])
    (member : (path, id) ∈ pairs) (only : ∀ other, (other, id) ∈ pairs → other = path) :
    assigned pairs id = some path := by
  obtain ⟨other, isAssigned⟩ := Option.isSome_iff_exists.mp (assigned_isSome.mpr ⟨nonempty, path, member⟩)
  rw [isAssigned, only other (assigned_mem isAssigned).2]

/-! ## Groups -/

/-- The keys of the map are in order. -/
def KeysSorted (groups : List (WString × List Bytes)) : Prop :=
  groups.Pairwise fun a b => a.1 < b.1

/-- What holds of a new group, of a group that the identifier joins and of the others. -/
theorem forall_pushGroup {P : WString × List Bytes → Prop} {groups : List (WString × List Bytes)}
    (new : P (path, [id])) (joined : ∀ ids, (path, ids) ∈ groups → P (path, ids ++ [id]))
    (all : ∀ group ∈ groups, P group) : ∀ group ∈ pushGroup path id groups, P group := by
  induction groups with
  | nil => exact List.forall_mem_singleton.mpr new
  | cons head rest ih =>
    obtain ⟨key, ids⟩ := head
    obtain ⟨atHead, atRest⟩ := List.forall_mem_cons.mp all
    unfold pushGroup
    split_ifs with same
    · subst same
      exact List.forall_mem_cons.mpr ⟨joined ids List.mem_cons_self, atRest⟩
    · exact List.forall_mem_cons.mpr ⟨new, all⟩
    · refine List.forall_mem_cons.mpr ⟨atHead, ih (fun ids member => ?_) atRest⟩
      exact joined ids (List.mem_cons_of_mem _ member)

theorem keysSorted_pushGroup {groups : List (WString × List Bytes)}
    (sorted : KeysSorted groups) : KeysSorted (pushGroup path id groups) := by
  induction groups with
  | nil => exact List.pairwise_singleton _ _
  | cons head rest ih =>
    obtain ⟨key, ids⟩ := head
    obtain ⟨first, others⟩ := List.pairwise_cons.mp sorted
    unfold pushGroup
    split_ifs with same before
    · exact List.pairwise_cons.mpr ⟨first, others⟩
    · refine List.pairwise_cons.mpr ⟨List.forall_mem_cons.mpr ⟨before, fun group member => ?_⟩, sorted⟩
      exact List.lt_trans before (first group member)
    · have after : key < path := Std.lt_of_le_of_ne before (Ne.symm same)
      exact List.pairwise_cons.mpr ⟨forall_pushGroup after (fun _ _ => after) first, ih others⟩

/-- The identifier is in the group of the path. -/
def Holds (groups : List (WString × List Bytes)) (path : WString) (id : Bytes) : Prop :=
  ∃ ids, (path, ids) ∈ groups ∧ id ∈ ids

theorem holds_pushGroup {groups : List (WString × List Bytes)} {key : WString} {other : Bytes} :
    Holds (pushGroup path id groups) key other ↔ key = path ∧ other = id ∨ Holds groups key other := by
  unfold Holds
  induction groups with
  | nil => simp [pushGroup]
  | cons head rest ih =>
    unfold pushGroup
    split_ifs <;> grind

/-! ## What is gathered -/

/-- Identifiers by their assigned path. -/
structure Gathers (pairs : List (WString × Bytes)) (gathered : Gathered) : Prop where
  sorted : KeysSorted gathered.groups
  groups : ∀ group ∈ gathered.groups, group.2 ≠ [] ∧ group.2.Nodup
  holds : ∀ path id, Holds gathered.groups path id ↔ path ≠ [] ∧ assigned pairs id = some path
  pathless : gathered.pathless.Nodup ∧ ∀ id, id ∈ gathered.pathless ↔ assigned pairs id = some []
  seen : ∀ id, id ∈ gathered.seen ↔ (assigned pairs id).isSome

theorem gathers_nil : Gathers [] ⟨[], [], []⟩ where
  sorted := List.Pairwise.nil
  groups _ member := by cases member
  holds path id := by simp [Holds, assigned]
  pathless := ⟨List.nodup_nil, fun id => by simp [assigned]⟩
  seen id := by simp [assigned]

/-- An identifier that is seen for the first time gets its path, and the others keep theirs. -/
theorem assigned_concat (nonempty : id ≠ [])
    (fresh : assigned pairs id = none) (other : Bytes) :
    assigned (pairs ++ [(path, id)]) other = if other = id then some path else assigned pairs other := by
  rw [assigned_append, assigned_singleton]
  by_cases same : other = id
  · subst same
    rw [fresh, if_pos ⟨nonempty, rfl⟩, if_pos rfl]
    rfl
  · rw [if_neg fun both => same both.2.symm, if_neg same, Option.or_none]

variable {gathered : Gathered}

theorem Gathers.add (gathers : Gathers pairs gathered)
    (path : WString) (id : Bytes) : Gathers (pairs ++ [(path, id)]) (gathered.add path id) := by
  unfold Gathered.add
  split
  next known =>
    -- nothing is assigned anew
    have same : ∀ other, assigned (pairs ++ [(path, id)]) other = assigned pairs other := by
      intro other
      rw [assigned_append, assigned_singleton]
      split
      next isNew =>
        obtain ⟨nonempty, rfl⟩ := isNew
        obtain ⟨old, isOld⟩ := Option.isSome_iff_exists.mp
          ((gathers.seen id).mp (known.resolve_left nonempty))
        rw [isOld]
        rfl
      next => exact Option.or_none
    exact ⟨gathers.sorted, gathers.groups, by simpa only [same] using gathers.holds,
      by simpa only [same] using gathers.pathless, by simpa only [same] using gathers.seen⟩
  next fresh =>
    obtain ⟨nonempty, unseen⟩ := not_or.mp fresh
    have unassigned : assigned pairs id = none := by
      rw [← Option.not_isSome_iff_eq_none, ← gathers.seen]
      exact unseen
    have next : ∀ other, assigned (pairs ++ [(path, id)]) other = _ := assigned_concat nonempty unassigned
    have seen : ∀ other, other ∈ id :: gathered.seen ↔ (assigned (pairs ++ [(path, id)]) other).isSome := by
      intro other
      rw [next, List.mem_cons, gathers.seen]
      by_cases same : other = id <;> simp [same]
    have joins : ∀ {ids : List Bytes}, ids.Nodup → id ∉ ids → (ids ++ [id]).Nodup := by
      intro ids nodup absent
      rw [(List.perm_append_singleton _ _).nodup_iff]
      exact List.nodup_cons.mpr ⟨absent, nodup⟩
    split
    next isEmpty =>
      refine ⟨gathers.sorted, gathers.groups, fun key other => ?_,
        ⟨joins gathers.pathless.1 ?_, fun other => ?_⟩, seen⟩
      · rw [gathers.holds, next]
        grind
      · simp [gathers.pathless.2, unassigned]
      · rw [List.mem_append, List.mem_singleton, gathers.pathless.2, next]
        grind
    next isPath =>
      refine ⟨keysSorted_pushGroup gathers.sorted, ?_, fun key other => ?_,
        ⟨gathers.pathless.1, fun other => ?_⟩, seen⟩
      · refine forall_pushGroup (by simp) (fun ids member => ⟨by simp, ?_⟩) gathers.groups
        refine joins (gathers.groups _ member).2 fun inIds => ?_
        have assignedPath := ((gathers.holds path id).mp ⟨ids, member, inIds⟩).2
        rw [unassigned] at assignedPath
        cases assignedPath
      · rw [holds_pushGroup, gathers.holds, next]
        grind
      · rw [gathers.pathless.2, next]
        grind

theorem gathers_foldl (more : List (WString × Bytes)) :
    ∀ (pairs : List (WString × Bytes)) (gathered : Gathered), Gathers pairs gathered →
      Gathers (pairs ++ more) (more.foldl (fun gathered pair => gathered.add pair.1 pair.2) gathered) := by
  induction more with
  | nil =>
    intro pairs gathered gathers
    rw [List.append_nil]
    exact gathers
  | cons pair more ih =>
    intro pairs gathered gathers
    have rest := ih (pairs ++ [pair]) _ (gathers.add pair.1 pair.2)
    rwa [List.append_assoc, List.singleton_append] at rest

/-- The pairs of both sources, in the order they are gathered. -/
def allPairs (previous : Identities) (filters : List OwnedFilter) (entry : WString) :
    List (WString × Bytes) :=
  filterPairs filters entry ++ recordPairs previous entry

theorem gathers_gather (previous : Identities) (filters : List OwnedFilter) (entry : WString) :
    Gathers (allPairs previous filters entry) (gather previous filters entry) := by
  exact gathers_foldl _ [] _ gathers_nil

/-! ## Where an identifier ends up -/

/-- The identifier is kept with this path. -/
def Located (identity : ResolvedIdentity) (path : WString) (id : Bytes) : Prop :=
  ∃ group ∈ identity.groups, group.path = path ∧ id ∈ group.ids

/-- The path an identifier is kept with: its own, or the least one. -/
def settledPath (gathered : Gathered) (path : WString) : WString :=
  if path = [] then (gathered.groups.head?.map (·.1)).getD [] else path

/-- Paths in order, each with its identifiers in order. -/
structure Canonical (identity : ResolvedIdentity) : Prop where
  paths : identity.groups.Pairwise fun a b => a.path < b.path
  ids : ∀ group ∈ identity.groups, group.ids.Pairwise (· ≤ ·) ∧ group.ids.Nodup
  others : ∀ group ∈ identity.others, group.ids ≠ []
  source : identity.source = if identity.ids = [] then .none else .retained
  empty : identity.ids = [] → identity.path = [] ∧ identity.others = []

theorem mem_sortIds {ids : List Bytes} : id ∈ sortIds ids ↔ id ∈ ids :=
  List.mem_insertionSort (· ≤ ·)

theorem sortIds_sorted (ids : List Bytes) : (sortIds ids).Pairwise (· ≤ ·) :=
  List.pairwise_insertionSort (· ≤ ·) ids

theorem sortIds_nodup {ids : List Bytes} (nodup : ids.Nodup) : (sortIds ids).Nodup :=
  (List.perm_insertionSort (· ≤ ·) ids).nodup_iff.mpr nodup

theorem sortIds_ne_nil {ids : List Bytes} (nonempty : ids ≠ []) : sortIds ids ≠ [] := by
  intro empty
  obtain ⟨id, member⟩ := List.exists_mem_of_ne_nil ids nonempty
  rw [← mem_sortIds, empty] at member
  cases member

/-- What is retained, group by group: the groups in order, the first one with the identifiers that
have no path. -/
theorem groups_retained {ids : List Bytes}
    {rest : List (WString × List Bytes)} (isGroups : gathered.groups = (path, ids) :: rest) :
    (retainedIdentity gathered).groups =
      ⟨path, sortIds (sortIds ids ++ gathered.pathless)⟩ :: rest.map fun group =>
      ⟨group.1, sortIds group.2⟩ := by
  unfold retainedIdentity
  rw [isGroups]
  rfl

theorem groups_pathless (noGroups : gathered.groups = []) :
    (retainedIdentity gathered).groups = [⟨[], sortIds gathered.pathless⟩] := by
  unfold retainedIdentity
  rw [noGroups]
  cases gathered.pathless <;> rfl

theorem located_iff (gathered : Gathered) (path : WString) (id : Bytes) :
    Located (retainedIdentity gathered) path id ↔
      Holds gathered.groups path id ∨ path = settledPath gathered [] ∧ id ∈ gathered.pathless := by
  cases isGroups : gathered.groups with
  | nil => simp [Located, Holds, groups_pathless isGroups, settledPath, isGroups, mem_sortIds, eq_comm]
  | cons head rest =>
    have located : Located (retainedIdentity gathered) path id ↔
        head.1 = path ∧ (id ∈ head.2 ∨ id ∈ gathered.pathless) ∨ Holds rest path id := by
      simp [Located, Holds, groups_retained isGroups, mem_sortIds]
    rw [located, show settledPath gathered [] = head.1 by simp [settledPath, isGroups]]
    unfold Holds
    grind

theorem located_retained (gathers : Gathers pairs gathered)
    (path : WString) (id : Bytes) :
    Located (retainedIdentity gathered) path id ↔
      ∃ own, assigned pairs id = some own ∧ path = settledPath gathered own := by
  rw [located_iff, gathers.holds, gathers.pathless.2]
  constructor
  · rintro (⟨isPath, isAssigned⟩ | ⟨isLeast, isAssigned⟩)
    · exact ⟨path, isAssigned, (if_neg isPath).symm⟩
    · exact ⟨[], isAssigned, isLeast⟩
  · rintro ⟨own, isAssigned, rfl⟩
    by_cases isPath : own = []
    · subst isPath
      exact .inr ⟨rfl, isAssigned⟩
    · rw [settledPath, if_neg isPath]
      exact .inl ⟨isPath, isAssigned⟩

theorem canonical_retained (gathers : Gathers pairs gathered) :
    Canonical (retainedIdentity gathered) := by
  obtain ⟨sorted, groups, holds, pathless, -⟩ := gathers
  unfold retainedIdentity
  cases isGroups : gathered.groups with
  | nil =>
    cases isPathless : gathered.pathless with
    | nil => constructor <;> simp [ResolvedIdentity.groups]
    | cons id rest =>
      have nonempty : sortIds (id :: rest) ≠ [] := sortIds_ne_nil (by simp)
      refine ⟨List.pairwise_singleton _ _, List.forall_mem_singleton.mpr ⟨sortIds_sorted _,
        sortIds_nodup ?_⟩, by simp, (if_neg nonempty).symm, fun empty => absurd empty nonempty⟩
      exact isPathless ▸ pathless.1
  | cons head rest =>
    obtain ⟨first, ids⟩ := head
    rw [isGroups] at sorted groups holds
    obtain ⟨⟨some, nodup⟩, others⟩ := List.forall_mem_cons.mp groups
    obtain ⟨before, later⟩ := List.pairwise_cons.mp sorted
    have nonempty : sortIds (sortIds ids ++ gathered.pathless) ≠ [] := by
      refine sortIds_ne_nil fun empty => sortIds_ne_nil some ?_
      exact (List.append_eq_nil_iff.mp empty).1
    refine ⟨List.pairwise_cons.mpr ⟨List.forall_mem_map.mpr before, List.pairwise_map.mpr later⟩,
      List.forall_mem_cons.mpr ⟨⟨sortIds_sorted _, sortIds_nodup ?_⟩,
        List.forall_mem_map.mpr fun group member =>
        ⟨sortIds_sorted _, sortIds_nodup (others group member).2⟩⟩,
      List.forall_mem_map.mpr fun group member => sortIds_ne_nil (others group member).1,
      (if_neg nonempty).symm, fun empty => absurd empty nonempty⟩
    refine List.nodup_append.mpr ⟨sortIds_nodup nodup, pathless.1, fun id inIds other inPathless same => ?_⟩
    -- an identifier of the first group has a path of its own
    obtain ⟨isPath, withPath⟩ := (holds first id).mp ⟨ids, List.mem_cons_self, mem_sortIds.mp inIds⟩
    rw [same, (pathless.2 other).mp inPathless] at withPath
    exact isPath (Option.some.inj withPath).symm

/-! ## An identity in order is known by where its identifiers are -/

variable {identity : ResolvedIdentity}

theorem Canonical.group_unique (canonical : Canonical identity)
    {a b : AttributionGroup} (inA : a ∈ identity.groups) (inB : b ∈ identity.groups)
      (same : a.path = b.path) :
    a = b := by
  have distinct : (identity.groups.map (·.path)).Nodup := by
    refine List.pairwise_map.mpr (canonical.paths.imp fun before eq => ?_)
    rw [eq] at before
    exact List.lt_irrefl _ before
  exact List.inj_on_of_nodup_map distinct inA inB same

theorem Canonical.mem_ids (canonical : Canonical identity) {group : AttributionGroup}
    (member : group ∈ identity.groups) (id : Bytes) : id ∈ group.ids ↔ Located identity group.path id := by
  constructor
  · intro inIds
    exact ⟨group, member, rfl, inIds⟩
  · rintro ⟨other, inOther, same, inIds⟩
    rwa [canonical.group_unique member inOther same.symm]

theorem ids_eq_of_mem {ids ids' : List Bytes} (sorted : ids.Pairwise (· ≤ ·) ∧ ids.Nodup)
    (sorted' : ids'.Pairwise (· ≤ ·) ∧ ids'.Nodup) (same : ∀ id, id ∈ ids ↔ id ∈ ids') : ids = ids' := by
  have perm : ids.Perm ids' := (List.perm_ext_iff_of_nodup sorted.2 sorted'.2).mpr same
  exact perm.eq_of_pairwise (fun a b _ _ le le' => List.le_antisymm le le') sorted.1 sorted'.1

theorem Canonical.ids_nonempty (canonical : Canonical identity)
    (some : identity.ids ≠ []) {group : AttributionGroup} (member : group ∈ identity.groups) :
    group.ids ≠ [] := by
  rcases List.mem_cons.mp member with rfl | later
  · exact some
  · exact canonical.others group later

/-- A group of one identity is a group of the other. -/
theorem Canonical.group_mem {identity other : ResolvedIdentity} (canonical : Canonical identity)
    (canonical' : Canonical other) (some : identity.ids ≠ [])
    (same : ∀ path id, Located identity path id ↔ Located other path id) {group : AttributionGroup}
    (member : group ∈ identity.groups) : group ∈ other.groups := by
  obtain ⟨id, inIds⟩ := List.exists_mem_of_ne_nil _ (canonical.ids_nonempty some member)
  obtain ⟨group', member', samePath, -⟩ := (same group.path id).mp ⟨group, member, rfl, inIds⟩
  have sameIds : group.ids = group'.ids := by
    refine ids_eq_of_mem (canonical.ids group member) (canonical'.ids group' member') fun id => ?_
    rw [canonical.mem_ids member, canonical'.mem_ids member', same, samePath]
  have isGroup : group = group' := by
    cases group
    cases group'
    cases samePath
    cases sameIds
    rfl
  exact isGroup ▸ member'

theorem Canonical.ids_empty_iff (canonical : Canonical identity) :
    identity.ids = [] ↔ ∀ path id, ¬ Located identity path id := by
  constructor
  · rintro none path id ⟨group, member, -, inIds⟩
    obtain ⟨-, noOthers⟩ := canonical.empty none
    rw [ResolvedIdentity.groups, noOthers, List.mem_singleton] at member
    rw [member, none] at inIds
    cases inIds
  · intro nowhere
    by_contra some
    obtain ⟨id, inIds⟩ := List.exists_mem_of_ne_nil _ some
    exact nowhere identity.path id ⟨_, List.mem_cons_self, rfl, inIds⟩

theorem canonical_ext {identity other : ResolvedIdentity} (canonical : Canonical identity)
    (canonical' : Canonical other) (same : ∀ path id, Located identity path id ↔ Located other path id) :
    identity = other := by
  have bothEmpty : identity.ids = [] ↔ other.ids = [] := by
    rw [canonical.ids_empty_iff, canonical'.ids_empty_iff]
    simp only [same]
  have sources : identity.source = other.source := by
    rw [canonical.source, canonical'.source]
    simp only [bothEmpty]
  have groups : identity.groups = other.groups := by
    by_cases none : identity.ids = []
    · obtain ⟨path, noOthers⟩ := canonical.empty none
      obtain ⟨path', noOthers'⟩ := canonical'.empty (bothEmpty.mp none)
      rw [ResolvedIdentity.groups, ResolvedIdentity.groups, path, path', none, bothEmpty.mp none,
        noOthers, noOthers']
    · have none' := fun empty => none (bothEmpty.mpr empty)
      have nodup : ∀ {identity : ResolvedIdentity}, Canonical identity → identity.groups.Nodup :=
        fun canonical => canonical.paths.imp fun before eq => by
          rw [eq] at before
          exact List.lt_irrefl _ before
      have perm : identity.groups.Perm other.groups := by
        rw [List.perm_ext_iff_of_nodup (nodup canonical) (nodup canonical')]
        intro group
        exact ⟨canonical.group_mem canonical' none same,
          canonical'.group_mem canonical none' fun path id => (same path id).symm⟩
      refine perm.eq_of_pairwise (fun a b _ _ before after => ?_) canonical.paths canonical'.paths
      exact absurd (List.lt_trans before after) (List.lt_irrefl _)
  cases identity
  cases other
  obtain ⟨⟨rfl, rfl⟩, rfl⟩ := groups
  cases sources
  rfl

end ProgramSplit.Windows.Wfp
