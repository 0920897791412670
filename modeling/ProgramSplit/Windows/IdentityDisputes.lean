/-
# Windows.IdentityDisputes — paths and identifiers in every order of enumeration

The filter engine enumerates in any order, and filters and record may pair one identifier with
different paths.  An identifier stays with the first path it comes with, so what an unresolved entry
keeps depends on who disputes it.

* `Undisputed` — each path has an identifier that keeps it in every order, and two filters that pair
  one identifier differently have one path between them, the least.
* `unresolved_keeps_all_iff` — **every identifier is kept; every path, and one result for every
  order, exactly when nothing is disputed.**
* `moved_drive_dropped` — an identifier that the record pairs with another path loses that path.
-/
import ProgramSplit.Windows.IdentityRecord

namespace ProgramSplit.Windows.Wfp

set_option autoImplicit false

/-! ## Disputes -/

/-- One of the sources pairs the path with the identifier. -/
def Paired (previous : Identities) (filters : List OwnedFilter) (entry path : WString)
    (id : Bytes) : Prop :=
  id ≠ [] ∧ (path, id) ∈ allPairs previous filters entry

/-- The identifier keeps the path in every order: the filters tagged with the entry pair it with
this path only, or none of them carries it and the record pairs it with this path first. -/
def Settled (previous : Identities) (filters : List OwnedFilter) (entry path : WString)
    (id : Bytes) : Prop :=
  id ≠ [] ∧ (((path, id) ∈ filterPairs filters entry ∧
    ∀ other, (other, id) ∈ filterPairs filters entry → other = path) ∨
    ((∀ other, (other, id) ∉ filterPairs filters entry) ∧
      assigned (recordPairs previous entry) id = some path))

/-- No path of the entry is smaller. -/
def Least (previous : Identities) (filters : List OwnedFilter) (entry path : WString) : Prop :=
  ∀ other id, other ≠ [] → Paired previous filters entry other id → path ≤ other

/-- Every path has an identifier that keeps it in every order; and where two filters carry one
identifier with different paths, one of them has no path and the other one the least. -/
structure Undisputed (previous : Identities) (filters : List OwnedFilter) (entry : WString) :
    Prop where
  own : ∀ path id, path ≠ [] → Paired previous filters entry path id →
    ∃ id', Settled previous filters entry path id'
  agree : ∀ id path other, id ≠ [] → (path, id) ∈ filterPairs filters entry →
    (other, id) ∈ filterPairs filters entry →
    path ≠ other → path = [] ∧ Least previous filters entry other ∨ other = [] ∧
    Least previous filters entry path

/-- What an unresolved entry has to keep, whatever the order of enumeration. -/
structure KeepsAll (machine : Machine) (listed : List WString) (previous : Identities)
    (current : Owned)
    (entry : WString) (filters : List OwnedFilter) (identity : ResolvedIdentity) : Prop where
  found : (identifyApps machine listed previous { current with filters }).find entry = some identity
  same : (identifyApps machine listed previous current).find entry = some identity
  ids : ∀ id, id ∈ identity.groups.flatMap (·.ids) ↔
    ∃ path, Paired previous current.filters entry path id
  paths : ∀ path id, path ≠ [] → Paired previous current.filters entry path id →
    path ∈ identity.groups.map (·.path)

theorem find_identifyApps {machine : Machine} {listed : List WString} {previous : Identities}
    {current : Owned}
    {entry : WString} (member : entry ∈ listed) :
    (identifyApps machine listed previous current).find entry =
      some (identify machine previous current entry) := by
  have present : ((listed.insertionSort (· ≤ ·)).find? (· == entry)).isSome :=
    List.find?_isSome.mpr ⟨entry, (List.mem_insertionSort _).mpr member, by simp⟩
  obtain ⟨other, found⟩ := Option.isSome_iff_exists.mp present
  have isEntry : other = entry := by simpa using List.find?_some found
  simp [Identities.find, identifyApps, List.find?_map, Function.comp_def, found, isEntry]

/-! ## Orders of enumeration -/

theorem filterPairs_append (filters more : List OwnedFilter) (entry : WString) :
    filterPairs (filters ++ more) entry = filterPairs filters entry ++ filterPairs more entry := by
  unfold filterPairs
  rw [List.filter_append, List.map_append]

variable {previous : Identities} {filters filters' : List OwnedFilter} {entry path : WString}
    {id : Bytes}

theorem mem_filterPairs_filter (keep : WString → Bool) :
    (path, id) ∈ filterPairs (filters.filter fun filter => keep filter.path) entry ↔
      (path, id) ∈ filterPairs filters entry ∧ keep path := by
  simp only [mem_filterPairs, List.mem_filter]
  constructor
  · rintro ⟨filter, ⟨member, kept⟩, isTagged, rfl, isId⟩
    exact ⟨⟨filter, member, isTagged, rfl, isId⟩, kept⟩
  · rintro ⟨⟨filter, member, isTagged, rfl, isId⟩, kept⟩
    exact ⟨filter, ⟨member, kept⟩, isTagged, rfl, isId⟩

theorem filterPairs_perm (perm : filters'.Perm filters) (entry : WString)
    (pair : WString × Bytes) : pair ∈ filterPairs filters' entry ↔
      pair ∈ filterPairs filters entry :=
  ((perm.filter _).map _).mem_iff

theorem paired_perm (perm : filters'.Perm filters) :
    Paired previous filters' entry path id ↔ Paired previous filters entry path id := by
  unfold Paired allPairs
  rw [List.mem_append, List.mem_append, filterPairs_perm perm]

theorem settled_assigned (settled : Settled previous filters entry path id) :
    assigned (allPairs previous filters entry) id = some path := by
  obtain ⟨nonempty, ⟨member, only⟩ | ⟨absent, recorded⟩⟩ := settled
  · rw [allPairs, assigned_append, assigned_of_only nonempty member only]
    rfl
  · rw [allPairs, assigned_append, assigned_none absent, recorded]
    rfl

theorem settled_perm (perm : filters'.Perm filters)
    (settled : Settled previous filters entry path id) :
    Settled previous filters' entry path id := by
  obtain ⟨nonempty, kept⟩ := settled
  refine ⟨nonempty, kept.imp (fun kept => ?_) fun kept => ?_⟩
  · exact ⟨(filterPairs_perm perm entry _).mpr kept.1,
      fun other member => kept.2 other ((filterPairs_perm perm entry _).mp member)⟩
  · exact ⟨fun other member => kept.1 other ((filterPairs_perm perm entry _).mp member), kept.2⟩

/-- The filters with the path stand first. -/
def pathFirst (filters : List OwnedFilter) (path : WString) : List OwnedFilter :=
  filters.filter (fun filter => filter.path == path) ++ filters.filter fun filter =>
    !(filter.path == path)

/-- The filters with the path stand last. -/
def pathLast (filters : List OwnedFilter) (path : WString) : List OwnedFilter :=
  filters.filter (fun filter => !(filter.path == path)) ++ filters.filter fun filter =>
    filter.path == path

theorem pathFirst_perm (filters : List OwnedFilter) (path : WString) :
    (pathFirst filters path).Perm filters :=
  List.filter_append_perm _ filters

theorem pathLast_perm (filters : List OwnedFilter) (path : WString) :
    (pathLast filters path).Perm filters :=
  List.perm_append_comm.trans (pathFirst_perm filters path)

theorem assigned_pathFirst (nonempty : id ≠ []) (member : (path, id) ∈ filterPairs filters entry) :
    assigned (allPairs previous (pathFirst filters path) entry) id = some path := by
  have first : assigned (filterPairs (filters.filter fun filter => filter.path == path) entry) id =
      some path := by
    refine assigned_of_only nonempty ((mem_filterPairs_filter (· == path)).mpr ⟨member, by simp⟩)
      fun other inPairs => ?_
    exact eq_of_beq ((mem_filterPairs_filter (· == path)).mp inPairs).2
  rw [allPairs, pathFirst, filterPairs_append, assigned_append, assigned_append, first]
  rfl

/-- An identifier that keeps the path even where the filters with it stand last keeps it always. -/
theorem settled_of_pathLast
    (isAssigned : assigned (allPairs previous (pathLast filters path) entry) id = some path) :
    Settled previous filters entry path id := by
  obtain ⟨nonempty, -⟩ := assigned_mem isAssigned
  rw [allPairs, pathLast, filterPairs_append, assigned_append, assigned_append] at isAssigned
  have before : assigned (filterPairs (filters.filter fun filter => !(filter.path == path)) entry)
      id = none := by
    by_contra present
    obtain ⟨other, isOther⟩ := Option.ne_none_iff_exists'.mp present
    rw [isOther, Option.some_or, Option.some_or] at isAssigned
    cases isAssigned
    simpa using ((mem_filterPairs_filter (!· == path)).mp (assigned_mem isOther).2).2
  have only : ∀ other, (other, id) ∈ filterPairs filters entry → other = path := by
    intro other member
    by_contra different
    have inBefore := (mem_filterPairs_filter (!· == path)).mpr ⟨member, by simpa using different⟩
    have present := assigned_isSome.mpr ⟨nonempty, other, inBefore⟩
    rw [before] at present
    cases present
  rw [before, Option.none_or] at isAssigned
  refine ⟨nonempty, ?_⟩
  by_cases carried : (path, id) ∈ filterPairs filters entry
  · exact .inl ⟨carried, only⟩
  · have absent : ∀ other, (other, id) ∉ filterPairs filters entry :=
      fun other member => carried (only other member ▸ member)
    refine .inr ⟨absent, ?_⟩
    have none : assigned (filterPairs (filters.filter fun filter => filter.path == path) entry) id =
        none :=
      assigned_none fun other member =>
        absent other ((mem_filterPairs_filter (· == path)).mp member).1
    rwa [none, Option.none_or] at isAssigned

/-! ## Paths -/

variable {pairs : List (WString × Bytes)} {gathered : Gathered}

theorem settledPath_of_ne (isPath : path ≠ []) :
    settledPath gathered path = path :=
  if_neg isPath

/-- Identifiers without a path join the least path that an identifier is assigned, if there is
one. -/
theorem settledPath_nil (gathers : Gathers pairs gathered) :
    settledPath gathered [] = [] ∧ (∀ id path, assigned pairs id = some path → path = []) ∨
      settledPath gathered [] ≠ [] ∧ (∃ id, assigned pairs id = some (settledPath gathered [])) ∧
        ∀ id path, assigned pairs id = some path → path ≠ [] → settledPath gathered [] ≤ path := by
  cases isGroups : gathered.groups with
  | nil =>
    refine .inl ⟨by simp [settledPath, isGroups], fun id path isAssigned => ?_⟩
    by_contra isPath
    obtain ⟨ids, member, -⟩ := (gathers.holds path id).mpr ⟨isPath, isAssigned⟩
    rw [isGroups] at member
    cases member
  | cons head rest =>
    have inGroups : head ∈ gathered.groups := isGroups ▸ List.mem_cons_self
    obtain ⟨id, inIds⟩ := List.exists_mem_of_ne_nil _ (gathers.groups head inGroups).1
    obtain ⟨isPath, isAssigned⟩ := (gathers.holds head.1 id).mp ⟨head.2, inGroups, inIds⟩
    rw [show settledPath gathered [] = head.1 by simp [settledPath, isGroups]]
    refine .inr ⟨isPath, ⟨id, isAssigned⟩, fun id path isAssigned notEmpty => ?_⟩
    obtain ⟨ids, member, -⟩ := (gathers.holds path id).mpr ⟨notEmpty, isAssigned⟩
    have sorted := gathers.sorted
    rw [isGroups] at member sorted
    rcases List.mem_cons.mp member with rfl | later
    · exact List.le_refl path
    · exact List.le_of_lt ((List.pairwise_cons.mp sorted).1 _ later)

theorem mem_paths_retained (gathers : Gathers pairs gathered) (isPath : path ≠ []) :
    path ∈ (retainedIdentity gathered).groups.map (·.path) ↔
      ∃ id, assigned pairs id = some path := by
  have canonical := canonical_retained gathers
  constructor
  · intro member
    obtain ⟨group, inGroups, rfl⟩ := List.mem_map.mp member
    have some : (retainedIdentity gathered).ids ≠ [] := by
      intro none
      obtain ⟨noPath, noOthers⟩ := canonical.empty none
      rw [ResolvedIdentity.groups, noOthers, List.mem_singleton] at inGroups
      exact isPath (by rw [inGroups]; exact noPath)
    obtain ⟨id, inIds⟩ := List.exists_mem_of_ne_nil _ (canonical.ids_nonempty some inGroups)
    obtain ⟨own, isAssigned, isOwn⟩ :=
      (located_retained gathers group.path id).mp ⟨group, inGroups, rfl, inIds⟩
    by_cases noOwn : own = []
    · subst noOwn
      rcases settledPath_nil gathers with ⟨none, -⟩ | ⟨-, assignedPath, -⟩
      · exact absurd (isOwn.trans none) isPath
      · rwa [isOwn]
    · rw [isOwn, settledPath_of_ne noOwn]
      exact ⟨id, isAssigned⟩
  · rintro ⟨id, isAssigned⟩
    obtain ⟨group, inGroups, rfl, -⟩ :=
      (located_retained gathers path id).mpr ⟨path, isAssigned, (settledPath_of_ne isPath).symm⟩
    exact List.mem_map_of_mem inGroups

theorem mem_ids_retained (gathers : Gathers pairs gathered) (id : Bytes) :
    id ∈ (retainedIdentity gathered).groups.flatMap (·.ids) ↔ (assigned pairs id).isSome := by
  rw [List.mem_flatMap]
  constructor
  · rintro ⟨group, inGroups, inIds⟩
    obtain ⟨own, isAssigned, -⟩ := (located_retained gathers group.path id).mp ⟨group,
      inGroups, rfl, inIds⟩
    rw [isAssigned]
    rfl
  · intro present
    obtain ⟨own, isAssigned⟩ := Option.isSome_iff_exists.mp present
    obtain ⟨group, inGroups, -, inIds⟩ := (located_retained gathers _ id).mpr ⟨own, isAssigned, rfl⟩
    exact ⟨group, inGroups, inIds⟩

/-! ## Exactly when everything is kept -/

section Entry

/-- What an unresolved entry is given for one order of the filters. -/
def retained (previous : Identities) (filters : List OwnedFilter) (entry : WString) :
    ResolvedIdentity :=
  retainedIdentity (gather previous filters entry)

/-- In every order: the same result, with every path. -/
def InEveryOrder (previous : Identities) (filters : List OwnedFilter) (entry : WString) : Prop :=
  ∀ filters' : List OwnedFilter, filters'.Perm filters →
    retained previous filters' entry = retained previous filters entry ∧
    ∀ path id, path ≠ [] → Paired previous filters entry path id →
      path ∈ (retained previous filters' entry).groups.map (·.path)

theorem InEveryOrder.own (every : InEveryOrder previous filters entry)
    (isPath : path ≠ []) (paired : Paired previous filters entry path id) :
    ∃ id', Settled previous filters entry path id' := by
  have kept := (every _ (pathLast_perm filters path)).2 path id isPath paired
  obtain ⟨id', isAssigned⟩ := (mem_paths_retained (gathers_gather _ _ _) isPath).mp kept
  exact ⟨id', settled_of_pathLast isAssigned⟩

/-- Two orders that assign an identifier different paths settle it on the same one. -/
theorem InEveryOrder.settledPath_eq (every : InEveryOrder previous filters entry)
    {path other : WString} (nonempty : id ≠ []) (member : (path, id) ∈ filterPairs filters entry)
    (otherMember : (other, id) ∈ filterPairs filters entry) :
    settledPath (gather previous (pathFirst filters path) entry) path =
      settledPath (gather previous (pathFirst filters other) entry) other := by
  have first : assigned (allPairs previous (pathFirst filters path) entry) id = some path :=
    assigned_pathFirst nonempty member
  have second : assigned (allPairs previous (pathFirst filters other) entry) id = some other :=
    assigned_pathFirst nonempty otherMember
  have same : retained previous (pathFirst filters path) entry =
      retained previous (pathFirst filters other) entry :=
    ((every _ (pathFirst_perm filters path)).1).trans
    ((every _ (pathFirst_perm filters other)).1).symm
  have located := (located_retained (gathers_gather previous
    (pathFirst filters path) entry) _ id).mpr
    ⟨path, first, rfl⟩
  rw [show retainedIdentity (gather previous (pathFirst filters path) entry) =
    retainedIdentity (gather previous (pathFirst filters other) entry) from same] at located
  obtain ⟨own, isAssigned, isOwn⟩ := (located_retained (gathers_gather _ _ _) _ id).mp located
  rw [second] at isAssigned
  rw [isOwn, Option.some.inj isAssigned]

theorem InEveryOrder.least (every : InEveryOrder previous filters entry) {other : WString}
    (nonempty : id ≠ []) (member : ([], id) ∈ filterPairs filters entry)
    (otherMember : (other, id) ∈ filterPairs filters entry) (isPath : other ≠ []) :
    Least previous filters entry other := by
  have same := every.settledPath_eq nonempty member otherMember
  rw [settledPath_of_ne isPath] at same
  intro path id' notEmpty paired
  have kept := (every _ (pathFirst_perm filters [])).2 path id' notEmpty paired
  obtain ⟨id'', isAssigned⟩ := (mem_paths_retained (gathers_gather _ _ _) notEmpty).mp kept
  rcases settledPath_nil (gathers_gather previous (pathFirst filters []) entry) with
    ⟨none, -⟩ | ⟨-, -, least⟩
  · exact absurd (same.symm.trans none) isPath
  · rw [← same]
    exact least id'' path isAssigned notEmpty

theorem InEveryOrder.undisputed (every : InEveryOrder previous filters entry) :
    Undisputed previous filters entry where
  own path id isPath paired := every.own isPath paired
  agree id path other nonempty member otherMember different := by
    by_cases noPath : path = []
    · subst noPath
      exact .inl ⟨rfl, every.least nonempty member otherMember different.symm⟩
    · by_cases noOther : other = []
      · subst noOther
        exact .inr ⟨rfl, every.least nonempty otherMember member noPath⟩
      · have same := every.settledPath_eq nonempty member otherMember
        rw [settledPath_of_ne noPath, settledPath_of_ne noOther] at same
        exact absurd same different

/-- An identifier is assigned a path by the filters, or by the record if no filter carries it. -/
theorem assigned_source (isAssigned : assigned (allPairs previous filters entry) id = some path) :
    (path, id) ∈ filterPairs filters entry ∨
      (∀ other, (other, id) ∉ filterPairs filters entry) ∧
      assigned (recordPairs previous entry) id = some path := by
  obtain ⟨nonempty, -⟩ := assigned_mem isAssigned
  rw [allPairs, assigned_append] at isAssigned
  by_cases carried : ∃ other, (other, id) ∈ filterPairs filters entry
  · obtain ⟨own, isOwn⟩ := Option.isSome_iff_exists.mp (assigned_isSome.mpr ⟨nonempty, carried⟩)
    rw [isOwn, Option.some_or] at isAssigned
    exact .inl (Option.some.inj isAssigned ▸ (assigned_mem isOwn).2)
  · have absent : ∀ other, (other, id) ∉ filterPairs filters entry :=
      fun other member => carried ⟨other, member⟩
    rw [assigned_none absent, Option.none_or] at isAssigned
    exact .inr ⟨absent, isAssigned⟩

theorem assigned_perm_isSome (perm : filters'.Perm filters)
    (present : (assigned (allPairs previous filters' entry) id).isSome) :
    (assigned (allPairs previous filters entry) id).isSome := by
  obtain ⟨nonempty, path, member⟩ := assigned_isSome.mp present
  have paired : Paired previous filters entry path id := (paired_perm perm).mp ⟨nonempty, member⟩
  exact assigned_isSome.mpr ⟨nonempty, path, paired.2⟩

section Undisputed

variable (undisputed : Undisputed previous filters entry)

include undisputed

/-- The path of the identifiers without one is the least of all paths. -/
theorem Undisputed.settledPath_nil :
    settledPath (gather previous filters entry) [] = [] ∧
    (∀ path id, Paired previous filters entry path id → path = []) ∨
      settledPath (gather previous filters entry) [] ≠ [] ∧
        (∃ id, Paired previous filters entry (settledPath (gather previous filters entry) []) id) ∧
          Least previous filters entry (settledPath (gather previous filters entry) []) := by
  have gathers := gathers_gather previous filters entry
  rcases Wfp.settledPath_nil gathers with ⟨none, only⟩ | ⟨isPath, ⟨id, isAssigned⟩, least⟩
  · refine .inl ⟨none, fun path id paired => ?_⟩
    by_contra isPath
    obtain ⟨id', settled⟩ := undisputed.own path id isPath paired
    exact isPath (only id' path (settled_assigned settled))
  · refine .inr ⟨isPath, ⟨id, assigned_mem isAssigned⟩, fun other id' notEmpty paired => ?_⟩
    obtain ⟨id'', settled⟩ := undisputed.own other id' notEmpty paired
    exact least id'' other (settled_assigned settled) notEmpty

/-- Identifiers without a path join a path that is least among all. -/
theorem Undisputed.settledPath_nil_eq (isPath : path ≠ [])
    (paired : Paired previous filters entry path id) (least : Least previous filters entry path) :
    settledPath (gather previous filters entry) [] = path := by
  rcases undisputed.settledPath_nil with ⟨-, only⟩ | ⟨notEmpty, ⟨id', paired'⟩, least'⟩
  · exact absurd (only path id paired) isPath
  · exact List.le_antisymm (least' path id isPath paired) (least _ id' notEmpty paired')

theorem Undisputed.perm (perm : filters'.Perm filters) : Undisputed previous filters' entry where
  own path id isPath paired := by
    obtain ⟨id', settled⟩ := undisputed.own path id isPath ((paired_perm perm).mp paired)
    exact ⟨id', settled_perm perm settled⟩
  agree id path other nonempty member otherMember different := by
    have least : ∀ path, Least previous filters entry path → Least previous filters' entry path :=
      fun path least other id notEmpty paired =>
        least other id notEmpty ((paired_perm perm).mp paired)
    exact (undisputed.agree id path other nonempty ((filterPairs_perm perm entry _).mp member)
      ((filterPairs_perm perm entry _).mp otherMember) different).imp (And.imp_right (least other))
        (And.imp_right (least path))

variable (perm : filters'.Perm filters)

include perm

theorem Undisputed.settledPath_nil_perm :
    settledPath (gather previous filters' entry) [] = settledPath (gather previous filters entry)
      [] := by
  have undisputed' := undisputed.perm perm
  rcases undisputed.settledPath_nil with ⟨none, only⟩ | ⟨isPath, ⟨id, paired⟩, least⟩
  · rw [none]
    rcases undisputed'.settledPath_nil with ⟨none', -⟩ | ⟨-, ⟨id, paired⟩, -⟩
    · exact none'
    · exact only _ id ((paired_perm perm).mp paired)
  · refine undisputed'.settledPath_nil_eq isPath ((paired_perm perm).mpr paired)
      fun other id' notEmpty paired' => ?_
    exact least other id' notEmpty ((paired_perm perm).mp paired')

/-- The path an identifier settles on is the same in two orders. -/
theorem Undisputed.settledPath_eq {path other : WString}
    (isAssigned : assigned (allPairs previous filters' entry) id = some path)
    (isOther : assigned (allPairs previous filters entry) id = some other) :
    settledPath (gather previous filters' entry) path =
      settledPath (gather previous filters entry) other := by
  have nonempty := (assigned_mem isOther).1
  by_cases same : path = other
  · subst same
    by_cases isPath : path = []
    · rw [isPath]
      exact undisputed.settledPath_nil_perm perm
    · rw [settledPath_of_ne isPath, settledPath_of_ne isPath]
  · have member : (path, id) ∈ filterPairs filters entry ∧
        (other, id) ∈ filterPairs filters entry := by
      rcases assigned_source isAssigned with carried | ⟨absent, recorded⟩
      · have carried := (filterPairs_perm perm entry _).mp carried
        rcases assigned_source isOther with carried' | ⟨absent', -⟩
        · exact ⟨carried, carried'⟩
        · exact absurd carried (absent' path)
      · rcases assigned_source isOther with carried' | ⟨-, recorded'⟩
        · exact absurd ((filterPairs_perm perm entry _).mpr carried') (absent other)
        · exact absurd (Option.some.inj (recorded.symm.trans recorded')) same
    rcases undisputed.agree id path other nonempty member.1 member.2 same with
      ⟨rfl, least⟩ | ⟨rfl, least⟩
    · have isPath : other ≠ [] := Ne.symm same
      rw [settledPath_of_ne isPath, undisputed.settledPath_nil_perm perm]
      exact undisputed.settledPath_nil_eq isPath ⟨nonempty, List.mem_append_left _ member.2⟩ least
    · rw [settledPath_of_ne same]
      exact (undisputed.settledPath_nil_eq same ⟨nonempty,
        List.mem_append_left _ member.1⟩ least).symm

theorem Undisputed.located (located : Located (retained previous filters' entry) path id) :
    Located (retained previous filters entry) path id := by
  obtain ⟨own, isAssigned, rfl⟩ := (located_retained (gathers_gather _ _ _) path id).mp located
  obtain ⟨other, isOther⟩ := Option.isSome_iff_exists.mp
    (assigned_perm_isSome perm (Option.isSome_iff_exists.mpr ⟨own, isAssigned⟩))
  exact (located_retained (gathers_gather _ _ _) _ id).mpr
    ⟨other, isOther, undisputed.settledPath_eq perm isAssigned isOther⟩

end Undisputed

theorem Undisputed.inEveryOrder (undisputed : Undisputed previous filters entry) :
    InEveryOrder previous filters entry := by
  intro filters' perm
  have undisputed' := undisputed.perm perm
  constructor
  · refine canonical_ext (canonical_retained (gathers_gather _ _ _))
      (canonical_retained (gathers_gather _ _ _))
      fun path id => ⟨undisputed.located perm, undisputed'.located perm.symm⟩
  · intro path id isPath paired
    obtain ⟨id', settled⟩ := undisputed'.own path id isPath ((paired_perm perm).mpr paired)
    exact (mem_paths_retained (gathers_gather _ _ _) isPath).mpr ⟨id', settled_assigned settled⟩

end Entry

/-- **Unresolved entries keep all they had, exactly when nothing is disputed.**  In every order the
identifiers are those of both sources; every path that a source pairs with one of them is kept, and
the result is the same, exactly if each path has an identifier that keeps it in every order and no
two filters dispute one. -/
theorem unresolved_keeps_all_iff (machine : Machine) (listed : List WString) (previous : Identities)
    (current : Owned) (entry : WString) (isListed : entry ∈ listed)
    (unresolved : ¬ machine.Resolves entry) :
    (∀ filters : List OwnedFilter, filters.Perm current.filters →
      ∃ identity, (identifyApps machine listed previous { current with filters }).find entry =
        some identity ∧
        ∀ id, id ∈ identity.groups.flatMap (·.ids) ↔
          ∃ path, Paired previous current.filters entry path id) ∧
    ((∀ filters : List OwnedFilter, filters.Perm current.filters →
      ∃ identity, KeepsAll machine listed previous current entry filters identity) ↔
        Undisputed previous current.filters entry) := by
  have found : ∀ filters : List OwnedFilter,
      (identifyApps machine listed previous { current with filters }).find entry =
        some (retained previous filters entry) := by
    intro filters
    rw [find_identifyApps isListed, identify, if_neg unresolved]
    rfl
  have foundCurrent := found current.filters
  have ids : ∀ filters : List OwnedFilter, filters.Perm current.filters → ∀ id,
      id ∈ (retained previous filters entry).groups.flatMap (·.ids) ↔
        ∃ path, Paired previous current.filters entry path id := by
    intro filters perm id
    rw [retained, mem_ids_retained (gathers_gather _ _ _), assigned_isSome]
    constructor
    · rintro ⟨nonempty, path, member⟩
      exact ⟨path, (paired_perm perm).mp ⟨nonempty, member⟩⟩
    · rintro ⟨path, paired⟩
      obtain ⟨nonempty, member⟩ : Paired previous filters entry path id :=
        (paired_perm perm).mpr paired
      exact ⟨nonempty, path, member⟩
  refine ⟨fun filters perm => ⟨_, found filters, ids filters perm⟩, fun keeps => ?_,
    fun undisputed filters perm => ?_⟩
  · refine InEveryOrder.undisputed fun filters perm => ?_
    obtain ⟨identity, kept⟩ := keeps filters perm
    have isIdentity : retained previous filters entry = identity :=
      Option.some.inj ((found filters).symm.trans kept.found)
    have isCurrent : retained previous current.filters entry = identity :=
      Option.some.inj (foundCurrent.symm.trans kept.same)
    exact ⟨isIdentity.trans isCurrent.symm, fun path id isPath paired =>
      isIdentity ▸ kept.paths path id isPath paired⟩
  · obtain ⟨same, paths⟩ := undisputed.inEveryOrder filters perm
    exact ⟨retained previous filters entry,
      found filters, by rw [same]; exact foundCurrent, ids filters perm, paths⟩

/-! ## Poles -/

/-- The volume that the record knows as `e:` was mounted as `f:` when the filters were committed. -/
def movedDrive : Owned :=
  { noneOwned with
    filters := [⟨1, [], plainEntry, [102, 58], [1]⟩] }

def movedRecord : Identities :=
  [(plainEntry, ⟨.retained, [101, 58], [[1]], []⟩)]

/-- **A path is dropped:** the identifier is seen with the filter's path, and the recorded one is
not among the entry's paths. -/
theorem moved_drive_dropped :
    ¬ after.Resolves plainEntry ∧ Paired movedRecord movedDrive.filters plainEntry [101, 58] [1] ∧
      ((identifyApps after [plainEntry] movedRecord movedDrive).find plainEntry).map
        (fun identity => identity.groups.map (·.path)) = some [[102, 58]] := by
  refine ⟨after_unresolved plainEntry, ⟨by decide, by decide⟩, ?_⟩
  decide

/-- Nothing is disputed while the drive keeps its letter. -/
def keptDrive : Owned :=
  { noneOwned with
    filters := [⟨1, [], plainEntry, [101, 58], [1]⟩] }

theorem keptDrive_pair
    (member : (path, id) ∈ allPairs movedRecord keptDrive.filters plainEntry) :
    path = [101, 58] ∧ id = [1] := by
  have pairs : allPairs movedRecord keptDrive.filters plainEntry = [([101, 58], [1]),
    ([101, 58], [1])] := by decide
  rw [pairs] at member
  simpa using member

theorem keptDrive_undisputed : Undisputed movedRecord keptDrive.filters plainEntry := by
  constructor
  · intro path id _ paired
    obtain ⟨rfl, rfl⟩ := keptDrive_pair paired.2
    refine ⟨[1], by decide, .inl ⟨by decide, fun other member => ?_⟩⟩
    exact (keptDrive_pair (List.mem_append_left _ member)).1
  · intro id path other _ member member' differ
    have isPath := (keptDrive_pair (List.mem_append_left _ member)).1
    have isOther := (keptDrive_pair (List.mem_append_left _ member')).1
    exact absurd (isPath.trans isOther.symm) differ

theorem unresolved_keeps_all_kept : ¬ after.Resolves plainEntry ∧
    (∀ filters : List OwnedFilter, filters.Perm keptDrive.filters →
      ∃ identity, KeepsAll after [plainEntry] movedRecord keptDrive plainEntry filters identity) :=
  ⟨after_unresolved plainEntry,
    (unresolved_keeps_all_iff after [plainEntry] movedRecord keptDrive plainEntry List.mem_cons_self
      (after_unresolved plainEntry)).2.mpr keptDrive_undisputed⟩

end ProgramSplit.Windows.Wfp
