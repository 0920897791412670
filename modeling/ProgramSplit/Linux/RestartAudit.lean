/-
# Linux.RestartAudit — which running programs a policy change leaves behind

`restart_audit` of `preflight.py`: from the processes a policy names and those an earlier audit named, the
loop adds children until nothing changes. A process is known by its identifier and its start time, so a
later process under an old identifier is another one.

* `Closed` — what the audit has to contain, stated on sets of processes;
* `mapM_find` — the keys of an affected set are read back as processes;
* `restartAudit_isLeast` — the audit stops, lists by identifier, and is the least closed set.
-/
import Mathlib.Data.Finset.Sort
import Mathlib.Data.Prod.Lex
import ProgramSplit.Lib.Closure

namespace ProgramSplit.Linux.RestartAudit

set_option autoImplicit false

open Lib.Closure

abbrev Text := List Char

structure Process where
  pid : Nat
  ppid : Nat
  starttime : Nat
  exe : Text
  deriving DecidableEq, Repr

/-- The key of the dictionary of live processes; tuples compare in order. -/
abbrev Key := Nat ×ₗ Nat

def key (p : Process) : Key :=
  toLex (p.pid, p.starttime)

def removeSuffix (suffix text : Text) : Text :=
  if suffix.isSuffixOf text then text.take (text.length - suffix.length) else text

section Audit

variable (paths : List Text) (current previous : List Process)

/-- `live[key]`: of several entries under one key the last stays. -/
def find (k : Key) : Option Process :=
  current.reverse.find? fun p => key p == k

/-- `live.items()` -/
def items : List Process :=
  current.filter fun p => find current (key p) == some p

def keys : Finset Key :=
  ((items current).map key).toFinset

local instance : LawfulBEq Text := inferInstance

/-- The test of the generator behind `affected.update`. -/
def named (p : Process) : Bool :=
  p.exe ∈ paths || removeSuffix " (deleted)".toList p.exe ∈ paths

/-- The affected keys the loop starts with. -/
def seed : Finset Key :=
  ((previous.map key).toFinset ∩ keys current) ∪ (((items current).filter (named paths)).map key).toFinset

/-- One pass of the loop. -/
def updated (affected : Finset Key) : Finset Key :=
  let parents := affected.image fun k => (ofLex k).1
  affected ∪ (((items current).filter fun p => p.ppid ∈ parents).map key).toFinset

/-- The audit; `none` stands for a loop that has not stopped, or a key that is not live. -/
def restartAudit (fuel : Nat) : Option (List Process) := do
  let affected ← settle (updated current) fuel (seed paths current previous)
  (affected.sort (· ≤ ·)).mapM (find current)

/-! ## What the audit is for -/

/-- A set of live processes that holds every process the policy names, every one an earlier audit
named and the children of its members. -/
structure Closed (affected : Set Process) : Prop where
  live : ∀ p ∈ affected, p ∈ current
  policy : ∀ p ∈ current, named paths p = true → p ∈ affected
  earlier : ∀ p ∈ current, (∃ q ∈ previous, q.pid = p.pid ∧ q.starttime = p.starttime) → p ∈ affected
  children : ∀ p ∈ current, ∀ parent ∈ affected, p.ppid = parent.pid → p ∈ affected

end Audit

section Distinct

variable {paths : List Text} {current previous : List Process}

theorem key_inj {p q : Process} : key p = key q ↔ p.pid = q.pid ∧ p.starttime = q.starttime := by
  rw [key, key, toLex_inj, Prod.mk.injEq]

/-- What is found under a key is live and has it. -/
theorem find_some {k : Key} {p : Process} (found : find current k = some p) : p ∈ current ∧ key p = k :=
  ⟨List.mem_reverse.mp (List.mem_of_find?_eq_some found), by simpa using List.find?_some found⟩

variable (distinct : (current.map Process.pid).Nodup)

include distinct

theorem eq_of_pid {p q : Process} (live : p ∈ current) (live' : q ∈ current) (same : p.pid = q.pid) : p = q :=
  List.inj_on_of_nodup_map distinct live live' same

theorem find_key {p : Process} (live : p ∈ current) : find current (key p) = some p := by
  cases found : find current (key p) with
  | none =>
    have none := List.find?_eq_none.mp found p (List.mem_reverse.mpr live)
    simp at none
  | some q =>
    obtain ⟨live', same⟩ := find_some found
    rw [eq_of_pid distinct live' live (key_inj.mp same).1]

theorem mem_items {p : Process} : p ∈ items current ↔ p ∈ current := by
  rw [items, List.mem_filter]
  exact ⟨fun both => both.1, fun live => ⟨live, by simp [find_key distinct live]⟩⟩

theorem mem_keys {p : Process} (live : p ∈ current) : key p ∈ keys current :=
  List.mem_toFinset.mpr (List.mem_map_of_mem ((mem_items distinct).mpr live))

/-- The keys of a set of live processes, each once and in order, are read back as those processes. -/
theorem mapM_find (ks : List Key) (live : ∀ k ∈ ks, k ∈ keys current) :
    ∃ result, ks.mapM (find current) = some result ∧ result.map key = ks ∧ ∀ p ∈ result, p ∈ current := by
  induction ks with
  | nil => exact ⟨[], rfl, rfl, by simp⟩
  | cons k ks ih =>
    obtain ⟨result, read, back, inside⟩ := ih fun k member => live k (List.mem_cons_of_mem _ member)
    obtain ⟨p, member, rfl⟩ := List.mem_map.mp (List.mem_toFinset.mp (live k List.mem_cons_self))
    have alive := (mem_items distinct).mp member
    refine ⟨p :: result, ?_, by rw [List.map_cons, back], List.forall_mem_cons.mpr ⟨alive, inside⟩⟩
    rw [List.mapM_cons, find_key distinct alive, read]
    rfl

theorem mem_seed {p : Process} (live : p ∈ current) :
    key p ∈ seed paths current previous ↔
      (∃ q ∈ previous, q.pid = p.pid ∧ q.starttime = p.starttime) ∨ named paths p = true := by
  have picked : key p ∈ (((items current).filter (named paths)).map key).toFinset ↔ named paths p = true := by
    simp only [List.mem_toFinset, List.mem_map, List.mem_filter, mem_items distinct]
    constructor
    · rintro ⟨q, ⟨live', hit⟩, same⟩
      rwa [eq_of_pid distinct live' live (key_inj.mp same).1] at hit
    · exact fun hit => ⟨p, ⟨live, hit⟩, rfl⟩
  rw [seed, Finset.mem_union, Finset.mem_inter, picked, and_iff_left (mem_keys distinct live),
    List.mem_toFinset, List.mem_map]
  simp only [key_inj]

theorem mem_updated {p : Process} (live : p ∈ current) (affected : Finset Key) :
    key p ∈ updated current affected ↔ key p ∈ affected ∨ ∃ k ∈ affected, p.ppid = (ofLex k).1 := by
  simp only [updated, Finset.mem_union, List.mem_toFinset, List.mem_map, List.mem_filter, mem_items distinct,
    decide_eq_true_eq, Finset.mem_image]
  refine or_congr_right ⟨?_, ?_⟩
  · rintro ⟨q, ⟨live', k, member, parent⟩, same⟩
    rw [eq_of_pid distinct live' live (key_inj.mp same).1] at parent
    exact ⟨k, member, parent.symm⟩
  · rintro ⟨k, member, parent⟩
    exact ⟨p, ⟨live, k, member, parent.symm⟩, rfl⟩

omit distinct in
theorem seed_subset : seed paths current previous ⊆ keys current := by
  apply Finset.union_subset Finset.inter_subset_right
  intro k member
  simp only [List.mem_toFinset, List.mem_map, List.mem_filter] at member
  obtain ⟨p, ⟨item, -⟩, rfl⟩ := member
  exact List.mem_toFinset.mpr (List.mem_map_of_mem item)

omit distinct in
theorem updated_subset {affected : Finset Key} (inside : affected ⊆ keys current) :
    updated current affected ⊆ keys current := by
  apply Finset.union_subset inside
  intro k member
  simp only [List.mem_toFinset, List.mem_map, List.mem_filter] at member
  obtain ⟨p, ⟨item, -⟩, rfl⟩ := member
  exact List.mem_toFinset.mpr (List.mem_map_of_mem item)

omit distinct in
theorem updated_mono : Monotone (updated current) := by
  intro s t le k member
  simp only [updated, Finset.mem_union, List.mem_toFinset, List.mem_map, List.mem_filter, decide_eq_true_eq,
    Finset.mem_image] at member ⊢
  rcases member with old | ⟨p, ⟨item, parent, among, same⟩, rfl⟩
  · exact .inl (le old)
  · exact .inr ⟨p, ⟨item, parent, le among, same⟩, rfl⟩

/-- A set of keys above the seed that a pass leaves alone is a closed set of processes. -/
theorem closed_of_fixed {affected : Finset Key} (above : seed paths current previous ⊆ affected)
    (fixed : updated current affected = affected) :
    Closed paths current previous {p | p ∈ current ∧ key p ∈ affected} where
  live := fun _ member => member.1
  policy := fun _ live hit => ⟨live, above ((mem_seed distinct live).mpr (.inr hit))⟩
  earlier := fun _ live before => ⟨live, above ((mem_seed distinct live).mpr (.inl before))⟩
  children := fun _ live parent member same =>
    ⟨live, fixed ▸ (mem_updated distinct live affected).mpr (.inr ⟨key parent, member.2, same⟩)⟩

/-- The keys of a closed set of processes are above the seed, and a pass leaves them alone. -/
theorem fixed_of_closed {affected : Set Process} (closed : Closed paths current previous affected) :
    ∃ s : Finset Key, (∀ p ∈ current, key p ∈ s ↔ p ∈ affected) ∧ seed paths current previous ⊆ s ∧
      updated current s = s := by
  classical
  let s := ((current.filter (· ∈ affected)).map key).toFinset
  have members : ∀ p ∈ current, key p ∈ s ↔ p ∈ affected := by
    intro p live
    simp only [s, List.mem_toFinset, List.mem_map, List.mem_filter, decide_eq_true_eq]
    constructor
    · rintro ⟨q, ⟨live', inside⟩, same⟩
      rwa [← eq_of_pid distinct live' live (key_inj.mp same).1]
    · exact fun inside => ⟨p, ⟨live, inside⟩, rfl⟩
  -- the keys outside the live processes play no part on either side
  have lift : ∀ t ⊆ keys current, (∀ p ∈ current, key p ∈ t → p ∈ affected) → t ⊆ s := by
    intro t inside holds k member
    obtain ⟨p, item, rfl⟩ := List.mem_map.mp (List.mem_toFinset.mp (inside member))
    have live := (mem_items distinct).mp item
    exact (members p live).mpr (holds p live member)
  have within : s ⊆ keys current := by
    intro k member
    obtain ⟨p, kept, rfl⟩ := List.mem_map.mp (List.mem_toFinset.mp member)
    exact mem_keys distinct (List.mem_filter.mp kept).1
  refine ⟨s, members, lift _ seed_subset ?_, Finset.Subset.antisymm (lift _ (updated_subset within) ?_) ?_⟩
  · intro p live seeded
    rcases (mem_seed distinct live).mp seeded with before | hit
    · exact closed.earlier p live before
    · exact closed.policy p live hit
  · intro p live member
    rcases (mem_updated distinct live s).mp member with old | ⟨k, parent, same⟩
    · exact (members p live).mp old
    · obtain ⟨q, kept, rfl⟩ := List.mem_map.mp (List.mem_toFinset.mp parent)
      have live' := (List.mem_filter.mp kept).1
      exact closed.children p live q ((members q live').mp parent) same
  · exact Finset.subset_union_left

end Distinct

/-- **The exact closure.** For live processes with distinct identifiers the audit stops, lists each
process once and by identifier, and lists exactly the least closed set. -/
theorem restartAudit_isLeast (paths : List Text) (current previous : List Process)
    (distinct : (current.map Process.pid).Nodup) :
    ∃ result : List Process,
      (∀ fuel, current.length < fuel → restartAudit paths current previous fuel = some result) ∧
      result.Pairwise (fun p q => p.pid < q.pid) ∧
      IsLeast {affected | Closed paths current previous affected} {p | p ∈ result} := by
  have size : (keys current \ seed paths current previous).card ≤ current.length :=
    calc (keys current \ seed paths current previous).card
        ≤ (keys current).card := Finset.card_le_card Finset.sdiff_subset
      _ ≤ ((items current).map key).length := List.toFinset_card_le _
      _ ≤ current.length := by
        rw [List.length_map]
        exact List.length_filter_le _ _
  have grows : ∀ affected, affected ⊆ updated current affected := fun _ => Finset.subset_union_left
  have stops := settle_isLeast grows updated_mono fun _ => updated_subset
  obtain ⟨t, inside, -, ⟨above, fixed⟩, least⟩ :=
    stops (current.length + 1) _ seed_subset (Nat.lt_succ_of_le size)
  obtain ⟨result, read, back, live⟩ := mapM_find distinct (t.sort (· ≤ ·)) fun k member =>
    inside ((Finset.mem_sort _).mp member)
  have members : {p | p ∈ result} = {p | p ∈ current ∧ key p ∈ t} := by
    ext p
    have listed : key p ∈ t ↔ key p ∈ result.map key := by rw [back, Finset.mem_sort]
    constructor
    · exact fun member => ⟨live p member, listed.mpr (List.mem_map_of_mem member)⟩
    · rintro ⟨alive, member⟩
      obtain ⟨q, found, same⟩ := List.mem_map.mp (listed.mp member)
      rwa [← eq_of_pid distinct (live q found) alive (key_inj.mp same).1]
  refine ⟨result, fun fuel enough => ?_, ?_, ?_, ?_⟩
  · -- every run with fuel enough stops at the same least set
    obtain ⟨t', -, settled, least'⟩ := stops fuel _ seed_subset (Nat.lt_of_le_of_lt size enough)
    rw [restartAudit, settled, least'.unique ⟨⟨above, fixed⟩, least⟩]
    exact read
  · have ordered : (result.map key).Pairwise (· < ·) := back ▸ (Finset.sortedLT_sort t).pairwise
    rw [List.pairwise_map] at ordered
    refine ordered.imp_of_mem fun {p q} member member' less => ?_
    rcases Prod.Lex.lt_iff.mp less with earlier | ⟨same, later⟩
    · exact earlier
    · rw [eq_of_pid distinct (live p member) (live q member') same] at less
      exact absurd less (lt_irrefl _)
  · rw [members]
    exact closed_of_fixed distinct above fixed
  · intro affected closed p member
    obtain ⟨s, holds, above', fixed'⟩ := fixed_of_closed distinct closed
    rw [members] at member
    exact (holds p member.1).mp (least ⟨above', fixed'⟩ member.2)

/-! ## Poles -/

/-- A program of the policy that has been replaced on disk, its child, a stranger and a loop of parents. -/
def table : List Process :=
  [⟨30, 10, 5, "/bin/sh".toList⟩, ⟨10, 1, 2, "/opt/app (deleted)".toList⟩, ⟨40, 41, 6, "/bin/a".toList⟩,
    ⟨41, 40, 7, "/bin/b".toList⟩]

theorem restartAudit_isLeast_table : ∃ result : List Process,
    (∀ fuel, table.length < fuel → restartAudit ["/opt/app".toList] table [] fuel = some result) ∧
    result.Pairwise (fun p q => p.pid < q.pid) ∧
    IsLeast {affected | Closed ["/opt/app".toList] table [] affected} {p | p ∈ result} :=
  restartAudit_isLeast ["/opt/app".toList] table [] (by decide)

example : settle (updated table) 3 (seed ["/opt/app".toList] table []) = some {toLex (10, 2),
    toLex (30, 5)} := by
  decide

end ProgramSplit.Linux.RestartAudit
