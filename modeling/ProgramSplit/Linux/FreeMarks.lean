/-
# Linux.FreeMarks — the mark bits the controller takes for itself

`allocate` of `network.py` takes two mark bits that no foreign rule was found to use
(`freeMask_free`), and the first free priority, table and conntrack zone.
-/
import ProgramSplit.Linux.IptablesMarks

namespace ProgramSplit.Linux

open Lib

set_option autoImplicit false

/-! ## `allocate` -/

/-- The fields of an `Inventory` that `allocate` reads. -/
structure Inventory where
  usedMask : Mark
  tables : List Nat
  priorities : List Nat
  zones : List Nat

structure Allocation where
  mask : Mark
  mark : Mark
  outerMark : Mark
  routingTable : Nat
  priority : Nat
  zone : Nat
  deriving DecidableEq, Repr

def bitCount (m : Mark) : Nat := (List.range 32).countP m.getLsbD

/-- `Allocation.__post_init__`, apart from the two constant names. -/
def Allocation.valid (a : Allocation) : Bool :=
  0 < a.mask ∧ bitCount a.mask = 2 ∧ bitCount a.mark = 1 ∧ bitCount a.outerMark = 1 ∧
    a.mark ≠ a.outerMark ∧ a.mark ||| a.outerMark = a.mask ∧
    57000 ≤ a.routingTable ∧ a.routingTable ≤ 57999 ∧ 1 ≤ a.priority ∧ a.priority ≤ 1000 ∧
    1 ≤ a.zone ∧ a.zone ≤ 65535

/-- The bits no rule was found to use, lowest first. -/
def freeBits (used : Mark) : List Mark :=
  ((List.range 32).map fun bit => (1 : Mark) <<< bit).filter fun bit => used &&& bit = 0

def preferredMask : Mark := 0x03000000

/-- The preferred pair of bits if it is free, and else the two lowest free bits. -/
def freeMask (used : Mark) : Option Mark :=
  match freeBits used with
  | first :: second :: _ =>
    some (if used &&& preferredMask = 0 then preferredMask else first ||| second)
  | _ => none

def firstFree (start count : Nat) (taken : List Nat) : Option Nat :=
  (List.range' start count).find? (· ∉ taken)

def freePriority (priorities : List Nat) : Option Nat :=
  let firstForeign := (priorities.filter (· ≠ 0)).min?.getD 1001
  firstFree 1 (min 1001 firstForeign - 1) priorities

/-- `allocate`. -/
def allocate (inventory : Inventory) : Except Failure Allocation :=
  match freeMask inventory.usedMask with
  | none => .error (.network "no two collision-free socket mark bits are available")
  | some mask =>
    match freePriority inventory.priorities, firstFree 57000 1000 inventory.tables,
        firstFree 1 65535 inventory.zones with
    | some priority, some table, some zone =>
      let mark := mask &&& -mask
      let a : Allocation := ⟨mask, mark, mask ^^^ mark, table, priority, zone⟩
      if a.valid then .ok a else .error (.network "invalid internal network allocation")
    | _, _, _ =>
      .error (.network "no free routing priority, table, or conntrack zone is available")

theorem freeMask_free {used mask : Mark} (found : freeMask used = some mask) : used &&& mask = 0 := by
  unfold freeMask at found
  split at found
  · rename_i first second rest free
    have isFree : ∀ bit ∈ freeBits used, used &&& bit = 0 := by
      intro bit mem
      simpa using (List.mem_filter.mp mem).2
    have one : used &&& first = 0 := isFree first (by simp [free])
    have two : used &&& second = 0 := isFree second (by simp [free])
    split_ifs at found with preferred
    · cases found
      exact preferred
    · cases found
      rw [BitVec.and_or_distrib_left, one, two, BitVec.or_self]
  · cases found

end ProgramSplit.Linux
