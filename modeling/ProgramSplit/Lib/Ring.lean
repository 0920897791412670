/-
# Lib.Ring — a fixed array of slots used as a queue

A `Ring` is an array of `capacity` slots with the place of the oldest item, the place
after the newest and their number; the two places agree with the number as part of the
type. `toList` reads the queue off the slots.

* `toList_push` — writing at the tail appends;
* `toList_pop` — taking from the head removes the first item.
-/
import Mathlib.Data.List.Basic
import Mathlib.Data.Nat.ModEq
import Mathlib.Logic.Function.Basic

namespace ProgramSplit.Lib

set_option autoImplicit false

/-- A ring of slots. -/
structure Ring (α : Type) (capacity : Nat) where
  slots : Nat → α
  head : Nat
  tail : Nat
  count : Nat
  head_lt : head < capacity
  tail_eq : tail = (head + count) % capacity

namespace Ring

variable {α : Type} {capacity : Nat}

def empty (blank : α) (positive : 0 < capacity) : Ring α capacity where
  slots _ := blank
  head := 0
  tail := 0
  count := 0
  head_lt := positive
  tail_eq := by simp

/-- The items, oldest first. -/
def toList (r : Ring α capacity) : List α :=
  (List.range r.count).map fun k => r.slots ((r.head + k) % capacity)

@[simp] theorem length_toList (r : Ring α capacity) : r.toList.length = r.count := by
  simp [toList]

theorem toList_eq_nil (r : Ring α capacity) : r.toList = [] ↔ r.count = 0 := by
  rw [← List.length_eq_zero_iff, length_toList]

/-- Two places fewer than `capacity` apart are different slots. -/
theorem slot_ne {h i j : Nat} (less : i < j) (near : j < capacity) :
    (h + i) % capacity ≠ (h + j) % capacity := by
  intro same
  have shifted : i ≡ j [MOD capacity] := Nat.ModEq.add_left_cancel' h same
  rw [Nat.ModEq, Nat.mod_eq_of_lt (less.trans near), Nat.mod_eq_of_lt near] at shifted
  omega

/-- Write at the tail. -/
def push (r : Ring α capacity) (x : α) : Ring α capacity where
  slots := Function.update r.slots r.tail x
  head := r.head
  tail := (r.tail + 1) % capacity
  count := r.count + 1
  head_lt := r.head_lt
  tail_eq := by rw [r.tail_eq, Nat.mod_add_mod, Nat.add_assoc]

theorem toList_push (r : Ring α capacity) (x : α) (room : r.count < capacity) :
    (r.push x).toList = r.toList ++ [x] := by
  unfold toList push
  dsimp only
  rw [List.range_succ, List.map_append, List.map_singleton, r.tail_eq, Function.update_self]
  congr 1
  apply List.map_congr_left
  intro k mem
  exact Function.update_of_ne (slot_ne (List.mem_range.mp mem) room) _ _

/-- Take from the head, leaving `blank` in its slot. -/
def pop (r : Ring α capacity) (blank : α) (some_ : 0 < r.count) : Ring α capacity where
  slots := Function.update r.slots r.head blank
  head := (r.head + 1) % capacity
  tail := r.tail
  count := r.count - 1
  head_lt := Nat.mod_lt _ (Nat.zero_lt_of_lt r.head_lt)
  tail_eq := by
    rw [r.tail_eq, Nat.mod_add_mod]
    congr 1
    omega

theorem toList_pop (r : Ring α capacity) (blank : α) (some_ : 0 < r.count) (full : r.count ≤ capacity) :
    r.toList = r.slots r.head :: (r.pop blank some_).toList := by
  obtain ⟨n, count⟩ : ∃ n, r.count = n + 1 := ⟨r.count - 1, by omega⟩
  have left : (r.pop blank some_).count = n := by simp [pop, count]
  unfold toList
  rw [count, left, List.range_succ_eq_map, List.map_cons, List.map_map]
  congr 1
  · rw [Nat.add_zero, Nat.mod_eq_of_lt r.head_lt]
  · apply List.map_congr_left
    intro k mem
    have apart : (r.head + 0) % capacity ≠ (r.head + (k + 1)) % capacity :=
      slot_ne (Nat.succ_pos k) (by have := List.mem_range.mp mem; omega)
    have place : ((r.head + 1) % capacity + k) % capacity = (r.head + (k + 1)) % capacity := by
      rw [Nat.mod_add_mod, Nat.add_assoc, Nat.add_comm 1 k]
    simp only [Function.comp_apply, pop, place]
    rw [Nat.add_zero, Nat.mod_eq_of_lt r.head_lt] at apart
    exact (Function.update_of_ne apart.symm _ _).symm

end Ring

end ProgramSplit.Lib
