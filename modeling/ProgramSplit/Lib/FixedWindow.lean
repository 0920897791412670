/-
# Lib.FixedWindow — limits that count in fixed windows

A limiter grants at most `cap` requests in a window of a fixed length and opens the next window with
the first request after the last one has run out.  Windows do not overlap, but a span of time may
meet two of them.

* `Admissible` — what one grant looks like to those before it.
* `count_start_le` — **at most `cap` grants in each window.**
* `count_span_le` — **at most `2 * cap` grants in any span as long as a window.**
-/
import ProgramSplit.Lib.Trace
import Mathlib.Data.List.Count

namespace ProgramSplit.Lib

set_option autoImplicit false

/-- A grant, with the start of the window it was counted in. -/
structure Grant where
  time : Nat
  start : Nat
  deriving DecidableEq, Repr

namespace Grant

/-- The grant lies in its window, which is that of an earlier grant or begins after its end, and
there is room in it. -/
structure Admissible (length cap : Nat) (grant : Grant) (earlier : List Grant) : Prop where
  opened : grant.start ≤ grant.time
  running : grant.time < grant.start + length
  apart : ∀ other ∈ earlier, other.start = grant.start ∨ other.start + length ≤ grant.start
  room : earlier.countP (fun other => other.start == grant.start) < cap

theorem countP_or_le {α : Type} (p q : α → Bool) (list : List α) :
    list.countP (fun a => p a || q a) ≤ list.countP p + list.countP q := by
  induction list with
  | nil => exact Nat.le_refl _
  | cons a list ih =>
    simp only [List.countP_cons]
    cases p a <;> cases q a <;> simp <;> omega

variable {length cap : Nat} {grants : List Grant} (verified : Verified (Admissible length cap) grants)

include verified

theorem running_of_mem {grant : Grant} (member : grant ∈ grants) :
    grant.start ≤ grant.time ∧ grant.time < grant.start + length := by
  induction grants with
  | nil => cases member
  | cons latest earlier ih =>
    rcases List.mem_cons.mp member with rfl | member
    · exact ⟨verified.1.opened, verified.1.running⟩
    · exact ih verified.2 member

/-- Two windows are the same or do not overlap. -/
theorem apart_of_mem {grant other : Grant} (member : grant ∈ grants) (member' : other ∈ grants) :
    grant.start = other.start ∨ grant.start + length ≤ other.start ∨ other.start + length ≤ grant.start := by
  induction grants with
  | nil => cases member
  | cons latest earlier ih =>
    rcases List.mem_cons.mp member with rfl | before <;> rcases List.mem_cons.mp member' with rfl | before'
    · exact .inl rfl
    · rcases verified.1.apart other before' with same | apart
      · exact .inl same.symm
      · exact .inr (.inr apart)
    · rcases verified.1.apart grant before with same | apart
      · exact .inl same
      · exact .inr (.inl apart)
    · exact ih verified.2 before before'

theorem count_start_le (start : Nat) :
    grants.countP (fun grant => grant.start == start) ≤ cap := by
  induction grants with
  | nil => exact Nat.zero_le _
  | cons latest earlier ih =>
    rw [List.countP_cons]
    split
    · rename_i same
      rw [← eq_of_beq same]
      exact verified.1.room
    · exact ih verified.2

/-- Any three windows that a span meets are not all different. -/
theorem two_starts (from_ : Nat) :
    ∃ first second, ∀ grant ∈ grants, from_ ≤ grant.time → grant.time ≤ from_ + length →
      grant.start = first ∨ grant.start = second := by
  by_cases meets : ∃ grant ∈ grants, from_ ≤ grant.time ∧ grant.time ≤ from_ + length
  · obtain ⟨one, member₁, after₁, until₁⟩ := meets
    by_cases another : ∃ grant ∈ grants, from_ ≤ grant.time ∧ grant.time ≤ from_ + length ∧
      grant.start ≠ one.start
    · obtain ⟨two, member₂, after₂, until₂, differ⟩ := another
      refine ⟨one.start, two.start, fun three member₃ after₃ until₃ => ?_⟩
      have bounds₁ := running_of_mem verified member₁
      have bounds₂ := running_of_mem verified member₂
      have bounds₃ := running_of_mem verified member₃
      have apart₁₂ := apart_of_mem verified member₁ member₂
      have apart₁₃ := apart_of_mem verified member₁ member₃
      have apart₂₃ := apart_of_mem verified member₂ member₃
      omega
    · refine ⟨one.start, one.start, fun other member after until_ => .inl ?_⟩
      by_contra differ
      exact another ⟨other, member, after, until_, differ⟩
  · exact ⟨0, 0, fun grant member after until_ => absurd ⟨grant, member, after, until_⟩ meets⟩

theorem count_span_le (from_ : Nat) :
    grants.countP (fun grant => decide (from_ ≤ grant.time) &&
      decide (grant.time ≤ from_ + length)) ≤ 2 * cap := by
  obtain ⟨first, second, only⟩ := two_starts verified from_
  calc grants.countP (fun grant => decide (from_ ≤ grant.time) && decide (grant.time ≤ from_ + length))
      ≤ grants.countP (fun grant => grant.start == first || grant.start == second) := by
        refine List.countP_mono_left fun grant member inside => ?_
        simp only [Bool.and_eq_true, decide_eq_true_eq] at inside
        simpa using only grant member inside.1 inside.2
    _ ≤ grants.countP (fun grant => grant.start == first) + grants.countP
      (fun grant => grant.start == second) :=
        countP_or_le _ _ _
    _ ≤ 2 * cap := by
        have one := count_start_le verified first
        have two := count_start_le verified second
        omega

end Grant

end ProgramSplit.Lib
