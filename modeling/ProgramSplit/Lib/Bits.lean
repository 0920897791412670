/-
# Lib.Bits — masks inside one another

`Within` orders masks by their bits: what is within a mask is apart from whatever the
mask is apart from.
-/
import Mathlib.Data.BitVec

namespace ProgramSplit.Lib

set_option autoImplicit false

variable {w : Nat} {u v m : BitVec w}

/-- Every bit of the first mask is a bit of the second. -/
def Within (u v : BitVec w) : Prop :=
  ∀ i, u.getLsbD i = true → v.getLsbD i = true

theorem Within.refl (u : BitVec w) : Within u u := fun _ h => h

theorem Within.trans (first : Within u v) (second : Within v m) : Within u m :=
  fun i h => second i (first i h)

theorem or_within : Within (u ||| v) m ↔ Within u m ∧ Within v m := by
  simp only [Within, BitVec.getLsbD_or, Bool.or_eq_true]
  exact ⟨fun both => ⟨fun i h => both i (.inl h), fun i h => both i (.inr h)⟩,
    fun both i h => h.elim (both.1 i) (both.2 i)⟩

theorem Within.and_eq_zero (within : Within u v) (apart : v &&& m = 0) : u &&& m = 0 := by
  refine BitVec.eq_of_getLsbD_eq fun i _ => ?_
  have bit := congrArg (·.getLsbD i) apart
  cases h : u.getLsbD i with
  | false => simp [h]
  | true => simpa [h, within i h] using bit

end ProgramSplit.Lib
