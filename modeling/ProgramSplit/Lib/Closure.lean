/-
# Lib.Closure — growing a finite set until nothing changes

A loop that replaces a set by a larger one until both are equal. `settle` is the loop with fuel; for a
monotone step inside a finite universe it needs one pass more than the universe has elements left, and
what it stops at is the least set that holds the seed and that the step leaves alone
(`settle_isLeast`).
-/
import Mathlib.Data.Finset.Card
import Mathlib.Order.Bounds.Basic

namespace ProgramSplit.Lib.Closure

set_option autoImplicit false

variable {K : Type} [DecidableEq K]

def settle (step : Finset K → Finset K) : Nat → Finset K → Option (Finset K)
  | 0, _ => none
  | fuel + 1, s => if step s = s then some s else settle step fuel (step s)

/-- **Least closed set.** With enough fuel the loop stops, at the least set above the seed that the step
leaves alone. -/
theorem settle_isLeast {step : Finset K → Finset K} (grows : ∀ s, s ⊆ step s) (mono : Monotone step)
    {univ : Finset K} (inside : ∀ s ⊆ univ, step s ⊆ univ) (fuel : Nat) :
    ∀ seed ⊆ univ, (univ \ seed).card < fuel →
      ∃ t ⊆ univ, settle step fuel seed = some t ∧ IsLeast {t | seed ⊆ t ∧ step t = t} t := by
  induction fuel with
  | zero =>
    intro seed _ enough
    exact absurd enough (Nat.not_lt_zero _)
  | succ fuel ih =>
    intro seed within enough
    by_cases stable : step seed = seed
    · refine ⟨seed, within, by rw [settle, if_pos stable], ⟨Finset.Subset.refl seed, stable⟩, ?_⟩
      exact fun t above => above.1
    · -- a pass that changes the set takes an element from what is left of the universe
      have fewer : (univ \ step seed).card < (univ \ seed).card := by
        apply Finset.card_lt_card
        obtain ⟨x, added, new⟩ := Finset.exists_of_ssubset ((grows seed).ssubset_of_ne (Ne.symm stable))
        refine ⟨Finset.sdiff_subset_sdiff (Finset.Subset.refl univ) (grows seed), fun back => ?_⟩
        have left := back (Finset.mem_sdiff.mpr ⟨inside seed within added, new⟩)
        exact (Finset.mem_sdiff.mp left).2 added
      obtain ⟨t, bounded, stops, ⟨above, fixed⟩, least⟩ := ih (step seed) (inside seed within) (by omega)
      refine ⟨t, bounded, by rw [settle, if_neg stable, stops], ⟨(grows seed).trans above, fixed⟩, ?_⟩
      rintro t' ⟨above', fixed'⟩
      exact least ⟨fixed' ▸ mono above', fixed'⟩

end ProgramSplit.Lib.Closure
