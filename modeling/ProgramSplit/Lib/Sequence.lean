/-
# Lib.Sequence — sequences of calls on a state

Calls that are made one after the other, each on the state the one before has left. A property of a
call on a state holds of `Each` call of a sequence.

* `each_of_inv` — what an invariant gives for one call it gives for each;
* `each_imp` — one property of the calls gives another, if it keeps an invariant under which it does;
* `each_iff` — two properties that agree under an invariant, which one of them keeps, agree for every
  sequence;
* `run_of_each` — calls that a step relation admits make a run.
-/
import ProgramSplit.Lib.Run

namespace ProgramSplit.Lib

set_option autoImplicit false

section Sequence

variable {S A : Type} (next : S → A → S)

/-- Every call of a sequence meets `P`, in the state it is made in. -/
def Each (P : S → A → Prop) : S → List A → Prop
  | _, [] => True
  | s, a :: rest => P s a ∧ Each P (next s a) rest

variable {next} {P Q : S → A → Prop} (Inv : S → Prop)

theorem each_of_inv (kept : ∀ s a, Inv s → Inv (next s a)) (given : ∀ s a, Inv s → P s a) (calls : List A) :
    ∀ {s : S}, Inv s → Each next P s calls := by
  induction calls with
  | nil => exact fun _ => trivial
  | cons a rest ih => exact fun {s} inv => ⟨given s a inv, ih (kept s a inv)⟩

theorem each_imp (kept : ∀ s a, Inv s → P s a → Inv (next s a)) (given : ∀ s a, Inv s → P s a → Q s a)
    (calls : List A) : ∀ {s : S}, Inv s → Each next P s calls → Each next Q s calls := by
  induction calls with
  | nil => exact fun _ _ => trivial
  | cons a rest ih =>
    rintro s inv ⟨here, later⟩
    exact ⟨given s a inv here, ih (kept s a inv here) later⟩

theorem each_of_forall {given : A → Prop} {calls : List A} (all : ∀ a ∈ calls, given a) (s : S) :
    Each next (fun _ a => given a) s calls := by
  induction calls generalizing s with
  | nil => trivial
  | cons a rest ih =>
    exact ⟨all a List.mem_cons_self, ih (fun b mem => all b (List.mem_cons_of_mem _ mem)) (next s a)⟩

theorem each_iff (kept : ∀ s a, Inv s → P s a → Inv (next s a)) (agree : ∀ s a, Inv s → (P s a ↔ Q s a))
    (calls : List A) {s : S} (inv : Inv s) : Each next P s calls ↔ Each next Q s calls := by
  -- Whichever side is given, a call meets `P`, so the next one starts from the invariant.
  constructor
  · exact each_imp Inv kept (fun s a inv => (agree s a inv).mp) calls inv
  · refine each_imp Inv (fun s a inv here => ?_) (fun s a inv => (agree s a inv).mpr) calls inv
    exact kept s a inv ((agree s a inv).mpr here)

/-- Admitted calls from a state of a run go on with it. -/
theorem run_of_each {init : S → Prop} {step : S → A → S → Prop} (taken : ∀ s a, P s a → step s a (next s a)) :
    ∀ (calls : List A) {s : S} {ls : List A}, Run init step ls s → Each next P s calls →
      ∃ ls', Run init step ls' (calls.foldl next s)
  | [], _, ls, run, _ => ⟨ls, run⟩
  | _ :: rest, _, _, run, each => run_of_each taken rest (run.next (taken _ _ each.1)) each.2

end Sequence

end ProgramSplit.Lib
