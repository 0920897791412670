/-
# Lib.Run — labelled runs and their invariants

A component is given by its initial states and a labelled step relation. `Run`
collects the labels a run took, latest first, so a property of "what happened
since" is a property of a list prefix. `Run.invariant` is the one induction
every development below uses: an invariant may speak about the labels, and it
is enough that each step keeps it. `schedule` executes a list of actions of an
executable step, and `schedule_run` turns an executed schedule into a run.
-/
import Mathlib.Data.List.Basic

namespace ProgramSplit.Lib

set_option autoImplicit false

universe u v

variable {S : Type u} {L : Type v}

/-- A run from an initial state, with its labels latest first. -/
inductive Run (init : S → Prop) (step : S → L → S → Prop) : List L → S → Prop
  | start {s : S} (initial : init s) : Run init step [] s
  | next {ls : List L} {l : L} {s s' : S} (before : Run init step ls s) (taken : step s l s') :
      Run init step (l :: ls) s'

namespace Run

variable {init : S → Prop} {step : S → L → S → Prop}

/-- What holds initially and is kept by every step holds along every run. -/
theorem invariant (Inv : List L → S → Prop) (initial : ∀ s, init s → Inv [] s)
    (kept : ∀ ls l s s', Inv ls s → step s l s' → Inv (l :: ls) s') :
    ∀ {ls : List L} {s : S}, Run init step ls s → Inv ls s := by
  intro ls s run
  induction run with
  | start h => exact initial _ h
  | next _ taken ih => exact kept _ _ _ _ ih taken

/-- The same rule where steps are only known to keep the invariant from the
states of runs whose every step is admitted by `ok`. -/
theorem invariant_of_ok (ok : S → L → Prop) (Inv : List L → S → Prop)
    (initial : ∀ s, init s → Inv [] s)
    (kept : ∀ ls l s s', Inv ls s → ok s l → step s l s' → Inv (l :: ls) s') :
    ∀ {ls : List L} {s : S}, Run init (fun s l s' => ok s l ∧ step s l s') ls s → Inv ls s :=
  invariant Inv initial fun ls l s s' inv taken => kept ls l s s' inv taken.1 taken.2

end Run

section Schedules

variable {A : Type} (exec : S → A → Option (S × L)) (check : S → L → Bool)

/-- The labelled steps of an executable step function. -/
def Exec (s : S) (l : L) (s' : S) : Prop :=
  ∃ action, exec s action = some (s', l)

/-- Execute a schedule, collecting its labels latest first, as long as every step
passes `check`. -/
def schedule (s : S) : List A → List L → Option (S × List L)
  | [], ls => some (s, ls)
  | a :: rest, ls =>
    match exec s a with
    | some (s', l) => if check s l then schedule s' rest (l :: ls) else none
    | none => none

variable {exec check} {init : S → Prop} {step : S → L → S → Prop}
  (admits : ∀ s l s', check s l = true → Exec exec s l s' → step s l s')

include admits

theorem schedule_run : ∀ (actions : List A) {s s' : S} {ls ls' : List L}, Run init step ls s →
    schedule exec check s actions ls = some (s', ls') → Run init step ls' s'
  | [], s, s', ls, ls', run, done => by
    cases done
    exact run
  | a :: rest, s, s', ls, ls', run, done => by
    unfold schedule at done
    split at done
    · rename_i s₁ l taken
      split at done
      · rename_i passed
        exact schedule_run rest (run.next (admits _ _ _ passed ⟨a, taken⟩)) done
      · cases done
    · cases done

/-- A schedule that executes from an initial state shows a run with its labels. -/
theorem run_of_schedule (s : S) (initial : init s) (actions : List A) {ls : List L}
    (done : (schedule exec check s actions []).map Prod.snd = some ls) :
    ∃ s', Run init step ls s' := by
  obtain ⟨⟨s', _⟩, ran, rfl⟩ := Option.map_eq_some_iff.mp done
  exact ⟨s', schedule_run admits actions (.start initial) ran⟩

end Schedules

end ProgramSplit.Lib
