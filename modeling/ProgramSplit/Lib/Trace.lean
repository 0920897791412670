/-
# Lib.Trace — histories that carry their own evidence

A history is a list of records, latest first.  `Streak` says that its latest records, down to an
oldest one, all have a property and follow each other closely enough: it is what a counter and the
time of its first increment stand for.  `Verified` says that every record is justified by the
records before it, so that a policy on whole runs is one statement about a record and its past.
-/
import Mathlib.Data.List.Basic

namespace ProgramSplit.Lib

set_option autoImplicit false

universe u

variable {R : Type u}

/-- The latest `count` records all satisfy `P`, each follows the one before it as `rel` says, and
`oldest` is the first of them. -/
inductive Streak (P : R → Prop) (rel : R → R → Prop) : List R → Nat → R → Prop
  | first {record : R} {earlier : List R} (holds : P record) : Streak P rel (record :: earlier) 1 record
  | more {record latest oldest : R} {earlier : List R} {count : Nat} (holds : P record)
      (follows : rel record latest) (streak : Streak P rel (latest :: earlier) count oldest) :
      Streak P rel (record :: latest :: earlier) (count + 1) oldest

namespace Streak

variable {P : R → Prop} {rel : R → R → Prop} {history : List R} {count : Nat} {oldest : R}

/-- One more record, where records need not follow each other in any way. -/
theorem next {record : R} (holds : P record) (streak : Streak P (fun _ _ => True) history count oldest) :
    Streak P (fun _ _ => True) (record :: history) (count + 1) oldest := by
  cases streak with
  | first before => exact .more holds trivial (.first before)
  | more before follows streak => exact .more holds trivial (.more before follows streak)

theorem mem (streak : Streak P rel history count oldest) : oldest ∈ history := by
  induction streak with
  | first _ => exact List.mem_cons_self
  | more _ _ _ ih => exact List.mem_cons_of_mem _ ih

theorem latest {record : R} {earlier : List R} (streak : Streak P rel (record :: earlier) count oldest) :
    P record := by
  cases streak with
  | first holds => exact holds
  | more holds _ _ => exact holds

end Streak

/-- Every record is justified by those before it. -/
def Verified (justified : R → List R → Prop) : List R → Prop
  | [] => True
  | record :: earlier => justified record earlier ∧ Verified justified earlier

end ProgramSplit.Lib
