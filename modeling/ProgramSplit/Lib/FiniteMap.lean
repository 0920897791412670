/-
# Lib.FiniteMap — erasing by value from an association list

`AList` is Mathlib's finite map. The one operation it lacks and the components
below need is `eraseIf`: drop every entry whose value satisfies a test.
-/
import Mathlib.Data.List.AList

namespace ProgramSplit.Lib

set_option autoImplicit false

/-- A finite map with values of one type. -/
abbrev FiniteMap (K V : Type) := AList fun _ : K => V

namespace FiniteMap

variable {K V : Type} [DecidableEq K]

/-- Drop every entry whose value satisfies `gone`. -/
def eraseIf (gone : V → Bool) (m : FiniteMap K V) : FiniteMap K V :=
  ⟨m.entries.filter fun e => !gone e.2, m.nodupKeys.sublist List.filter_sublist⟩

theorem dlookup_filter (gone : V → Bool) (k : K) :
    ∀ l : List (Sigma fun _ : K => V), l.NodupKeys →
      (l.filter fun e => !gone e.2).dlookup k = (l.dlookup k).filter fun v => !gone v
  | [], _ => rfl
  | ⟨k', v⟩ :: l, nodup => by
    have rest := dlookup_filter gone k l (List.nodupKeys_cons.mp nodup).2
    by_cases same : k = k'
    · subst same
      have absent : l.dlookup k = none :=
        List.dlookup_eq_none.mpr (List.nodupKeys_cons.mp nodup).1
      rw [absent] at rest
      cases h : gone v <;> simp [h, List.dlookup_cons_eq, rest, Option.filter]
    · cases h : gone v <;> simp [h, List.dlookup_cons_ne, same, rest]

@[simp] theorem lookup_eraseIf (gone : V → Bool) (k : K) (m : FiniteMap K V) :
    (eraseIf gone m).lookup k = (m.lookup k).filter fun v => !gone v :=
  dlookup_filter gone k m.entries m.nodupKeys

theorem lookup_insert_of (k k' : K) (v : V) (m : FiniteMap K V) :
    (AList.insert k' v m).lookup k = if k = k' then some v else m.lookup k := by
  by_cases same : k = k'
  · subst same; simp
  · simp [AList.lookup_insert_ne same, same]

theorem lookup_erase_of (k k' : K) (m : FiniteMap K V) :
    (AList.erase k' m).lookup k = if k = k' then none else m.lookup k := by
  by_cases same : k = k'
  · subst same; simp
  · simp [AList.lookup_erase_ne same, same]

end FiniteMap

end ProgramSplit.Lib
