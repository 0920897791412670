/-
# Lib.MapViews — the entries of a finite map that satisfy a test

A store of objects that belong to several owners is a finite map; what one owner sees of it is the
list of entries whose values pass a test, and what it must leave alone are the values that fail it.

* `pairs`, `values` — the entries as a list; the values that satisfy a test.
* `SameOn` — two maps hold the same values of one kind.
* `eraseAll` — a map without some keys.
* `filter_flatMap_perm` — enumerating group by group finds what one pass finds.
-/
import ProgramSplit.Lib.FiniteMap
import Mathlib.Data.List.Perm.Subperm

namespace ProgramSplit.Lib

set_option autoImplicit false

/-! ## Enumeration group by group -/

section Groups

variable {α β : Type}

theorem filter_append_filter_perm {p q : α → Bool} (disjoint : ∀ x, p x = true → q x = false) :
    ∀ xs : List α, (xs.filter p ++ xs.filter q).Perm (xs.filter fun x => p x || q x)
  | [] => List.Perm.refl _
  | x :: xs => by
    have rest := filter_append_filter_perm disjoint xs
    cases inP : p x with
    | true =>
      have notQ := disjoint x inP
      simpa [inP, notQ] using rest
    | false =>
      cases inQ : q x with
      | true =>
        simp only [List.filter_cons, inP, inQ, Bool.false_eq_true, if_false, if_true,
          Bool.false_or]
        exact List.perm_middle.trans (rest.cons x)
      | false => simpa [inP, inQ] using rest

/-- The elements of each group, one group after another, are the elements of all of them. -/
theorem filter_flatMap_perm [DecidableEq β] (p : α → Bool) (group : α → β) (xs : List α) :
    ∀ {groups : List β}, groups.Nodup →
      (groups.flatMap fun g => xs.filter fun x => p x && group x == g).Perm
        (xs.filter fun x => p x && decide (group x ∈ groups))
  | [], _ => by simp
  | g :: groups, nodup => by
    obtain ⟨fresh, rest⟩ := List.nodup_cons.mp nodup
    have disjoint : ∀ x, (p x && group x == g) = true →
        (p x && decide (group x ∈ groups)) = false := by
      intro x inGroup
      have isG : group x = g := eq_of_beq (Bool.and_eq_true _ _ ▸ inGroup).2
      simp [isG, fresh]
    rw [List.flatMap_cons]
    refine ((filter_flatMap_perm p group xs rest).append_left _).trans ?_
    refine (filter_append_filter_perm disjoint xs).trans (List.Perm.of_eq ?_)
    congr 1
    funext x
    by_cases isG : group x = g
    · cases p x <;> simp [isG]
    · simp [isG]

end Groups

variable {K V : Type} [DecidableEq K]

/-! ## Entries as lists -/

/-- The entries of a map. -/
def pairs (m : FiniteMap K V) : List (K × V) :=
  m.entries.map fun entry => (entry.1, entry.2)

variable {m : FiniteMap K V} {k : K} {v : V}

theorem mem_pairs : (k, v) ∈ pairs m ↔ m.lookup k = some v := by
  rw [pairs, List.mem_map]
  constructor
  · rintro ⟨⟨k', v'⟩, member, equal⟩
    obtain ⟨rfl, rfl⟩ := Prod.mk.inj equal
    exact AList.mem_lookup_iff.mpr member
  · intro present
    exact ⟨⟨k, v⟩, AList.mem_lookup_iff.mp present, rfl⟩

omit [DecidableEq K] in
theorem pairs_nodup (m : FiniteMap K V) : (pairs m).Nodup := by
  refine List.Nodup.map ?_ (List.NodupKeys.nodup m.nodupKeys)
  rintro ⟨k, v⟩ ⟨k', v'⟩ equal
  obtain ⟨rfl, rfl⟩ := Prod.mk.inj equal
  rfl

/-- The entries that satisfy a test are known once their keys and values are. -/
theorem filter_pairs_perm (m : FiniteMap K V) (test : V → Bool) (known : List (K × V))
    (nodup : known.Nodup) (mem : ∀ k v, (k, v) ∈ known ↔ m.lookup k = some v ∧ test v = true) :
    ((pairs m).filter fun entry => test entry.2).Perm known := by
  rw [List.perm_ext_iff_of_nodup ((pairs_nodup m).filter _) nodup]
  rintro ⟨k, v⟩
  rw [List.mem_filter, mem_pairs, mem]

/-- The values of a map that satisfy a test. -/
def values (test : V → Bool) (m : FiniteMap K V) : List V :=
  ((pairs m).filter fun entry => test entry.2).map fun entry => entry.2

variable {test : V → Bool}

theorem mem_values :
    v ∈ values test m ↔ ∃ k, m.lookup k = some v ∧ test v = true := by
  simp only [values, List.mem_map, List.mem_filter]
  constructor
  · rintro ⟨⟨k, v'⟩, ⟨member, passes⟩, rfl⟩
    exact ⟨k, mem_pairs.mp member, passes⟩
  · rintro ⟨k, present, passes⟩
    exact ⟨(k, v), ⟨mem_pairs.mpr present, passes⟩, rfl⟩

theorem values_eq_nil
    (absent : ∀ k v, m.lookup k = some v → test v = false) : values test m = [] := by
  rw [List.eq_nil_iff_forall_not_mem]
  intro v member
  obtain ⟨k, present, passes⟩ := mem_values.mp member
  rw [absent k v present] at passes
  exact Bool.noConfusion passes

theorem values_insert
    (free : m.lookup k = none) :
    values test (AList.insert k v m) = (if test v then [v] else []) ++ values test m := by
  have absent : k ∉ m := AList.lookup_eq_none.mp free
  rw [values, pairs, AList.entries_insert_of_notMem absent]
  by_cases passes : test v = true
  · simp [values, pairs, passes]
  · simp [values, pairs, passes]

/-- Replacing a value replaces it in the list of values. -/
theorem values_replace (test : V → Bool) (v' : V)
    (present : m.lookup k = some v) :
    ∃ others, (values test m).Perm ((if test v then [v] else []) ++ others) ∧
      (values test (AList.insert k v' m)).Perm ((if test v' then [v'] else []) ++ others) := by
  have inKeys : k ∈ m.entries.keys := List.mem_keys_of_mem (AList.mem_lookup_iff.mp present)
  obtain ⟨w, front, back, -, shape, erased⟩ := List.exists_of_kerase inKeys
  have isValue : w = v := by
    have member : (⟨k, w⟩ : Sigma fun _ : K => V) ∈ m.entries := by
      rw [shape]
      simp
    have found : m.lookup k = some w := AList.mem_lookup_iff.mpr member
    rw [found] at present
    exact Option.some.inj present
  subst isValue
  refine ⟨(((front ++ back).map fun entry => (entry.1, entry.2)).filter fun entry =>
    test entry.2).map fun entry => entry.2, ?_, ?_⟩
  · have middle : (pairs m).Perm ((k, w) :: (front ++ back).map fun entry => (entry.1, entry.2)) := by
      rw [pairs, shape]
      exact List.perm_middle.map _
    refine ((middle.filter _).map _).trans ?_
    by_cases passes : test w = true
    · simp [passes]
    · simp [passes]
  · rw [values, pairs, AList.entries_insert, erased]
    by_cases passes : test v' = true
    · simp [passes]
    · simp [passes]

/-! ## Values that stay -/

/-- The values that satisfy the test are the same in both maps. -/
def SameOn (test : V → Bool) (m m' : FiniteMap K V) : Prop :=
  ∀ k v, test v = true → (m'.lookup k = some v ↔ m.lookup k = some v)

theorem SameOn.trans {m m' m'' : FiniteMap K V} (first : SameOn test m m')
    (second : SameOn test m' m'') : SameOn test m m'' :=
  fun k v passes => (second k v passes).trans (first k v passes)

theorem SameOn.insert
    (free : m.lookup k = none) (fails : test v = false) : SameOn test m (AList.insert k v m) := by
  intro k' v' passes
  rw [FiniteMap.lookup_insert_of]
  split
  next same =>
    subst same
    constructor
    · intro equal
      rw [← Option.some.inj equal, fails] at passes
      exact Bool.noConfusion passes
    · intro present
      rw [free] at present
      cases present
  next => exact Iff.rfl

/-- A map without the given keys. -/
def eraseAll (ks : List K) (m : FiniteMap K V) : FiniteMap K V :=
  ks.foldl (fun m k => m.erase k) m

theorem lookup_eraseAll (ks : List K) (m : FiniteMap K V) (k : K) :
    (eraseAll ks m).lookup k = if k ∈ ks then none else m.lookup k := by
  induction ks generalizing m with
  | nil => rfl
  | cons k' ks ih =>
    show (eraseAll ks (m.erase k')).lookup k = _
    rw [ih, FiniteMap.lookup_erase_of]
    by_cases same : k = k'
    · simp [same]
    · simp [same]

theorem lookup_eraseAll_some {ks : List K} :
    (eraseAll ks m).lookup k = some v ↔ k ∉ ks ∧ m.lookup k = some v := by
  rw [lookup_eraseAll]
  split
  next member => simp [member]
  next fresh => simp [fresh]

theorem SameOn.eraseAll {ks : List K}
    (fail : ∀ k ∈ ks, ∀ v, m.lookup k = some v → test v = false) :
    SameOn test m (eraseAll ks m) := by
  intro k v passes
  rw [lookup_eraseAll_some]
  constructor
  · exact And.right
  · intro present
    refine ⟨fun member => ?_, present⟩
    rw [fail k member v present] at passes
    exact Bool.noConfusion passes

end ProgramSplit.Lib
