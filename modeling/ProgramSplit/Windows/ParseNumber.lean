/-
# Windows.ParseNumber — decimal records read without overflow

`wgps::parseDecimal` of `parse-number.h` on 64-bit words, and `checkedDecimal`: the same loop with every
difference, product and sum computed over the integers and refused when it does not fit a word.

* `foldlM_step` — the loop computes the value of the digits, or fails once it passes the maximum;
* `parseDecimal_exact` — exactly the digit strings up to the maximum are read, and nothing wraps.
-/
import ProgramSplit.Lib.Digits

namespace ProgramSplit.Windows.ParseNumber

set_option autoImplicit false

open Lib.Digits (isDigit digitsFrom)

abbrev Text := List UInt8

/-- One pass of the loop. A byte from 128 up is refused whether `char` is signed or not. -/
def step (maximum value : UInt64) (c : UInt8) : Option UInt64 :=
  if c < 48 ∨ 57 < c then none
  else
    let digit := (c - 48).toUInt64
    if maximum < digit ∨ (maximum - digit) / 10 < value then none else some (value * 10 + digit)

def parseDecimal (text : Text) (maximum : UInt64) : Option UInt64 :=
  if text = [] then none else text.foldlM (step maximum) 0

/-! ## The loop with every operation checked -/

/-- An integer result that does not fit a 64-bit word. -/
inductive Wrap where
  | wrap
  deriving DecidableEq, Repr

def word (n : Int) : Except Wrap UInt64 :=
  if 0 ≤ n ∧ n < 2 ^ 64 then .ok (UInt64.ofNat n.toNat) else .error .wrap

theorem word_eq {n : Int} {w : UInt64} (same : (w.toNat : Int) = n) : word n = .ok w := by
  have bound := w.toNat_lt
  rw [word, if_pos (by omega), ← same, Int.toNat_natCast, UInt64.ofNat_toNat]

theorem ok_bind {A B : Type} (a : A) (f : A → Except Wrap B) : (Except.ok a >>= f) = f a := rfl

def checkedStep (maximum value : UInt64) (c : UInt8) : Except Wrap (Option UInt64) :=
  if c < 48 ∨ 57 < c then .ok none
  else do
    let digit ← word ((c.toNat : Int) - 48)
    if maximum < digit then return none
    let room ← word ((maximum.toNat : Int) - digit.toNat)
    if room / 10 < value then return none
    let scaled ← word ((value.toNat : Int) * 10)
    let next ← word ((scaled.toNat : Int) + digit.toNat)
    return some next

def checkedLoop (maximum : UInt64) : Text → UInt64 → Except Wrap (Option UInt64)
  | [], value => .ok (some value)
  | c :: text, value => do
    match ← checkedStep maximum value c with
    | none => return none
    | some next => checkedLoop maximum text next

def checkedDecimal (text : Text) (maximum : UInt64) : Except Wrap (Option UInt64) :=
  if text = [] then .ok none else checkedLoop maximum text 0

section Pass

variable {maximum value : UInt64} {c : UInt8}

/-- A byte in the range of the digits gives its digit. -/
theorem toNat_digit (digits : ¬(c < 48 ∨ 57 < c)) : (c - 48).toUInt64.toNat + 48 = c.toNat := by
  have least := UInt8.le_iff_toNat_le.mp (UInt8.not_lt.mp (not_or.mp digits).1)
  rw [UInt8.toNat_toUInt64, UInt8.toNat_sub_of_le c 48 (UInt8.not_lt.mp (not_or.mp digits).1)]
  exact Nat.sub_add_cancel least

/-- The test of the loop, on numbers: it leaves room for the product and for the sum. -/
theorem room_iff {digit : UInt64} (below : ¬maximum < digit) :
    (maximum - digit) / 10 < value ↔ maximum.toNat < value.toNat * 10 + digit.toNat := by
  have le := UInt64.le_iff_toNat_le.mp (UInt64.not_lt.mp below)
  rw [UInt64.lt_iff_toNat_lt, UInt64.toNat_div, UInt64.toNat_sub_of_le _ _ (UInt64.not_lt.mp below)]
  show (maximum.toNat - digit.toNat) / 10 < value.toNat ↔ _
  omega

theorem toNat_next {digit : UInt64} (fits : value.toNat * 10 + digit.toNat ≤ maximum.toNat) :
    (value * 10).toNat = value.toNat * 10 ∧ (value * 10 + digit).toNat = value.toNat * 10 + digit.toNat := by
  have bound := maximum.toNat_lt
  have scaled : (value * 10).toNat = value.toNat * 10 := by
    show value.toNat * 10 % 2 ^ 64 = value.toNat * 10
    omega
  exact ⟨scaled, by rw [UInt64.toNat_add, scaled, Nat.mod_eq_of_lt (by omega)]⟩

/-- No operation of a pass wraps. -/
theorem checkedStep_eq : checkedStep maximum value c = .ok (step maximum value c) := by
  unfold checkedStep step
  split
  next => rfl
  next digits =>
    have digit : word ((c.toNat : Int) - 48) = .ok (c - 48).toUInt64 := by
      have := toNat_digit digits
      exact word_eq (by omega)
    rw [digit, ok_bind]
    generalize (c - 48).toUInt64 = digit
    by_cases above : maximum < digit
    · rw [if_pos above, if_pos (.inl above)]
      rfl
    · have le := UInt64.le_iff_toNat_le.mp (UInt64.not_lt.mp above)
      have room : word ((maximum.toNat : Int) - digit.toNat) = .ok (maximum - digit) := by
        have := UInt64.toNat_sub_of_le _ _ (UInt64.not_lt.mp above)
        exact word_eq (by omega)
      rw [if_neg above, room, ok_bind]
      by_cases past : (maximum - digit) / 10 < value
      · rw [if_pos past, if_pos (.inr past)]
        rfl
      · obtain ⟨scaled, sum⟩ := toNat_next (Nat.not_lt.mp ((room_iff above).not.mp past))
        rw [if_neg past, if_neg (not_or.mpr ⟨above, past⟩), word_eq (w := value * 10) (by omega), ok_bind,
          word_eq (w := value * 10 + digit) (by omega), ok_bind]
        rfl

theorem isDigit_iff : isDigit c = true ↔ ¬(c < 48 ∨ 57 < c) := by
  rw [isDigit, Bool.and_eq_true, decide_eq_true_iff, decide_eq_true_iff, not_or, UInt8.not_lt, UInt8.not_lt]

/-- What a pass computes, on numbers. -/
theorem step_eq_some {next : UInt64} : step maximum value c = some next ↔
    isDigit c = true ∧ next.toNat = value.toNat * 10 + (c.toNat - 48) ∧ next ≤ maximum := by
  unfold step
  rw [isDigit_iff, UInt64.le_iff_toNat_le]
  split
  next outside => simp [outside]
  next digits =>
    have digit := toNat_digit digits
    rw [show c.toNat - 48 = (c - 48).toUInt64.toNat by omega]
    generalize (c - 48).toUInt64 = digit
    by_cases above : maximum < digit
    · have wide := UInt64.lt_iff_toNat_lt.mp above
      simp only [if_pos (Or.inl above), reduceCtorEq, false_iff, not_and]
      omega
    · by_cases past : (maximum - digit) / 10 < value
      · have wide := (room_iff above).mp past
        simp only [if_pos (Or.inr past), reduceCtorEq, false_iff, not_and]
        omega
      · have fits := Nat.not_lt.mp ((room_iff above).not.mp past)
        rw [if_neg (not_or.mpr ⟨above, past⟩), Option.some.injEq, ← UInt64.toNat_inj, (toNat_next fits).2]
        constructor
        · intro same
          exact ⟨digits, same.symm, same ▸ fits⟩
        · exact fun ⟨_, same, _⟩ => same.symm

end Pass

theorem checkedLoop_eq (maximum : UInt64) (text : Text) (value : UInt64) :
    checkedLoop maximum text value = .ok (text.foldlM (step maximum) value) := by
  induction text generalizing value with
  | nil => rfl
  | cons c text ih =>
    rw [checkedLoop, checkedStep_eq, List.foldlM_cons]
    cases step maximum value c with
    | none => rfl
    | some next => exact ih next

/-! ## The value of the digits -/

theorem le_digitsFrom (text : Text) (value : Nat) : value ≤ digitsFrom 10 value text := by
  induction text generalizing value with
  | nil => exact Nat.le_refl _
  | cons c text ih =>
    have later := ih (value * 10 + (c.toNat - 48))
    show value ≤ digitsFrom 10 (value * 10 + (c.toNat - 48)) text
    omega

/-- What the loop keeps: the value so far is that of the digits so far, and it is at most the
maximum. Once it would pass the maximum no later digit can bring it back. -/
theorem foldlM_step (maximum : UInt64) (text : Text) :
    ∀ value ≤ maximum, ∀ result, text.foldlM (step maximum) value = some result ↔
      text.all isDigit = true ∧ digitsFrom 10 value.toNat text = result.toNat ∧ result ≤ maximum := by
  induction text with
  | nil =>
    intro value le result
    show some value = some result ↔ true = true ∧ value.toNat = result.toNat ∧ result ≤ maximum
    rw [Option.some.injEq, UInt64.toNat_inj]
    exact ⟨fun same => ⟨rfl, same, same ▸ le⟩, fun ⟨_, same, _⟩ => same⟩
  | cons c text ih =>
    intro value le result
    rw [List.foldlM_cons, List.all_cons, Bool.and_eq_true]
    show (step maximum value c).bind _ = some result ↔
      _ ∧ digitsFrom 10 (value.toNat * 10 + (c.toNat - 48)) text = result.toNat ∧ _
    rw [Option.bind_eq_some_iff]
    constructor
    · rintro ⟨next, taken, rest⟩
      obtain ⟨digit, same, fits⟩ := step_eq_some.mp taken
      obtain ⟨digits, denotes, bound⟩ := (ih _ fits result).mp rest
      exact ⟨⟨digit, digits⟩, same ▸ denotes, bound⟩
    · rintro ⟨⟨digit, digits⟩, denotes, bound⟩
      have fits : value.toNat * 10 + (c.toNat - 48) ≤ maximum.toNat :=
        Nat.le_trans (le_digitsFrom text _) (denotes ▸ UInt64.le_iff_toNat_le.mp bound)
      obtain ⟨next, same⟩ : ∃ next : UInt64, next.toNat = value.toNat * 10 + (c.toNat - 48) :=
        ⟨.ofNat _, UInt64.toNat_ofNat_of_lt' (Nat.lt_of_le_of_lt fits maximum.toNat_lt)⟩
      have fits' := UInt64.le_iff_toNat_le.mpr (same.trans_le fits)
      exact ⟨next, step_eq_some.mpr ⟨digit, same, fits'⟩,
        (ih _ fits' result).mpr ⟨digits, same ▸ denotes, bound⟩⟩

theorem parseDecimal_eq_some {text : Text} {maximum v : UInt64} : parseDecimal text maximum = some v ↔
    text ≠ [] ∧ text.all isDigit = true ∧ digitsFrom 10 0 text = v.toNat ∧ v ≤ maximum := by
  unfold parseDecimal
  by_cases empty : text = []
  · simp [empty]
  · rw [if_neg empty, foldlM_step _ _ 0 UInt64.zero_le, ne_eq, and_iff_right empty]
    rfl

/-- **Exactness.** `parseDecimal` reads exactly the nonempty runs of digits whose value is at most the
maximum, as that value, and computed over the integers none of its operations leaves the words. -/
theorem parseDecimal_exact (text : Text) (maximum : UInt64) :
    (∀ v : UInt64, parseDecimal text maximum = some v ↔
      text ≠ [] ∧ text.all isDigit = true ∧ digitsFrom 10 0 text = v.toNat ∧ v ≤ maximum) ∧
    checkedDecimal text maximum = .ok (parseDecimal text maximum) := by
  refine ⟨fun v => parseDecimal_eq_some, ?_⟩
  unfold checkedDecimal parseDecimal
  split
  · rfl
  · exact checkedLoop_eq maximum text 0

/-! ## Poles -/

-- "18446744073709551615" against the largest maximum, and one more
example : parseDecimal "18446744073709551615".toUTF8.data.toList 0xffffffffffffffff =
    some 0xffffffffffffffff := by
  decide +kernel

example : parseDecimal "18446744073709551616".toUTF8.data.toList 0xffffffffffffffff = none := by
  decide +kernel

end ProgramSplit.Windows.ParseNumber
