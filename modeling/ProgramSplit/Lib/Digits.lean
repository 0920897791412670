/-
# Lib.Digits — numbers and bytes as text, and words behind a separator

Programs compare objects by the texts they print of them.  What such a comparison decides rests on
a few facts about printing.

* `decimal_inj`, `hexFixed_inj`, `hexBytes_inj` — a number or a byte string is determined by its
  digits.
* `spaced_inj` — words that do not hold the separator are determined by the text that joins them.
* `perm_of_map_perm` — lists whose images agree up to order agree up to order, where the image
  determines the elements of one of them.
* `insertionSort_eq_of_perm` — sorting forgets the order a list came in.
-/
import Mathlib.Data.List.Basic
import Mathlib.Data.List.Induction
import Mathlib.Data.List.Perm.Basic
import Mathlib.Data.List.Sort
import Mathlib.Tactic.Ring

namespace ProgramSplit.Lib.Digits

set_option autoImplicit false

/-! ## Decimal numbers -/

/-- The decimal digits of a number. -/
def decimal (n : Nat) : List Char :=
  Nat.toDigits 10 n

theorem isDigit_of_mem_decimal {n : Nat} {c : Char} (member : c ∈ decimal n) : c.isDigit = true :=
  Nat.isDigit_of_mem_toDigits (by decide) (by decide) member

theorem digitChar_inj {m n : Nat} (small : m < 16) (small' : n < 16)
    (same : m.digitChar = n.digitChar) : m = n := by
  have table : ∀ m < 16, ∀ n < 16, m.digitChar = n.digitChar → m = n := by decide
  exact table m small n small' same

theorem decimal_inj {m n : Nat} (same : decimal m = decimal n) : m = n := by
  induction m using Nat.strong_induction_on generalizing n with
  | _ m ih =>
    unfold decimal at same ih
    rw [Nat.toDigits_eq_if (by decide), Nat.toDigits_eq_if (by decide) (n := n)] at same
    split at same
    next smallM =>
      split at same
      next smallN => exact digitChar_inj (by omega) (by omega) (List.cons.inj same).1
      next =>
        have lengths := congrArg List.length same
        simp at lengths
    next =>
      split at same
      next =>
        have lengths := congrArg List.length same
        simp at lengths
      next =>
        obtain ⟨front, last⟩ := List.append_inj' same rfl
        have quotient := ih (m / 10) (by omega) front
        have digit := digitChar_inj (by omega) (by omega) (List.cons.inj last).1
        omega

/-! ## Runs of digit bytes -/

def isDigit (c : UInt8) : Bool :=
  48 ≤ c && c ≤ 57

/-- The number a run of digits denotes to a base, behind the digits of `value`. -/
def digitsFrom (base value : Nat) (text : List UInt8) : Nat :=
  text.foldl (fun value c => value * base + (c.toNat - 48)) value

theorem toNat_of_isDigit {c : UInt8} (digit : isDigit c = true) : 48 ≤ c.toNat ∧ c.toNat ≤ 57 := by
  rw [isDigit, Bool.and_eq_true, decide_eq_true_iff, decide_eq_true_iff] at digit
  exact ⟨UInt8.le_iff_toNat_le.mp digit.1, UInt8.le_iff_toNat_le.mp digit.2⟩

theorem digitsFrom_concat (base value : Nat) (text : List UInt8) (c : UInt8) :
    digitsFrom base value (text ++ [c]) = digitsFrom base value text * base + (c.toNat - 48) := by
  rw [digitsFrom, List.foldl_append]
  rfl

/-- A run of decimal digits, read to a base up to ten, is below the power of ten of its length. -/
theorem digitsFrom_lt {base : Nat} (small : base ≤ 10) {text : List UInt8}
    (digits : text.all isDigit = true) :
    digitsFrom base 0 text < 10 ^ text.length := by
  induction text using List.reverseRecOn with
  | nil => exact Nat.one_pos
  | append_singleton text c ih =>
    rw [List.all_append, Bool.and_eq_true, List.all_cons, Bool.and_eq_true] at digits
    have digit := toNat_of_isDigit digits.2.1
    have front := ih digits.1
    have scaled := Nat.mul_le_mul_left (digitsFrom base 0 text) small
    rw [digitsFrom_concat, List.length_append, List.length_singleton, pow_succ]
    omega

/-! ## Hexadecimal numbers of a fixed width -/

/-- The last `width` hexadecimal digits of a number. -/
def hexFixed : Nat → Nat → List Char
  | 0, _ => []
  | width + 1, n => hexFixed width (n / 16) ++ [(n % 16).digitChar]

@[simp] theorem hexFixed_length (width n : Nat) : (hexFixed width n).length = width := by
  induction width generalizing n with
  | zero => rfl
  | succ width ih => simp [hexFixed, ih]

theorem hexFixed_inj {width m n : Nat} (small : m < 16 ^ width) (small' : n < 16 ^ width)
    (same : hexFixed width m = hexFixed width n) : m = n := by
  induction width generalizing m n with
  | zero =>
    omega
  | succ width ih =>
    obtain ⟨front, last⟩ := List.append_inj' same rfl
    have quotient := ih (Nat.div_lt_of_lt_mul (by omega)) (Nat.div_lt_of_lt_mul (by omega)) front
    have digit := digitChar_inj (by omega) (by omega) (List.cons.inj last).1
    omega

/-- The digits of hexadecimal text. -/
def isHex (c : Char) : Prop :=
  c ∈ "0123456789abcdef".toList

theorem isHex_digitChar {n : Nat} (small : n < 16) : isHex n.digitChar := by
  revert n
  unfold isHex
  decide +kernel

/-- What holds of the sixteen digits holds of every digit. -/
theorem isHex.all {p : Char → Prop} (digits : ∀ n : Fin 16, p (Nat.digitChar n)) {c : Char}
    (hex : isHex c) : p c := by
  have table : "0123456789abcdef".toList = (List.finRange 16).map fun n : Fin 16 => Nat.digitChar n := by
    decide +kernel
  rw [isHex, table] at hex
  obtain ⟨n, -, rfl⟩ := List.mem_map.mp hex
  exact digits n

theorem isHex_of_mem_hexFixed {width n : Nat} {c : Char} (member : c ∈ hexFixed width n) :
    isHex c := by
  induction width generalizing n with
  | zero => cases member
  | succ width ih =>
    rcases List.mem_append.mp member with inFront | last
    · exact ih inFront
    · rw [List.mem_singleton.mp last]
      exact isHex_digitChar (Nat.mod_lt n (by decide))

/-- Two digits for each byte. -/
def hexBytes (bytes : List UInt8) : List Char :=
  bytes.flatMap fun b => hexFixed 2 b.toNat

theorem isHex_of_mem_hexBytes {bytes : List UInt8} {c : Char} (member : c ∈ hexBytes bytes) :
    isHex c := by
  obtain ⟨b, -, inByte⟩ := List.mem_flatMap.mp member
  exact isHex_of_mem_hexFixed inByte

theorem hexBytes_inj {bytes bytes' : List UInt8} (same : hexBytes bytes = hexBytes bytes') :
    bytes = bytes' := by
  induction bytes generalizing bytes' with
  | nil =>
    cases bytes' with
    | nil => rfl
    | cons b rest =>
      have lengths := congrArg List.length same
      simp [hexBytes] at lengths
      omega
  | cons b rest ih =>
    cases bytes' with
    | nil => exact absurd (congrArg List.length same) (by simp [hexBytes])
    | cons b' rest' =>
      obtain ⟨first, others⟩ := List.append_inj same (by simp)
      have small : ∀ u : UInt8, u.toNat < 16 ^ 2 := fun u => u.toNat_lt
      rw [UInt8.toNat_inj.mp (hexFixed_inj (small b) (small b') first), ih others]

/-! ## Words behind a separator -/

section Words

variable {α : Type}

/-- What stands before and after the first separator is determined. -/
theorem append_separator_inj {separator : α} {front front' rest rest' : List α}
    (absent : separator ∉ front) (absent' : separator ∉ front')
    (same : front ++ separator :: rest = front' ++ separator :: rest') :
    front = front' ∧ rest = rest' := by
  induction front generalizing front' with
  | nil =>
    cases front' with
    | nil => exact ⟨rfl, (List.cons.inj same).2⟩
    | cons c front' =>
      have isSeparator : separator = c := (List.cons.inj same).1
      exact absurd (isSeparator ▸ List.mem_cons_self) absent'
  | cons c front ih =>
    cases front' with
    | nil =>
      have isSeparator : c = separator := (List.cons.inj same).1
      exact absurd (isSeparator ▸ List.mem_cons_self) absent
    | cons c' front' =>
      obtain ⟨rfl, tails⟩ := List.cons.inj same
      obtain ⟨rfl, rfl⟩ := ih (fun member => absent (List.mem_cons_of_mem _ member))
        (fun member => absent' (List.mem_cons_of_mem _ member)) tails
      exact ⟨rfl, rfl⟩

/-- A first word, and the others each behind a separator. -/
def spaced (separator : α) (first : List α) (others : List (List α)) : List α :=
  first ++ others.flatMap (separator :: ·)

/-- **Words are determined by their text**, if none of them holds the separator. -/
theorem spaced_inj {separator : α} {first first' : List α} {others others' : List (List α)}
    (plain : ∀ word ∈ first :: others, separator ∉ word)
    (plain' : ∀ word ∈ first' :: others', separator ∉ word)
    (same : spaced separator first others = spaced separator first' others') :
    first = first' ∧ others = others' := by
  induction others generalizing first first' others' with
  | nil =>
    cases others' with
    | nil => exact ⟨by simpa [spaced] using same, rfl⟩
    | cons word others' =>
      have inFirst : separator ∈ first := by
        have text : first = first' ++ separator :: (word ++ others'.flatMap (separator :: ·)) := by
          simpa [spaced] using same
        rw [text]
        simp
      exact absurd inFirst (plain first (by simp))
  | cons word others ih =>
    cases others' with
    | nil =>
      have inFirst : separator ∈ first' := by
        have text : first' = first ++ separator :: (word ++ others.flatMap (separator :: ·)) := by
          simpa [spaced] using same.symm
        rw [text]
        simp
      exact absurd inFirst (plain' first' (by simp))
    | cons word' others' =>
      have text : first ++ separator :: (word ++ others.flatMap (separator :: ·)) =
          first' ++ separator :: (word' ++ others'.flatMap (separator :: ·)) := by
        simpa [spaced] using same
      obtain ⟨rfl, rest⟩ := append_separator_inj (plain first (by simp)) (plain' first' (by simp)) text
      obtain ⟨rfl, rfl⟩ := ih (fun w member => plain w (List.mem_cons_of_mem _ member))
        (fun w member => plain' w (List.mem_cons_of_mem _ member)) rest
      exact ⟨rfl, rfl⟩

end Words

/-! ## Images up to order -/

theorem perm_of_map_perm {α β : Type} {f : α → β} {l l' : List α}
    (determined : ∀ a ∈ l, ∀ b, f b = f a → b = a) (images : (l.map f).Perm (l'.map f)) :
    l.Perm l' := by
  induction l generalizing l' with
  | nil =>
    have empty : l' = [] := by simpa using images.symm
    rw [empty]
  | cons a l ih =>
    have present : f a ∈ l'.map f := images.subset (by simp)
    obtain ⟨b, inside, same⟩ := List.mem_map.mp present
    have isA : b = a := determined a (by simp) b same
    subst isA
    obtain ⟨front, back, rfl⟩ := List.append_of_mem inside
    have middle : (front ++ b :: back).Perm (b :: (front ++ back)) := List.perm_middle
    have shorter : (l.map f).Perm ((front ++ back).map f) :=
      (images.trans (middle.map f)).cons_inv
    exact ((ih (fun c member => determined c (List.mem_cons_of_mem _ member)) shorter).cons b).trans
      middle.symm

/-- Sorting forgets the order a list came in. -/
theorem insertionSort_eq_of_perm {α : Type} {r : α → α → Prop} [DecidableRel r] [Std.Total r] [IsTrans α r]
    (antisymm : ∀ a b, r a b → r b a → a = b) {l l' : List α} (perm : l.Perm l') :
    l.insertionSort r = l'.insertionSort r := by
  have same := (List.perm_insertionSort r l).trans (perm.trans (List.perm_insertionSort r l').symm)
  exact same.eq_of_pairwise (fun a b _ _ => antisymm a b) (List.pairwise_insertionSort r l)
    (List.pairwise_insertionSort r l')

end ProgramSplit.Lib.Digits
