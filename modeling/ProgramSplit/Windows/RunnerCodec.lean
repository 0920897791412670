/-
# Windows.RunnerCodec — the bounded runner's base64

`base64Encode` and `base64Decode` of `bounded-run.h`. The command line of a run comes in encoded, the
two output streams go out encoded.

* `base64Encode_eq` — the encoder is the standard encoding;
* `base64Decode_symbols` — the decoder undoes the standard encoding of any bytes but none at all;
* `base64Decode_shape` — what the decoder does not answer with nothing is made of groups of four, with
  at most two padding signs at its end.
-/
import ProgramSplit.Lib.Base64
import ProgramSplit.Windows.IdentityText

namespace ProgramSplit.Windows.Runner

open Wfp (WString)
open Lib.Base64

set_option autoImplicit false

abbrev Text := List Char
abbrev Bytes := List UInt8

/-! ## The encoder -/

def kAlphabet : Text := "ABCDEFGHIJKLMNOPQRSTUVWXYZabcdefghijklmnopqrstuvwxyz0123456789+/".toList

/-- `kAlphabet[(value >> place) & 63]` -/
def sextet (value place : Nat) : Char := kAlphabet.getD (value >>> place &&& 63) '='

/-- The loop of `base64Encode`, three bytes at a time. -/
def base64Encode : Bytes → Text
  | [] => []
  | [a] =>
    let value := a.toNat <<< 16 ||| 0 ||| 0
    [sextet value 18, sextet value 12, '=', '=']
  | [a, b] =>
    let value := a.toNat <<< 16 ||| b.toNat <<< 8 ||| 0
    [sextet value 18, sextet value 12, sextet value 6, '=']
  | a :: b :: c :: rest =>
    let value := a.toNat <<< 16 ||| b.toNat <<< 8 ||| c.toNat
    sextet value 18 :: sextet value 12 :: sextet value 6 :: sextet value 0 :: base64Encode rest

/-- The character of a symbol. -/
def character : Symbol → Char
  | none => '='
  | some d => kAlphabet.getD d.val '='

theorem value_eq (a b c : UInt8) : a.toNat <<< 16 ||| b.toNat <<< 8 ||| c.toNat = word a b c := by
  rw [Nat.or_assoc, ← Nat.shiftLeft_add_eq_or_of_lt c.toNat_lt, ← Nat.shiftLeft_add_eq_or_of_lt]
  · simp only [Nat.shiftLeft_eq, word]
    omega
  · have third := c.toNat_lt
    have small := b.toNat_lt
    omega

theorem sextet_eq (w place : Nat) : sextet w place = character (some (digit w place)) := by
  have low : w >>> place &&& 63 = w / 2 ^ place % 64 := by
    rw [Nat.shiftRight_eq_div_pow]
    exact Nat.and_two_pow_sub_one_eq_mod _ 6
  rw [sextet, low]
  rfl

/-- **The encoder is the standard one.** -/
theorem base64Encode_eq (bytes : Bytes) : base64Encode bytes = (symbols bytes).map character := by
  induction bytes using symbols.induct with
  | case1 => rfl
  | case2 a =>
    have value := value_eq a 0 0
    simp only [UInt8.toNat_zero, Nat.zero_shiftLeft] at value
    simp only [base64Encode, symbols, value, sextet_eq, List.map_cons, List.map_nil]
    rfl
  | case3 a b =>
    have value := value_eq a b 0
    simp only [UInt8.toNat_zero] at value
    simp only [base64Encode, symbols, value, sextet_eq, List.map_cons, List.map_nil]
    rfl
  | case4 a b c rest ih =>
    simp only [base64Encode, symbols, value_eq, sextet_eq, List.map_cons, ih]

/-! ## The decoder -/

def padSign : UInt16 := 0x3d

/-- The digit of a unit, by the ranges the loop tests. -/
def digitOf (c : UInt16) : Option Nat :=
  if 0x41 ≤ c ∧ c ≤ 0x5a then some (c.toNat - 0x41)
  else if 0x61 ≤ c ∧ c ≤ 0x7a then some (c.toNat - 0x61 + 26)
  else if 0x30 ≤ c ∧ c ≤ 0x39 then some (c.toNat - 0x30 + 52)
  else if c = 0x2b then some 62
  else if c = 0x2f then some 63
  else none

/-- The loop of `base64Decode`: `i + 2 >= text.size()` says that at most one unit follows. `none` is
the early `return {}`. -/
def base64DecodeFrom (value bits padding : Nat) (result : Bytes) : WString → Option (Bytes × Nat)
  | [] => some (result, padding)
  | c :: rest =>
    let isPad := c = padSign ∧ rest.length + 1 ≤ 2
    let padding := if isPad then padding + 1 else padding
    match if isPad then some 0 else digitOf c with
    | none => none
    | some digit =>
      if padding ≠ 0 ∧ c ≠ padSign then none
      else
        let value := (value <<< 6 ||| digit) % 2 ^ 32
        if 8 ≤ bits + 6 then
          base64DecodeFrom value (bits + 6 - 8) padding
            (result ++ [UInt8.ofNat (value >>> (bits + 6 - 8) &&& 0xff)]) rest
        else base64DecodeFrom value (bits + 6) padding result rest

def base64Decode (text : WString) : Bytes :=
  if text = [] ∨ text.length % 4 ≠ 0 then []
  else
    match base64DecodeFrom 0 0 0 [] text with
    | none => []
    | some (result, padding) => result.take (result.length - padding)

/-- The unit of a symbol in a wide text. -/
def unit (s : Symbol) : UInt16 := UInt16.ofNat (character s).toNat

theorem digitOf_unit (d : Fin 64) : digitOf (unit (some d)) = some d.val := by
  revert d
  decide +kernel

theorem unit_ne_padSign (d : Fin 64) : unit (some d) ≠ padSign := by
  revert d
  decide +kernel

/-! ### Groups -/

section Groups

variable {value bits : Nat} {result : Bytes} {rest : WString}

theorem shifted_eq (value : Nat) {d : Nat} (small : d < 64) :
    (value <<< 6 ||| d) % 2 ^ 32 = (value * 64 + d) % 2 ^ 32 := by
  rw [← Nat.shiftLeft_add_eq_or_of_lt (i := 6) small, Nat.shiftLeft_eq]

theorem lowByte_eq (value place : Nat) : value >>> place &&& 0xff = value / 2 ^ place % 256 := by
  rw [Nat.shiftRight_eq_div_pow]
  exact Nat.and_two_pow_sub_one_eq_mod _ 8

/-- A digit before any padding. -/
theorem decode_digit (d : Fin 64) :
    base64DecodeFrom value bits 0 result (unit (some d) :: rest) =
      if 8 ≤ bits + 6 then
        base64DecodeFrom ((value * 64 + d.val) % 2 ^ 32) (bits + 6 - 8) 0
          (result ++ [UInt8.ofNat ((value * 64 + d.val) % 2 ^ 32 / 2 ^ (bits + 6 - 8) % 256)]) rest
      else base64DecodeFrom ((value * 64 + d.val) % 2 ^ 32) (bits + 6) 0 result rest := by
  rw [base64DecodeFrom]
  simp only [unit_ne_padSign, false_and, if_false, digitOf_unit, ne_eq, not_true_eq_false,
    shifted_eq value d.isLt, lowByte_eq]

/-- A padding sign where at most one unit follows. -/
theorem decode_pad {padding : Nat} (last : rest.length ≤ 1) :
    base64DecodeFrom value bits padding result (unit none :: rest) =
      if 8 ≤ bits + 6 then
        base64DecodeFrom ((value * 64 + 0) % 2 ^ 32) (bits + 6 - 8) (padding + 1)
          (result ++ [UInt8.ofNat ((value * 64 + 0) % 2 ^ 32 / 2 ^ (bits + 6 - 8) % 256)]) rest
      else base64DecodeFrom ((value * 64 + 0) % 2 ^ 32) (bits + 6) (padding + 1) result rest := by
  have isPad : unit none = padSign ∧ rest.length + 1 ≤ 2 := ⟨by decide, by omega⟩
  rw [base64DecodeFrom]
  simp only [isPad, if_true, ne_eq, not_true_eq_false, and_false, if_false,
    shifted_eq value (show 0 < 64 by decide), lowByte_eq, and_self]

/-- The first two digits of a group give its first byte and leave four bits. -/
theorem decode_two (p q : Fin 64) :
    base64DecodeFrom value 0 0 result (unit (some p) :: unit (some q) :: rest) =
      base64DecodeFrom (((value * 64 + p.val) % 2 ^ 32 * 64 + q.val) % 2 ^ 32) 4 0
        (result ++ [firstByte p q]) rest := by
  have byte : ((value * 64 + p.val) % 2 ^ 32 * 64 + q.val) % 2 ^ 32 / 2 ^ 4 % 256 =
      p.val * 4 + q.val / 16 := by
    omega
  rw [decode_digit, if_neg (by decide), decode_digit, if_pos (by decide)]
  simp only [Nat.reduceAdd, Nat.reduceSub, byte]
  rfl

/-- The bits of a third digit after the second. -/
theorem secondByte_bits (v : Nat) (q r : Fin 64) (v' : Nat) (same : v' = (v * 64 + q.val) % 2 ^ 32) :
    (v' * 64 + r.val) % 2 ^ 32 / 2 ^ 2 % 256 = q.val % 16 * 16 + r.val / 4 := by
  omega

theorem thirdByte_bits (v : Nat) (r s : Fin 64) (v' : Nat) (same : v' = (v * 64 + r.val) % 2 ^ 32) :
    (v' * 64 + s.val) % 2 ^ 32 / 2 ^ 0 % 256 = r.val % 4 * 64 + s.val := by
  omega

/-- A whole group. -/
theorem decode_group (value : Nat) (result : Bytes) (rest : WString) (p q r s : Fin 64) : ∃ next,
    base64DecodeFrom value 0 0 result
        (unit (some p) :: unit (some q) :: unit (some r) :: unit (some s) :: rest) =
      base64DecodeFrom next 0 0 (result ++ [firstByte p q, secondByte q r, thirdByte r s]) rest := by
  rw [decode_two, decode_digit, if_pos (by decide), decode_digit, if_pos (by decide)]
  simp only [Nat.reduceAdd, Nat.reduceSub, secondByte_bits _ q r _ rfl, thirdByte_bits _ r s _ rfl,
    List.append_assoc, List.cons_append, List.nil_append]
  exact ⟨_, rfl⟩

end Groups

/-- **The loop on an encoding.** -/
theorem decodeFrom_symbols (bytes : Bytes) : ∀ value result, ∃ final padding,
    base64DecodeFrom value 0 0 result ((symbols bytes).map unit) = some (final, padding) ∧
      final.take (final.length - padding) = result ++ bytes := by
  induction bytes using symbols.induct with
  | case1 =>
    intro value result
    exact ⟨result, 0, rfl, by simp⟩
  | case2 a =>
    intro value result
    simp only [symbols, List.map_cons, List.map_nil]
    rw [decode_two, decode_pad (by simp), if_pos (by decide), decode_pad (by simp), if_pos (by decide),
      firstByte_digit]
    refine ⟨_, _, rfl, ?_⟩
    simp [List.take_append]
  | case3 a b =>
    intro value result
    simp only [symbols, List.map_cons, List.map_nil]
    rw [decode_two, decode_digit, if_pos (by decide), decode_pad (by simp), if_pos (by decide)]
    simp only [Nat.reduceAdd, Nat.reduceSub, secondByte_bits _ _ (digit (word a b 0) 6) _ rfl]
    refine ⟨_, _, rfl, ?_⟩
    have second : UInt8.ofNat ((digit (word a b 0) 12).val % 16 * 16 + (digit (word a b 0) 6).val / 4) = b :=
      secondByte_digit a b 0
    rw [firstByte_digit, second]
    simp [List.take_append]
  | case4 a b c rest ih =>
    intro value result
    obtain ⟨next, group⟩ := decode_group value result ((symbols rest).map unit)
      (digit (word a b c) 18) (digit (word a b c) 12) (digit (word a b c) 6) (digit (word a b c) 0)
    obtain ⟨final, padding, read, same⟩ := ih next (result ++ [a, b, c])
    rw [firstByte_digit, secondByte_digit, thirdByte_digit] at group
    exact ⟨final, padding, group.trans read, by simpa using same⟩

theorem symbols_length (bytes : Bytes) : (symbols bytes).length % 4 = 0 := by
  induction bytes using symbols.induct with
  | case1 => rfl
  | case2 a => simp [symbols]
  | case3 a b => simp [symbols]
  | case4 a b c rest ih =>
    simp only [symbols, List.length_cons]
    omega

theorem symbols_ne_nil {bytes : Bytes} (nonempty : bytes ≠ []) : symbols bytes ≠ [] := by
  cases bytes using symbols.fun_cases with
  | case1 => exact absurd rfl nonempty
  | case2 a => exact List.cons_ne_nil _ _
  | case3 a b => exact List.cons_ne_nil _ _
  | case4 a b c rest => exact List.cons_ne_nil _ _

/-- **The decoder undoes the standard encoding.** -/
theorem base64Decode_symbols {bytes : Bytes} (nonempty : bytes ≠ []) :
    base64Decode ((symbols bytes).map unit) = bytes := by
  obtain ⟨final, padding, read, same⟩ := decodeFrom_symbols bytes 0 []
  have present : (symbols bytes).map unit ≠ [] := by simpa using symbols_ne_nil nonempty
  have whole : ((symbols bytes).map unit).length % 4 = 0 := by rw [List.length_map, symbols_length]
  have proper : ¬ ((symbols bytes).map unit = [] ∨ ((symbols bytes).map unit).length % 4 ≠ 0) := by
    rw [not_or, not_not]
    exact ⟨present, whole⟩
  rw [base64Decode, if_neg proper, read]
  exact same

/-! ### What is refused -/

/-- Groups of four alphabet characters with at most two padding signs at their end. -/
def Shaped (text : WString) : Prop :=
  text.length % 4 = 0 ∧ ∃ body padding, text = body ++ List.replicate padding padSign ∧
    (∀ c ∈ body, digitOf c ≠ none) ∧ padding ≤ 2

theorem decodeFrom_shape (text : WString) : ∀ {value bits padding : Nat} {result : Bytes},
    base64DecodeFrom value bits padding result text ≠ none →
      ∃ body signs, text = body ++ List.replicate signs padSign ∧ (∀ c ∈ body, digitOf c ≠ none) ∧
        signs ≤ 2 ∧ (padding ≠ 0 → body = []) := by
  induction text with
  | nil =>
    intro value bits padding result _
    exact ⟨[], 0, rfl, by simp, by decide, fun _ => rfl⟩
  | cons c rest ih =>
    intro value bits padding result goes
    rw [base64DecodeFrom] at goes
    by_cases isPad : c = padSign ∧ rest.length + 1 ≤ 2
    · -- From here on only padding signs are accepted.
      have later : ∃ value bits result, base64DecodeFrom value bits (padding + 1) result rest ≠ none := by
        simp only [isPad, if_true, and_self, ne_eq, not_true_eq_false, and_false, if_false] at goes
        split at goes
        · exact ⟨_, _, _, goes⟩
        · exact ⟨_, _, _, goes⟩
      obtain ⟨value', bits', result', goes'⟩ := later
      obtain ⟨body, signs, text, alphabet, -, none_⟩ := ih goes'
      have empty : body = [] := none_ (Nat.succ_ne_zero padding)
      subst empty
      refine ⟨[], signs + 1, ?_, by simp, ?_, fun _ => rfl⟩
      · rw [text, isPad.1]
        rfl
      · have few := isPad.2
        rw [text] at few
        simpa using few
    · cases known : digitOf c with
      | none =>
        simp only [isPad, if_false, known, ne_eq, not_true_eq_false] at goes
      | some digit =>
        have notSign : c ≠ padSign := by
          rintro rfl
          cases known
        have free : padding = 0 := by
          by_contra padded
          simp only [isPad, if_false, known] at goes
          exact goes (if_pos ⟨padded, notSign⟩)
        have later : ∃ value bits result, base64DecodeFrom value bits 0 result rest ≠ none := by
          simp only [isPad, if_false, known, free, ne_eq, not_true_eq_false, false_and] at goes
          split at goes
          · exact ⟨_, _, _, goes⟩
          · exact ⟨_, _, _, goes⟩
        obtain ⟨value', bits', result', goes'⟩ := later
        obtain ⟨body, signs, text, alphabet, few, -⟩ := ih goes'
        refine ⟨c :: body, signs, by rw [text]; rfl, ?_, few, fun padded => absurd free padded⟩
        intro d member
        rcases List.mem_cons.mp member with rfl | inBody
        · rw [known]
          exact Option.some_ne_none digit
        · exact alphabet d inBody

/-- **What is refused.** Any other text decodes to nothing. -/
theorem base64Decode_shape {text : WString} (other : ¬ Shaped text) : base64Decode text = [] := by
  by_contra something
  apply other
  unfold base64Decode at something
  split_ifs at something with wrong
  · exact absurd rfl something
  · rw [not_or, not_not] at wrong
    cases goes : base64DecodeFrom 0 0 0 [] text with
    | none => simp [goes] at something
    | some out =>
      have accepted : base64DecodeFrom 0 0 0 [] text ≠ none := by
        rw [goes]
        exact Option.some_ne_none out
      obtain ⟨body, signs, same, alphabet, few, -⟩ := decodeFrom_shape text accepted
      exact ⟨wrong.2, body, signs, same, alphabet, few⟩

end ProgramSplit.Windows.Runner
