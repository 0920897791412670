/-
# Lib.Base64 — three bytes as four digits

Base64 apart from its alphabet: a symbol is one of 64 digits or the padding sign. `symbols` encodes,
`bytes` is the strict decoder, which takes groups of four with padding only at the end of the last one.

* `firstByte_digit`, `secondByte_digit`, `thirdByte_digit` — the bytes of a group come back from its
  digits;
* `bytes_symbols` — the round trip.
-/
import Mathlib.Algebra.Group.Nat.Defs
import Mathlib.Data.List.Basic
import Mathlib.Data.Fin.Basic

namespace ProgramSplit.Lib.Base64

set_option autoImplicit false

/-- A digit, or `none` for the padding sign. -/
abbrev Symbol := Option (Fin 64)

/-- The 24 bits of a group. -/
def word (a b c : UInt8) : Nat := a.toNat * 65536 + b.toNat * 256 + c.toNat

/-- The digit of the six bits from `place` up. -/
def digit (w place : Nat) : Fin 64 := ⟨w / 2 ^ place % 64, Nat.mod_lt _ (by decide)⟩

def symbols : List UInt8 → List Symbol
  | [] => []
  | [a] => [digit (word a 0 0) 18, digit (word a 0 0) 12, none, none]
  | [a, b] => [digit (word a b 0) 18, digit (word a b 0) 12, digit (word a b 0) 6, none]
  | a :: b :: c :: rest =>
    digit (word a b c) 18 :: digit (word a b c) 12 :: digit (word a b c) 6 :: digit (word a b c) 0 ::
      symbols rest

/-! ## The bytes of a group -/

def firstByte (p q : Fin 64) : UInt8 := UInt8.ofNat (p.val * 4 + q.val / 16)
def secondByte (q r : Fin 64) : UInt8 := UInt8.ofNat (q.val % 16 * 16 + r.val / 4)
def thirdByte (r s : Fin 64) : UInt8 := UInt8.ofNat (r.val % 4 * 64 + s.val)

def bytes : List Symbol → Option (List UInt8)
  | [] => some []
  | some p :: some q :: third :: fourth :: rest =>
    match third, fourth, rest with
    | none, none, [] => some [firstByte p q]
    | some r, none, [] => some [firstByte p q, secondByte q r]
    | some r, some s, rest => (bytes rest).map (firstByte p q :: secondByte q r :: thirdByte r s :: ·)
    | _, _, _ => none
  | _ => none

section Group

variable (a b c : UInt8)

theorem firstByte_digit : firstByte (digit (word a b c) 18) (digit (word a b c) 12) = a := by
  have first := a.toNat_lt
  have second := b.toNat_lt
  have third := c.toNat_lt
  apply UInt8.toNat_inj.mp
  simp only [firstByte, digit, word, UInt8.toNat_ofNat']
  omega

theorem secondByte_digit : secondByte (digit (word a b c) 12) (digit (word a b c) 6) = b := by
  have second := b.toNat_lt
  have third := c.toNat_lt
  apply UInt8.toNat_inj.mp
  simp only [secondByte, digit, word, UInt8.toNat_ofNat']
  omega

theorem thirdByte_digit : thirdByte (digit (word a b c) 6) (digit (word a b c) 0) = c := by
  have third := c.toNat_lt
  apply UInt8.toNat_inj.mp
  simp only [thirdByte, digit, word, UInt8.toNat_ofNat']
  omega

end Group

/-- **The round trip.** -/
theorem bytes_symbols (l : List UInt8) : bytes (symbols l) = some l := by
  induction l using symbols.induct with
  | case1 => rfl
  | case2 a =>
    rw [symbols, bytes]
    rw [firstByte_digit]
  | case3 a b =>
    rw [symbols, bytes]
    rw [firstByte_digit, secondByte_digit]
  | case4 a b c rest ih =>
    rw [symbols, bytes]
    simp only [ih, Option.map_some, firstByte_digit, secondByte_digit, thirdByte_digit]

end ProgramSplit.Lib.Base64
