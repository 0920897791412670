/-
# Dns.Names — wide strings, normalised names and hint keys

The string functions of `dns-dispatcher.cpp` (`lower`, `trim`, `normalizeName`)
and the hint key `Hints::makeKey` of `dns-attribution.h`, over UTF-16 code
units. The process never calls `setlocale`, so `towlower` is the C locale's:
only `A`–`Z` change.

* `makeKey_eq_iff` — for one query type, two names share a hint key exactly when
  their normalised names agree.
-/
import Mathlib.Data.List.DropRight

namespace ProgramSplit.Dns

set_option autoImplicit false

/-- A `std::wstring`: UTF-16 code units. -/
abbrev WString := List UInt16

/-- `towlower` in the C locale. -/
def towlower (c : UInt16) : UInt16 :=
  if 0x41 ≤ c ∧ c ≤ 0x5a then c + 0x20 else c

def lower (value : WString) : WString :=
  value.map towlower

/-- The characters `trim` removes: space, tab and carriage return. -/
def isBlank (c : UInt16) : Bool :=
  c == 0x20 || c == 0x09 || c == 0x0d

def isDot (c : UInt16) : Bool :=
  c == 0x2e

def trim (value : WString) : WString :=
  (value.dropWhile isBlank).rdropWhile isBlank

def normalizeName (value : WString) : WString :=
  (lower (trim value)).rdropWhile isDot

/-- `std::to_wstring` of an unsigned number. -/
def toWString (n : Nat) : WString :=
  (Nat.toDigits 10 n).map fun d => UInt16.ofNat d.toNat

/-- `Hints::makeKey`: the normalised name, `#`, and the decimal type. -/
def makeKey (name : WString) (type : UInt16) : WString :=
  normalizeName name ++ 0x23 :: toWString type.toNat

theorem makeKey_eq_iff (name name' : WString) (type : UInt16) :
    makeKey name type = makeKey name' type ↔ normalizeName name = normalizeName name' := by
  simp [makeKey]

-- "Ex.C. " and "ex.c" are one name.
example : normalizeName [0x45, 0x78, 0x2e, 0x43, 0x2e, 0x20] = [0x65, 0x78, 0x2e, 0x63] := by
  decide

end ProgramSplit.Dns
