/-
# Dns.Wire — the question of a DNS packet

`parseQuestion` of `dns-wire.h`. The loop over labels is read one byte at a time:
`left` counts the bytes the current label still needs, so a label that overruns the
packet fails when the packet ends (the source tests for it when the label starts;
the result is the same).
-/
import ProgramSplit.Dns.Names

namespace ProgramSplit.Dns

set_option autoImplicit false

structure Question where
  name : WString
  type : UInt16
  deriving DecidableEq, Repr

/-- The characters of one wire byte. -/
def wide (b : UInt8) : UInt16 :=
  b.toUInt16

/-- The labels from the current offset on, joined by dots behind `name`, and the
bytes after them. -/
def readLabels : List UInt8 → (left : Nat) → (name : WString) → Option (WString × List UInt8)
  | [], 0, name => some (name, [])
  | [], _ + 1, _ => none
  | 0 :: rest, 0, name => some (name, rest)
  | length :: rest, 0, name =>
    -- a compression pointer or a reserved label type
    if length &&& 0xc0 ≠ 0 then none
    else readLabels rest length.toNat (if name = [] then name else name ++ [0x2e])
  | byte :: rest, left + 1, name => readLabels rest left (name ++ [wide byte])

def parseQuestion (packet : List UInt8) : Option Question :=
  if packet.length < 17 ∨ packet[4]? ≠ some 0 ∨ packet[5]? ≠ some 1 then none
  else
    match readLabels (packet.drop 12) 0 [] with
    | some (name, high :: low :: _ :: _ :: _) =>
      if name = [] ∨ 253 < name.length then none
      else some { name := normalizeName name, type := wide high <<< 8 ||| wide low }
    | _ => none

-- a query for ab.c, type 1
example : parseQuestion ([0, 0, 1, 0, 0, 1, 0, 0, 0, 0, 0, 0] ++ [2, 0x61, 0x42, 1, 0x63, 0, 0, 1, 0, 1]) =
    some { name := [0x61, 0x62, 0x2e, 0x63], type := 1 } := by
  decide +kernel

end ProgramSplit.Dns
