/-
# Linux.NftMarks — packet-mark bits of an nftables ruleset

`_has_mark`, `_mark_write` and `_nft_usage` of `inventory.py`: one walk over the JSON
of `nft -j list ruleset` that adds up the mark bits and conntrack zones foreign rules
use, and raises on anything it cannot classify. The walk's stack is depth first, last
child first; `walkAll` and `walkFields` keep that order.
-/
import ProgramSplit.Lib.Bits
import ProgramSplit.Lib.Json

namespace ProgramSplit.Linux

open Lib

set_option autoImplicit false

/-- What `json.loads` returns for the output of a tool; its floating-point numbers are not told apart. -/
abbrev Json := Json.Document String Unit

/-- A raised exception: a `NetworkError` with its text, or another Python exception. -/
inductive Failure
  | network (text : String)
  | python (kind : String)
  deriving DecidableEq, Repr

/-- A 32-bit mark. -/
abbrev Mark := BitVec 32

abbrev Fields := List (String × Json)

def Fields.get (fields : Fields) (key : String) : Option Json :=
  fields.lookup key

namespace Json

/-- `value.get(key)` of a dictionary; an `AttributeError` of anything else. -/
def get : Json → String → Except Failure (Option Json)
  | .dict fields, key => .ok (Fields.get fields key)
  | _, _ => .error (.python "AttributeError")

/-- Equality with `{'<outer>': {'key': '<inner>'}}`. -/
def isKey (outer inner : String) : Json → Bool
  | .dict [(o, .dict [(k, .str i)])] => o == outer && k == "key" && i == inner
  | _ => false

/-- `mark` and `zone`, as nft prints them. -/
def isMark : Json → Bool := isKey "meta" "mark"
def isZone : Json → Bool := isKey "ct" "zone"

end Json

/-- `isinstance(value.get(outer), dict) and value[outer].get('key') == inner`. -/
def Fields.hasKey (fields : Fields) (outer inner : String) : Bool :=
  match fields.get outer with
  | some (.dict sub) =>
    match Fields.get sub "key" with
    | some (.str k) => k == inner
    | _ => false
  | _ => false

mutual

/-- `_has_mark`. -/
def hasMark : Json → Bool
  | .dict fields => Fields.hasKey fields "meta" "mark" || hasMarkFields fields
  | .list items => hasMarkAll items
  | _ => false
termination_by structural j => j

def hasMarkAll : List Json → Bool
  | [] => false
  | item :: rest => hasMark item || hasMarkAll rest
termination_by structural l => l

def hasMarkFields : List (String × Json) → Bool
  | [] => false
  | (_, item) :: rest => hasMark item || hasMarkFields rest
termination_by structural l => l

end

section Numbers

-- Python's int(value, 0); none for a ValueError
variable (int0 : String → Option Int)

def unparseable : Failure := .network "unparseable network integer"

def inRange (n : Int) : Except Failure Mark :=
  if 0 ≤ n ∧ n ≤ 0xffffffff then .ok (BitVec.ofInt 32 n) else .error unparseable

/-- `_u32`. -/
def u32 : Json → Except Failure Mark
  | .str s =>
    match int0 s with
    | some n => inRange n
    | none => .error unparseable
  | .int n => inRange n
  | _ => .error unparseable

/-- The constants `_mark_write` accepts: `type(constant) is int`, in range. -/
def constant : Json → Option Mark
  | .int n => (inRange n).toOption
  | _ => none

/-- The bits a write of `left` combined with a constant can change; none for operands
other than the mark or the mark under a mask. -/
def operandBits (operator : String) (left : Json) (c : Mark) : Option Mark :=
  if left.isMark then some (if operator = "&" then ~~~c else c)
  else
    match left with
    | .dict [("&", .list [inner, mask])] =>
      if operator ≠ "&" ∧ Json.isMark inner then (constant mask).map fun m => ~~~m ||| c else none
    | _ => none

/-- `_mark_write`; none for every exception, which `_nft_usage` turns into one error. -/
def markWrite : Json → Option Mark
  | .dict [(operator, .list [left, right])] =>
    if operator = "|" ∨ operator = "^" ∨ operator = "&" then
      (constant right).bind (operandBits operator left)
    else none
  | _ => none

/-! ## `_nft_usage` -/

/-- What one dictionary of the walk comes to: it claims bits and zones and is not
entered, or its values are walked too. -/
inductive Visit
  | claim (bits : Mark) (zones : List Nat)
  | enter

def badAssignment : Failure := .network "unsupported nftables mark assignment"
def badComparison : Failure := .network "unsupported nftables mark comparison"
def badZone : Failure := .network "invalid conntrack zone"
def badExpression : Failure := .network "unrecognized nftables mark or zone expression"

def diverts (statement : String) : Failure :=
  .network ("foreign nftables " ++ statement ++
    " statement can copy or divert packets; refused as a conflict")

def rewrites (what : String) : Failure :=
  .network ("foreign nftables rule rewrites " ++ what ++ " statelessly; refused as a conflict")

/-- `str()` of a value inside an error text; only texts occur in nft's own output. -/
def Json.text : Option Json → String
  | some (.str s) => s
  | _ => "None"

/-- Opaque iptables extensions are covered by the textual dumps. -/
def opaqueXt (fields : Fields) : Option (Except Failure Visit) :=
  match fields.get "xt" with
  | some (.dict _) => some (.ok (.claim 0 []))
  | _ => none

/-- The bits an assignment of the mark can change. -/
def assignmentBits (mangle : Json) : Except Failure Mark :=
  match mangle.get "value" with
  | .ok (some (.int _)) => .ok (BitVec.allOnes 32)
  | .ok (some output) =>
    match markWrite output with
    | some bits => .ok bits
    | none => .error badAssignment
  | _ => .error (.python "KeyError")

def markAssignment (fields : Fields) : Option (Except Failure Mark) :=
  match fields.get "mangle" with
  | none => none
  | some mangle =>
    match mangle.get "key" with
    | .error e => some (.error e)
    | .ok key => if key.any Json.isMark then some (assignmentBits mangle) else none

/-- The operands of a binary `&` in a comparison's left side. Anything but a list
raises too; which exception is not told apart. -/
def maskedLeft : Option Json → Option (List Json)
  | some (.dict fields) =>
    match Fields.get fields "&" with
    | some (.list operands) => some operands
    | _ => none
  | _ => none

/-- The bits a comparison of the mark reads. -/
def comparisonBits (item : Json) : Except Failure Mark :=
  match item.get "left", item.get "right" with
  | .ok left, .ok right =>
    if left.any Json.isMark then
      (u32 int0 (right.getD .null)).map fun _ => BitVec.allOnes 32
    else
      match maskedLeft left with
      | some [first, mask] =>
        if first.isMark then
          match u32 int0 (right.getD .null) with
          | .ok _ => u32 int0 mask
          | .error e => .error e
        else .error badComparison
      | _ => .error badComparison
  | _, _ => .error (.python "AttributeError")

def markComparison (fields : Fields) : Option (Except Failure Mark) :=
  match fields.get "match" with
  | none => none
  | some item => if hasMark item then some (comparisonBits int0 item) else none

/-- A stateless address or port rewrite (or a raw payload write) is refused; other
header fields (DSCP, ECN, TTL) move nothing. -/
def payloadWrite (fields : Fields) : Option (Except Failure Visit) :=
  match fields.get "mangle" with
  | some (.dict mangle) =>
    match Fields.get mangle "key" with
    | some (.dict key) =>
      match Fields.get key "payload" with
      | none => none
      | some (.dict payload) =>
        let field := Json.text (Fields.get payload "field")
        if (Fields.get payload "base").isSome ∨ field = "saddr" ∨ field = "daddr" ∨
            field = "sport" ∨ field = "dport" then
          some (.error (rewrites (if field = "None" ∨ field = "" then "raw payload"
            else Json.text (Fields.get payload "protocol") ++ " " ++ field)))
        else some (.ok (.claim 0 []))
      | some _ => some (.error (rewrites "payload"))
    | _ => none
  | _ => none

def diversion (fields : Fields) : Option (Except Failure Visit) :=
  if (fields.get "dup").isSome then some (.error (diverts "dup"))
  else if (fields.get "fwd").isSome then some (.error (diverts "fwd"))
  else none

def zoneAssignment (fields : Fields) : Option (Except Failure Visit) :=
  match fields.get "mangle" with
  | none => none
  | some mangle =>
    match mangle.get "key", mangle.get "value" with
    | .ok (some key), .ok value =>
      if key.isZone then
        match u32 int0 (value.getD .null) with
        | .ok number =>
          if 65535 < number.toNat then some (.error badZone)
          else some (.ok (.claim 0 [number.toNat]))
        | .error e => some (.error e)
      else none
    | .ok none, _ => none
    | _, _ => some (.error (.python "AttributeError"))

def zoneMatch (fields : Fields) : Option (Except Failure Visit) :=
  match fields.get "match" with
  | none => none
  | some item =>
    match item.get "left", item.get "right" with
    | .ok (some left), .ok right =>
      if left.isZone then
        some ((u32 int0 (right.getD .null)).map fun number => .claim 0 [number.toNat])
      else none
    | .ok none, _ => none
    | _, _ => some (.error (.python "AttributeError"))

def stray (fields : Fields) : Option (Except Failure Visit) :=
  if fields.hasKey "meta" "mark" || fields.hasKey "ct" "zone" then some (.error badExpression)
  else none

/-- A test that claims mark bits. -/
def claimed (bits : Option (Except Failure Mark)) : Option (Except Failure Visit) :=
  bits.map (Except.map (Visit.claim · []))

/-- One dictionary: the tests of the loop body, in its order. -/
def inspect (fields : Fields) : Except Failure Visit :=
  (opaqueXt fields <|> claimed (markAssignment fields) <|> claimed (markComparison int0 fields) <|>
    payloadWrite fields <|> diversion fields <|> zoneAssignment int0 fields <|> zoneMatch int0 fields <|>
    stray fields).getD (.ok .enter)

/-- The bits and zones claimed so far. -/
structure Usage where
  used : Mark := 0
  zones : List Nat := []

mutual

def walk : Json → Usage → Except Failure Usage
  | .list items, usage => walkAll items usage
  | .dict fields, usage =>
    match inspect int0 fields with
    | .error e => .error e
    | .ok (.claim bits zones) =>
      .ok { used := usage.used ||| bits, zones := zones ++ usage.zones }
    | .ok .enter => walkFields fields usage
  | _, usage => .ok usage
termination_by structural j => j

def walkAll : List Json → Usage → Except Failure Usage
  | [], usage => .ok usage
  | item :: rest, usage =>
    match walkAll rest usage with
    | .error e => .error e
    | .ok usage => walk item usage
termination_by structural l => l

def walkFields : List (String × Json) → Usage → Except Failure Usage
  | [], usage => .ok usage
  | (_, item) :: rest, usage =>
    match walkFields rest usage with
    | .error e => .error e
    | .ok usage => walk item usage
termination_by structural l => l

end

/-- `_nft_usage`. -/
def nftUsage (value : Json) : Except Failure Usage :=
  walk int0 value {}

end Numbers

end ProgramSplit.Linux
