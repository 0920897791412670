/-
# Linux.IptablesMarks — packet-mark bits of an iptables dump

`_iptables_records`, `_rule`, `_split_mark`, `_target_bits` and `_legacy_mask` of
`inventory.py`: the text of an `iptables-save` dump is cut into records of tokens, each
rule into its matches, its target and the target's options, and the mark bits are added
up; what cannot be classified raises.
-/
import ProgramSplit.Linux.NftMarks

namespace ProgramSplit.Linux

open Lib

set_option autoImplicit false

/-- A value of a record; a quoted one is never a keyword. -/
structure Token where
  text : String
  quoted : Bool := false
  deriving DecidableEq, Repr

/-! ## `_iptables_records` -/

/-- The lexer's variables. -/
structure Lexer where
  records : List (List Token) := []
  record : List Token := []
  token : List Char := []
  quoted : Bool := false
  escaped : Bool := false
  started : Bool := false
  comment : Bool := false
  wasQuoted : Bool := false

/-- A blank ends the token; a newline ends the record too. -/
def Lexer.blank (l : Lexer) (char : Char) : Lexer :=
  let l := if l.started then
      { l with
        record := l.record ++ [⟨String.ofList l.token, l.wasQuoted⟩]
        token := []
        started := false
        wasQuoted := false }
    else l
  if char = '\n' ∧ l.record ≠ [] then { l with records := l.records ++ [l.record], record := [] }
  else l

/-- One turn of the loop over the characters. -/
def Lexer.feed (l : Lexer) (char : Char) : Lexer :=
  if l.comment then { l with comment := char ≠ '\n' }
  else if l.quoted then
    if l.escaped then { l with token := l.token ++ [char], escaped := false }
    else if char = '\\' then { l with escaped := true }
    else if char = '"' then { l with quoted := false }
    else { l with token := l.token ++ [char] }
  else if char = '#' ∧ l.record = [] ∧ !l.started then { l with comment := true }
  else if char = ' ' ∨ char = '\t' ∨ char = '\r' ∨ char = '\n' then l.blank char
  else if char = '"' then { l with started := true, quoted := true, wasQuoted := true }
  else { l with started := true, token := l.token ++ [char] }

/-- `_iptables_records`; none for an unterminated quote. -/
def iptablesRecords (text : String) : Option (List (List Token)) :=
  let l := (text.toList ++ ['\n']).foldl Lexer.feed {}
  if l.quoted then none else some l.records

/-! ## `_rule` -/

def verdicts : List String := ["ACCEPT", "DROP", "RETURN", "QUEUE"]

/-- An unquoted `-j` or `-g`. -/
def Token.isJump (t : Token) : Bool :=
  !t.quoted && (t.text ∈ ["-j", "--jump", "-g", "--goto"])

/-- The parts of a rule: match tokens, target extension, target tokens. -/
structure Split where
  matches_ : List Token
  target : Option String
  rest : List Token

/-- What follows the jump keyword. -/
def splitJump (chains : List String) (before : List Token) (jump : Token) : List Token → Option Split
  | [] => none
  | name :: rest =>
    if name.quoted then none
    else if jump.text = "-g" ∨ jump.text = "--goto" ∨ name.text ∈ chains ∨ name.text ∈ verdicts then
      -- a chain jump or verdict takes no options
      if rest = [] then some ⟨before, none, []⟩ else none
    else some ⟨before, some name.text, rest⟩

/-- `_rule`; none for its ValueErrors. -/
def splitRule (chains : List String) : List Token → Option Split
  | first :: second :: arguments =>
    if (first.text = "-A" ∨ first.text = "-I") ∧ !first.quoted ∧ !second.quoted then
      let before := arguments.takeWhile (!·.isJump)
      match arguments.dropWhile (!·.isJump) with
      | [] => some ⟨before, none, []⟩
      | jump :: after =>
        if after.any Token.isJump then none else splitJump chains before jump after
    else none
  | _ => none

/-! ## `_legacy_mask` -/

section Numbers

-- Python's int(value, 0) and int(value, 10); none for a ValueError
variable (int0 int10 : String → Option Int)

def valueError : Failure := .python "ValueError"

/-- `_u32` of a text. -/
def u32Text (text : String) : Except Failure Mark := u32 int0 (.str text)

/-- `_split_mark`. -/
def splitMark (text : String) : Except Failure (Mark × Mark) :=
  match (text.toList.splitOn '/').map String.ofList with
  | [value] => (u32Text int0 value).map fun v => (v, BitVec.allOnes 32)
  | [value, mask] =>
    match u32Text int0 value with
    | .ok v => (u32Text int0 mask).map fun m => (v, m)
    | .error e => .error e
  | _ => .error valueError

def markOperations : List String :=
  ["--set-xmark", "--set-mark", "--and-mark", "--or-mark", "--xor-mark", "--save-mark", "--restore-mark"]

/-- `_MARK_TARGETS`: the options each modelled target takes. -/
def markTargets : String → Option (List String)
  | "MARK" => some ["--set-xmark", "--set-mark", "--and-mark", "--or-mark", "--xor-mark"]
  | "CONNMARK" => some ["--set-xmark", "--set-mark", "--and-mark", "--or-mark", "--xor-mark",
      "--save-mark", "--restore-mark", "--nfmask", "--ctmask", "--mask", "--left-shift-mark",
      "--right-shift-mark"]
  | "TPROXY" => some ["--on-port", "--on-ip", "--tproxy-mark"]
  | _ => none

def markFlags : List String := ["--save-mark", "--restore-mark"]

def nonMarkTargets : List String :=
  ["ACCEPT", "DROP", "RETURN", "QUEUE", "REJECT", "LOG", "NFLOG", "ULOG", "MASQUERADE", "SNAT", "DNAT",
   "REDIRECT", "NETMAP", "DNPT", "SNPT", "CT", "NOTRACK", "TCPMSS", "TCPOPTSTRIP", "DSCP", "TOS", "ECN",
   "TTL", "HL", "CLASSIFY", "CHECKSUM", "SECMARK", "CONNSECMARK", "AUDIT", "TRACE", "SYNPROXY",
   "IDLETIMER", "LED", "RATEEST", "NFQUEUE", "SET"]

/-- The options of a target with their values; flags have none. -/
abbrev Options := List (String × Option String)

def Options.has (options : Options) (key : String) : Bool := (options.lookup key).isSome

/-- The value of an option that is given one. -/
def Options.value (options : Options) (key : String) : Option String := (options.lookup key).join

/-- The loop that reads a target's options; none for its ValueErrors and IndexError. -/
def parseOptions (allowed : List String) : List Token → Options → Option Options
  | [], options => some options
  | token :: rest, options =>
    if token.quoted ∨ token.text ∉ allowed ∨ options.has token.text then none
    else if token.text ∈ markFlags then parseOptions allowed rest (options ++ [(token.text, none)])
    else
      match rest with
      | [] => none
      | value :: rest =>
        if value.quoted then none
        else parseOptions allowed rest (options ++ [(token.text, some value.text)])

/-- The shift a CONNMARK target applies to the mark it copies. -/
inductive Shift
  | none
  | left (bits : Nat)
  | right (bits : Nat)
  deriving DecidableEq, Repr

def Shift.apply : Shift → Mark → Mark
  | .none, m => m
  | .left bits, m => m <<< bits
  | .right bits, m => m >>> bits

/-- The number of bits of a shift option. -/
def shiftBits (text : String) : Except Failure Nat :=
  match int10 text with
  | some n => if 0 ≤ n ∧ n ≤ 31 then .ok n.toNat else .error valueError
  | none => .error valueError

def shiftOption (options : Options) : Except Failure Shift :=
  match options.value "--left-shift-mark", options.value "--right-shift-mark" with
  | some _, some _ => .error valueError
  | some left, none => (shiftBits int10 left).map .left
  | none, some right => (shiftBits int10 right).map .right
  | none, none => .ok .none

/-- `options.get(key, options.get('--mask', '0xffffffff'))`, read as a number. -/
def connMask (options : Options) (key : String) : Except Failure Mark :=
  match (options.value key).or (options.value "--mask") with
  | some text => u32Text int0 text
  | none => .ok (BitVec.allOnes 32)

/-- The packet-mark bits `CONNMARK --restore-mark` can change. -/
def restoreBits (options : Options) : Except Failure Mark :=
  if options.has "--mask" ∧ (options.has "--nfmask" ∨ options.has "--ctmask") then .error valueError
  else
    match connMask int0 options "--nfmask", connMask int0 options "--ctmask" with
    | .ok nfmask, .ok ctmask =>
      (shiftOption int10 options).map fun shift => nfmask ||| shift.apply ctmask
    | .error e, _ => .error e
    | _, .error e => .error e

/-- The packet-mark bits a MARK target can change. -/
def markBits (operation text : String) : Except Failure Mark :=
  (splitMark int0 text).map fun (value, mask) =>
    if operation = "--and-mark" then ~~~value
    else if operation = "--or-mark" ∨ operation = "--xor-mark" then value
    else mask ||| value

/-- `_target_bits`. -/
def targetBits (target : String) (options : Options) : Except Failure Mark :=
  if target = "TPROXY" then
    match options.value "--tproxy-mark" with
    | none => .ok 0
    | some text => (splitMark int0 text).map fun (value, mask) => value ||| mask
  else
    match markOperations.filter options.has with
    | [operation] =>
      if target = "MARK" then
        match options with
        | [(_, some text)] => markBits int0 operation text
        | _ => .error valueError
      -- every other CONNMARK operation writes the conntrack mark only
      else if operation ≠ "--restore-mark" then .ok 0
      else restoreBits int0 int10 options
    | _ => .error valueError

/-- The token at an index. -/
def textAt (tokens : List Token) (i : Nat) : Option String := tokens[i]?.map (·.text)

/-- Where the module of the `--mark` at an index begins: it stands right before, or
before a `!`. -/
def moduleStart (tokens : List Token) (index : Nat) : Nat :=
  if 3 ≤ index ∧ textAt tokens (index - 1) = some "!" then index - 3 else index - 2

/-- The `--mark` at an index of the matches. -/
def markMatchBits (tokens : List Token) (index : Nat) : Except Failure Mark :=
  let start := moduleStart tokens index
  if index < 2 then .error valueError
  else if textAt tokens start ≠ some "-m" ∧ textAt tokens start ≠ some "--match" then .error valueError
  else if tokens[start]?.any (·.quoted) then .error valueError
  else if textAt tokens (start + 1) ≠ some "mark" ∧ textAt tokens (start + 1) ≠ some "connmark" then
    .error valueError
  else
    match textAt tokens (index + 1) with
    | none => .error valueError
    | some text =>
      (splitMark int0 text).map fun (value, mask) =>
        if textAt tokens (start + 1) = some "mark" then value ||| mask else 0

/-- The turn of the loop over the match tokens at an index. -/
def matchBits (tokens : List Token) (index : Nat) : Except Failure Mark :=
  match tokens[index]? with
  | none => .ok 0
  | some token =>
    if token.quoted then .ok 0
    else if token.text = "--mark" then markMatchBits int0 tokens index
    else if token.text = "--restore-skmark" then .error valueError
    else if token.text ∈ markOperations ∨ token.text ∈ ["--nfmask", "--ctmask", "--tproxy-mark",
        "--left-shift-mark", "--right-shift-mark"] then .error valueError
    else .ok 0

def matchesBits (tokens : List Token) : List Nat → Except Failure Mark
  | [] => .ok 0
  | index :: rest =>
    match matchBits int0 tokens index with
    | .error e => .error e
    | .ok bits => (matchesBits tokens rest).map (bits ||| ·)

/-- The target's part of the loop body. -/
def jumpBits (target : Option String) (rest : List Token) : Except Failure Mark :=
  match target with
  | none => .ok 0
  | some name =>
    match markTargets name with
    | some allowed =>
      match parseOptions allowed rest [] with
      | some options => targetBits int0 int10 name options
      | none => .error valueError
    | none =>
      if name ∉ nonMarkTargets then
        .error (.network ("iptables target " ++ name ++ " may write the packet mark and is not " ++
          "modelled; refused as a conflict"))
      else if name = "SET" ∧ ⟨"--map-mark", false⟩ ∈ rest then .error valueError
      else .ok 0

def unsupportedState : Failure := .network "unsupported iptables mark state"

/-- `except (ValueError, IndexError)` of the loop body. -/
def asUnsupported : Except Failure Mark → Except Failure Mark
  | .error (.python _) => .error unsupportedState
  | other => other

/-- One rule of the dump. -/
def ruleBits (chains : List String) (record : List Token) : Except Failure Mark :=
  asUnsupported <|
    match splitRule chains record with
    | none => .error valueError
    | some rule =>
      match matchesBits int0 rule.matches_ (List.range rule.matches_.length) with
      | .error e => .error e
      | .ok bits => (jumpBits int0 int10 rule.target rule.rest).map (bits ||| ·)

/-- Whether a record is a table, a chain declaration or anything else. -/
inductive RecordKind
  | table
  | chain (name : String)
  | commit
  | rule

def recordKind (record : List Token) : RecordKind :=
  match record with
  | first :: rest =>
    if !first.quoted ∧ first.text.toList.head? = some '*' then .table
    else if !first.quoted ∧ first.text.toList.head? = some ':' then
      .chain (String.ofList first.text.toList.tail)
    else if first.text = "COMMIT" ∧ rest = [] then .commit
    else .rule
  | [] => .rule

/-- The loop over the records, with the chains declared so far. -/
def recordsBits (chains : List String) : List (List Token) → Except Failure Mark
  | [] => .ok 0
  | record :: rest =>
    match recordKind record with
    | .table => recordsBits [] rest
    | .chain name => recordsBits (name :: chains) rest
    | .commit => recordsBits chains rest
    | .rule =>
      match ruleBits int0 int10 chains record with
      | .error e => .error e
      | .ok bits => (recordsBits chains rest).map (bits ||| ·)

/-- `_legacy_mask`. -/
def legacyMask (text : String) : Except Failure Mark :=
  match iptablesRecords text with
  | none => .error unsupportedState
  | some records => recordsBits int0 int10 [] records

end Numbers

end ProgramSplit.Linux
