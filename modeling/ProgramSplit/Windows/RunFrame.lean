/-
# Windows.RunFrame — the bounded runner's frame and its two readers

`boundedRun` of `bounded-run.h` reports a run as ASCII lines. `Complete-ProgramSplitProcess` of
`Common.ps1` and `resultFrame` of `tray-support.h` each have a parser of their own for them: the first
splits at line ends and keeps what has an equals sign, the second wants a header, no field twice and a
complete last line.

* `lines_frame` — both see the same eight lines;
* `complete_frame` — the PowerShell side gets everything back;
* `resultFrame_ok_iff` — when the tray reports success;
* `frame_read_back` — both, and the command line that comes in encoded.
-/
import Mathlib.Data.Bool.AllAny
import ProgramSplit.Lib.Utf16
import ProgramSplit.Windows.RunnerCodec

namespace ProgramSplit.Windows.Runner

open Lib.Base64
open Lib.Digits (decimal isDigit_of_mem_decimal)
open Wfp (WString memory units units_memory)

set_option autoImplicit false

/-! ## The frame -/

/-- What a run leaves to report. -/
structure RunResult where
  exitCode : Option UInt32
  timedOut : Bool
  runtime : Int64
  stdoutTruncated : Bool
  stderrTruncated : Bool
  stdout : Bytes
  stderr : Bytes

/-- `std::to_string` of a signed number. -/
def toText : Int → Text
  | .ofNat n => decimal n
  | .negSucc n => '-' :: decimal (n + 1)

def flag (b : Bool) : Text := if b then ['1'] else ['0']

/-- The frame that `boundedRun` writes. -/
def frame (r : RunResult) : Text :=
  "WGPS-RUN 1\r\nexit=".toList ++ (match r.exitCode with | some code => decimal code.toNat | none => []) ++
    "\r\ntimedout=".toList ++ flag r.timedOut ++ "\r\nruntime=".toList ++ toText r.runtime.toInt ++
    "\r\nstdout-truncated=".toList ++ flag r.stdoutTruncated ++
    "\r\nstderr-truncated=".toList ++ flag r.stderrTruncated ++
    "\r\nstdout=".toList ++ base64Encode r.stdout ++ "\r\nstderr=".toList ++ base64Encode r.stderr ++
    "\r\n".toList

/-! ## Lines and fields -/

/-- One carriage return at the end of a line goes with the line end. -/
def chomp (line : Text) : Text := if line.getLast? = some '\r' then line.dropLast else line

/-- Split at line ends; what follows the last one is the last piece. -/
def lines (current : Text) : Text → List Text
  | [] => [current]
  | c :: rest => if c = '\n' then chomp current :: lines [] rest else lines (current ++ [c]) rest

/-- The two sides of the first equals sign. -/
def cut : Text → Option (Text × Text)
  | [] => none
  | c :: rest => if c = '=' then some ([], rest) else (cut rest).map fun (key, value) => (c :: key, value)

/-! ## `Complete-ProgramSplitProcess` -/

/-- Keys of a PowerShell hashtable differ in more than case. -/
def sameKey (a b : Text) : Bool := a.map Char.toLower == b.map Char.toLower

/-- The value a key was last given, and `$null` if it was given none. A string parameter takes `$null`
as the empty text. -/
def get (fields : List (Text × Text)) (key : Text) : Option Text :=
  (fields.reverse.find? fun field => sameKey field.1 key).map Prod.snd

def isBlank (c : Char) : Bool := c ∈ [' ', '\t', '\n', '\r']

/-- The symbol of a character of base64 text. -/
def symbolOf (c : Char) : Option Symbol :=
  if c = '=' then some none
  else
    match kAlphabet.findIdx? (· == c) with
    | some i => if small : i < 64 then some (some ⟨i, small⟩) else none
    | none => none

/-- `Convert.FromBase64String`, and `CryptStringToBinaryA` with `CRYPT_STRING_BASE64`. -/
def fromBase64 (text : Text) : Option Bytes :=
  ((text.filter fun c => !isBlank c).mapM symbolOf).bind bytes

def digits (text : Text) : Option Nat :=
  if text ≠ [] ∧ text.all Char.isDigit then some (Nat.ofDigitChars 10 text 0) else none

/-- Digits of an unsigned 32-bit number: `std::from_chars` to the end of the text. -/
def fromChars (text : Text) : Option UInt32 :=
  (digits text).bind fun n => if n < 2 ^ 32 then some (UInt32.ofNat n) else none

/-- `UInt32.TryParse`: blanks around and a plus sign are allowed, a minus sign before zero. -/
def tryParse (text : Text) : Option UInt32 :=
  match ((text.dropWhile isBlank).reverse.dropWhile isBlank).reverse with
  | '+' :: rest => fromChars rest
  | '-' :: rest => if digits rest = some 0 then some 0 else none
  | rest => fromChars rest

/-- A whole decimal number. -/
def signed : Text → Option Int
  | '-' :: rest => (digits rest).map fun n => -Int.ofNat n
  | rest => (digits rest).map Int.ofNat

/-- `[long]` of a whole decimal number, and zero of `$null` and of the empty text. -/
def toLong (field : Option Text) : Option Int :=
  match field.getD [] with
  | [] => some 0
  | text =>
    (signed text).bind fun n => if -0x8000000000000000 ≤ n ∧ n < 0x8000000000000000 then some n else none

inductive Failure
  | runner
  | start (reason : Text)
  | base64
  | exitCode (text : Text)
  | runtime

structure Completed where
  exitCode : Option Int32
  timedOut : Bool
  outputTruncated : Bool
  errorTruncated : Bool
  output : Bytes
  error : Bytes
  milliseconds : Int

/-- The signed exit code of a field: an empty one is none. -/
def exitCodeOf (exit : Text) : Except Failure (Option Int32) :=
  if exit = [] then .ok none
  else
    match tryParse exit with
    | some unsigned => .ok (some unsigned.toInt32)
    | none => .error (.exitCode exit)

/-- The frame of a run as `Complete-ProgramSplitProcess` reads it; the bytes of the two streams are
what it hands to the encoding of the producer. -/
def complete (text : Text) : Except Failure Completed := do
  let fields := (lines [] text).filterMap cut
  if ¬ "WGPS-RUN 1".toList.isPrefixOf text then throw .runner
  if fields.any fun field => sameKey field.1 "error".toList then
    throw (.start ((get fields "error".toList).getD []))
  let output ← (fromBase64 ((get fields "stdout".toList).getD [])).elim (.error .base64) .ok
  let error ← (fromBase64 ((get fields "stderr".toList).getD [])).elim (.error .base64) .ok
  let exitCode ← exitCodeOf ((get fields "exit".toList).getD [])
  let milliseconds ← (toLong (get fields "runtime".toList)).elim (.error .runtime) .ok
  return {
    exitCode := exitCode
    timedOut := get fields "timedout".toList == some ['1']
    outputTruncated := get fields "stdout-truncated".toList == some ['1']
    errorTruncated := get fields "stderr-truncated".toList == some ['1']
    output := output
    error := error
    milliseconds := milliseconds }

/-! ## `resultFrame` -/

inductive TrayError
  | incompleteLine
  | header
  | fields
  | incomplete
  | exitCode
  | base64
  | utf8
  deriving DecidableEq

structure Result where
  ok : Bool
  message : WString
  deriving DecidableEq

/-- The fields of the lines after the header: no line without an equals sign, no key twice. -/
def readFields (fields : List (Text × Text)) : List Text → Option (List (Text × Text))
  | [] => some fields
  | line :: rest =>
    if line = [] then readFields fields rest
    else
      match cut line with
      | none => none
      | some field =>
        if fields.any (·.1 == field.1) then none else readFields (fields ++ [field]) rest

def wideText (text : String) : WString := Lib.Utf16.encode text.toList

/-- `decode` of `resultFrame`: display decoding replaces what is no UTF-8, strict decoding refuses it. -/
def decode (strictOutput : Bool) (bytes : Bytes) : Option WString :=
  if strictOutput then Lib.Utf16.wideStrict bytes else some (Lib.Utf16.wide bytes)

/-- `unbase64` -/
def unbase64 (text : Text) : Option Bytes := if text = [] then some [] else fromBase64 text

/-- A stream's text, as the message of a result. -/
def streamText (strictOutput : Bool) (text : Text) : Except TrayError WString :=
  match unbase64 text with
  | none => .error .base64
  | some bytes => (decode strictOutput bytes).elim (.error .utf8) .ok

/-- The result with a message, or a sentence in its place. -/
def resultOf (code : UInt32) (message : WString) : Result where
  ok := code == 0
  message :=
    if message ≠ [] then message
    else if code ≠ 0 then
      wideText "The operation failed (exit " ++ Lib.Utf16.encode (decimal code.toNat) ++ wideText ")."
    else wideText "The operation completed."

/-- The result of a run that ended by itself, within its limits. -/
def report (strictOutput : Bool) (code : UInt32) (stdout stderr : Text) : Except TrayError Result :=
  match streamText strictOutput (if code ≠ 0 then stderr else stdout) with
  | .error e => .error e
  | .ok message =>
    if message = [] then
      match streamText strictOutput (if code ≠ 0 then stdout else stderr) with
      | .error e => .error e
      | .ok message => .ok (resultOf code message)
    else .ok (resultOf code message)

/-- What the fields of a frame say. -/
def judge (strictOutput : Bool) (fields : List (Text × Text)) : Except TrayError Result :=
  match fields.lookup "error".toList with
  | some reason => .ok { ok := false, message := Lib.Utf16.encode reason }
  | none =>
    match fields.lookup "exit".toList, fields.lookup "timedout".toList,
        fields.lookup "stdout-truncated".toList, fields.lookup "stderr-truncated".toList,
        fields.lookup "stdout".toList, fields.lookup "stderr".toList with
    | some exit, some timedOut, some outTruncated, some errTruncated, some stdout, some stderr =>
      if timedOut ≠ ['0'] then
        .ok { ok := false, message := wideText "The operation exceeded its deadline." }
      else if outTruncated ≠ ['0'] ∨ errTruncated ≠ ['0'] then
        .ok { ok := false, message := wideText "The operation produced too much output." }
      else
        match fromChars exit with
        | none => .error .exitCode
        | some code => report strictOutput code stdout stderr
    | _, _, _, _, _, _ => .error .incomplete

def resultFrame (text : Text) (strictOutput : Bool) : Except TrayError Result :=
  if text = [] ∨ text.getLast? ≠ some '\n' then .error .incompleteLine
  else
    match (lines [] text).dropLast with
    | [] => .error .incomplete
    | header :: rest =>
      if header ≠ "WGPS-RUN 1".toList then .error .header
      else
        match readFields [] rest with
        | none => .error .fields
        | some fields => judge strictOutput fields

/-! ## Numbers -/

theorem digits_decimal (n : Nat) : digits (decimal n) = some n := by
  have all : (decimal n).all Char.isDigit :=
    List.all_eq_true.mpr fun _ member => isDigit_of_mem_decimal member
  have nonempty : decimal n ≠ [] := List.ne_nil_of_length_pos Nat.length_toDigits_pos
  rw [digits, if_pos ⟨nonempty, all⟩]
  exact congrArg some (Nat.ofDigitChars_toDigits (by decide) (by decide))

theorem fromChars_decimal (code : UInt32) : fromChars (decimal code.toNat) = some code := by
  rw [fromChars, digits_decimal, Option.bind_some, if_pos code.toNat_lt, UInt32.ofNat_toNat]

/-- A number begins with a digit. -/
theorem decimal_cons (n : Nat) : ∃ c rest, decimal n = c :: rest ∧ c.isDigit = true := by
  obtain ⟨c, rest, text⟩ := List.exists_cons_of_length_pos (Nat.length_toDigits_pos (b := 10) (n := n))
  have member : c ∈ decimal n := by
    unfold decimal
    rw [text]
    exact List.mem_cons_self
  exact ⟨c, rest, text, isDigit_of_mem_decimal member⟩

theorem not_blank_of_digit {c : Char} (digit : c.isDigit = true) : isBlank c = false := by
  by_contra blank
  simp only [isBlank, List.mem_cons, List.not_mem_nil, or_false, decide_eq_true_eq,
    Bool.not_eq_false] at blank
  rcases blank with rfl | rfl | rfl | rfl <;> exact absurd digit (by decide)

theorem dropWhile_blank {text : Text} (plain : ∀ c ∈ text, isBlank c = false) :
    text.dropWhile isBlank = text := by
  cases text with
  | nil => rfl
  | cons c rest => rw [List.dropWhile_cons_of_neg (by simp [plain c List.mem_cons_self])]

theorem tryParse_decimal (code : UInt32) : tryParse (decimal code.toNat) = some code := by
  have plain : ∀ c ∈ decimal code.toNat, isBlank c = false :=
    fun _ member => not_blank_of_digit (isDigit_of_mem_decimal member)
  have trimmed : (((decimal code.toNat).dropWhile isBlank).reverse.dropWhile isBlank).reverse =
      decimal code.toNat := by
    rw [dropWhile_blank plain, dropWhile_blank (fun c member => plain c (List.mem_reverse.mp member)),
      List.reverse_reverse]
  obtain ⟨c, rest, text, digit⟩ := decimal_cons code.toNat
  have whole := fromChars_decimal code
  rw [tryParse, trimmed]
  rw [text] at whole ⊢
  split
  · rename_i same
    rw [(List.cons.inj same).1] at digit
    exact absurd digit (by decide)
  · rename_i same
    rw [(List.cons.inj same).1] at digit
    exact absurd digit (by decide)
  · exact whole

theorem signed_toText (i : Int) : signed (toText i) = some i := by
  cases i with
  | ofNat k =>
    obtain ⟨c, rest, text, digit⟩ := decimal_cons k
    have whole := digits_decimal k
    simp only [toText]
    rw [text] at whole ⊢
    unfold signed
    split
    · rename_i same
      rw [(List.cons.inj same).1] at digit
      exact absurd digit (by decide)
    · rw [whole]
      rfl
  | negSucc k =>
    simp only [toText, signed, digits_decimal]
    rfl

theorem toLong_toText (n : Int64) : toLong (some (toText n.toInt)) = some n.toInt := by
  have bounds : -0x8000000000000000 ≤ n.toInt ∧ n.toInt < 0x8000000000000000 := by
    have low := n.le_toInt
    have high := n.toInt_lt
    omega
  have read := signed_toText n.toInt
  unfold toLong
  split
  next empty =>
    rw [show toText n.toInt = [] from empty] at read
    cases read
  next => rw [Option.getD_some, read, Option.bind_some, if_pos bounds]

/-! ## Base64 text -/

theorem symbolOf_character (s : Symbol) : symbolOf (character s) = some s := by
  cases s with
  | none => decide +kernel
  | some d =>
    revert d
    decide +kernel

theorem character_plain (s : Symbol) : isBlank (character s) = false := by
  cases s with
  | none => decide +kernel
  | some d =>
    revert d
    decide +kernel

theorem base64Encode_plain {bytes : Bytes} {c : Char} (member : c ∈ base64Encode bytes) :
    isBlank c = false := by
  rw [base64Encode_eq] at member
  obtain ⟨s, -, rfl⟩ := List.mem_map.mp member
  exact character_plain s

theorem mapM_symbolOf (l : List Symbol) : (l.map character).mapM symbolOf = some l := by
  induction l with
  | nil => rfl
  | cons s l ih =>
    rw [List.map_cons, List.mapM_cons, symbolOf_character, ih]
    rfl

theorem fromBase64_encode (l : Bytes) : fromBase64 (base64Encode l) = some l := by
  have kept : (base64Encode l).filter (fun c => !isBlank c) = base64Encode l := by
    rw [List.filter_eq_self]
    intro c member
    rw [base64Encode_plain member]
    rfl
  rw [fromBase64, kept, base64Encode_eq, mapM_symbolOf, Option.bind_some, bytes_symbols]

theorem unbase64_encode (l : Bytes) : unbase64 (base64Encode l) = some l := by
  unfold unbase64
  split_ifs with empty
  · have read := fromBase64_encode l
    rw [empty] at read
    exact read
  · exact fromBase64_encode l

/-! ## The lines of a frame -/

theorem lines_line {line : Text} (plain : '\n' ∉ line) (current rest : Text) :
    lines current (line ++ '\n' :: rest) = chomp (current ++ line) :: lines [] rest := by
  induction line generalizing current with
  | nil => simp [lines]
  | cons c line ih =>
    have other : c ≠ '\n' := fun isEnd => plain (isEnd ▸ List.mem_cons_self)
    rw [List.cons_append, lines, if_neg other, ih fun member => plain (List.mem_cons_of_mem c member)]
    simp

theorem lines_crlf {line : Text} (plain : '\n' ∉ line) (rest : Text) :
    lines [] (line ++ '\r' :: '\n' :: rest) = line :: lines [] rest := by
  have ended : '\n' ∉ line ++ ['\r'] := by simpa using plain
  have text : line ++ '\r' :: '\n' :: rest = (line ++ ['\r']) ++ '\n' :: rest := by simp
  rw [text, lines_line ended]
  simp [chomp]

theorem lines_all {all : List Text} (plain : ∀ line ∈ all, '\n' ∉ line) :
    lines [] (all.flatMap (· ++ ['\r', '\n'])) = all ++ [[]] := by
  induction all with
  | nil => rfl
  | cons line all ih =>
    rw [List.flatMap_cons, List.append_assoc, List.cons_append, List.cons_append, List.nil_append,
      lines_crlf (plain line List.mem_cons_self), ih fun l member => plain l (List.mem_cons_of_mem _ member)]
    rfl

def exitText (r : RunResult) : Text :=
  match r.exitCode with
  | some code => decimal code.toNat
  | none => []

/-- The fields of a frame. -/
def fieldsOf (r : RunResult) : List (Text × Text) :=
  [("exit".toList, exitText r), ("timedout".toList, flag r.timedOut),
    ("runtime".toList, toText r.runtime.toInt), ("stdout-truncated".toList, flag r.stdoutTruncated),
    ("stderr-truncated".toList, flag r.stderrTruncated), ("stdout".toList, base64Encode r.stdout),
    ("stderr".toList, base64Encode r.stderr)]

def fieldLine (field : Text × Text) : Text := field.1 ++ '=' :: field.2

variable (r : RunResult)

theorem frame_eq :
    frame r = ("WGPS-RUN 1".toList :: (fieldsOf r).map fieldLine).flatMap (· ++ ['\r', '\n']) := by
  unfold frame fieldsOf fieldLine exitText
  simp

theorem cut_fieldLine {key : Text} (plain : '=' ∉ key) (value : Text) :
    cut (key ++ '=' :: value) = some (key, value) := by
  induction key with
  | nil => rfl
  | cons c key ih =>
    have other : c ≠ '=' := fun isEquals => plain (isEquals ▸ List.mem_cons_self)
    rw [List.cons_append, cut, if_neg other, ih fun member => plain (List.mem_cons_of_mem c member)]
    rfl

/-- Keys hold no equals sign and values no blank, so no line end. -/
theorem fieldsOf_plain {r : RunResult} {field : Text × Text} (member : field ∈ fieldsOf r) :
    '=' ∉ field.1 ∧ '\n' ∉ field.1 ∧ ∀ c ∈ field.2, isBlank c = false := by
  have number : ∀ n, ∀ c ∈ decimal n, isBlank c = false :=
    fun n _ inside => not_blank_of_digit (isDigit_of_mem_decimal inside)
  have flags : ∀ b, ∀ c ∈ flag b, isBlank c = false := by
    intro b
    cases b <;> exact List.all_iff_forall_prop.mp (by decide)
  have signed : ∀ i, ∀ c ∈ toText i, isBlank c = false := by
    intro i c inside
    cases i with
    | ofNat n => exact number n c inside
    | negSucc n =>
      rcases List.mem_cons.mp inside with rfl | later
      · decide
      · exact number _ c later
  have exit : ∀ c ∈ exitText r, isBlank c = false := by
    intro c inside
    unfold exitText at inside
    cases code : r.exitCode with
    | none =>
      rw [code] at inside
      cases inside
    | some n =>
      rw [code] at inside
      exact number _ c inside
  simp only [fieldsOf, List.mem_cons, List.not_mem_nil, or_false] at member
  rcases member with rfl | rfl | rfl | rfl | rfl | rfl | rfl
  · exact ⟨by simp, by simp, exit⟩
  · exact ⟨by simp, by simp, flags _⟩
  · exact ⟨by simp, by simp, signed _⟩
  · exact ⟨by simp, by simp, flags _⟩
  · exact ⟨by simp, by simp, flags _⟩
  · exact ⟨by simp, by simp, fun c inside => base64Encode_plain inside⟩
  · exact ⟨by simp, by simp, fun c inside => base64Encode_plain inside⟩

/-- **The lines of a frame**, as both readers split them. -/
theorem lines_frame :
    lines [] (frame r) = "WGPS-RUN 1".toList :: (fieldsOf r).map fieldLine ++ [[]] := by
  rw [frame_eq, lines_all]
  intro line member ended
  rcases List.mem_cons.mp member with rfl | inFields
  · exact absurd ended (by decide)
  · obtain ⟨field, inside, rfl⟩ := List.mem_map.mp inFields
    obtain ⟨-, key, value⟩ := fieldsOf_plain inside
    rcases List.mem_append.mp ended with inKey | inValue
    · exact key inKey
    · rcases List.mem_cons.mp inValue with equals | later
      · exact absurd equals (by decide)
      · exact absurd (value _ later) (by decide)

theorem cut_fieldsOf {r : RunResult} {field : Text × Text} (member : field ∈ fieldsOf r) :
    cut (fieldLine field) = some field :=
  cut_fieldLine (fieldsOf_plain member).1 field.2

/-! ## The PowerShell side -/

theorem fields_frame : (lines [] (frame r)).filterMap cut = fieldsOf r := by
  have fields : ((fieldsOf r).map fieldLine).filterMap cut = fieldsOf r := by
    have each : (fieldsOf r).filterMap (cut ∘ fieldLine) = (fieldsOf r).filterMap some :=
      List.filterMap_congr fun field member => cut_fieldsOf member
    rw [List.filterMap_map, each, List.filterMap_some]
  have header : cut "WGPS-RUN 1".toList = none := by decide
  rw [lines_frame, List.filterMap_append, List.filterMap_cons, header]
  exact List.append_nil _

theorem frame_header : "WGPS-RUN 1".toList.isPrefixOf (frame r) = true := by
  rw [List.isPrefixOf_iff_prefix, frame_eq, List.flatMap_cons, List.append_assoc]
  exact List.prefix_append _ _

theorem flag_eq (b : Bool) : (some (flag b) == some ['1']) = b := by
  cases b <;> rfl

theorem exitCodeOf_exitText : exitCodeOf (exitText r) = .ok (r.exitCode.map UInt32.toInt32) := by
  unfold exitText exitCodeOf
  cases r.exitCode with
  | none => rfl
  | some n =>
    have nonempty : decimal n.toNat ≠ [] := List.ne_nil_of_length_pos Nat.length_toDigits_pos
    simp only [nonempty, if_false, tryParse_decimal]
    rfl

/-- **The PowerShell side gets everything back.** -/
theorem complete_frame :
    complete (frame r) = .ok {
      exitCode := r.exitCode.map UInt32.toInt32
      timedOut := r.timedOut
      outputTruncated := r.stdoutTruncated
      errorTruncated := r.stderrTruncated
      output := r.stdout
      error := r.stderr
      milliseconds := r.runtime.toInt } := by
  have noError : ((fieldsOf r).any fun field => sameKey field.1 "error".toList) = false := rfl
  have exit : get (fieldsOf r) "exit".toList = some (exitText r) := rfl
  have timedOut : get (fieldsOf r) "timedout".toList = some (flag r.timedOut) := rfl
  have runtime : get (fieldsOf r) "runtime".toList = some (toText r.runtime.toInt) := rfl
  have outTruncated : get (fieldsOf r) "stdout-truncated".toList = some (flag r.stdoutTruncated) := rfl
  have errTruncated : get (fieldsOf r) "stderr-truncated".toList = some (flag r.stderrTruncated) := rfl
  have stdout : get (fieldsOf r) "stdout".toList = some (base64Encode r.stdout) := rfl
  have stderr : get (fieldsOf r) "stderr".toList = some (base64Encode r.stderr) := rfl
  unfold complete
  simp only [fields_frame, frame_header, not_true_eq_false, if_false, noError, exit, timedOut, runtime,
    outTruncated, errTruncated, stdout, stderr, Option.getD_some, fromBase64_encode, toLong_toText,
    exitCodeOf_exitText, flag_eq]
  rfl

/-! ## The tray -/

theorem readFields_map {fields : List (Text × Text)} : ∀ {known : List (Text × Text)},
    (∀ field ∈ fields, cut (fieldLine field) = some field) → ((known ++ fields).map Prod.fst).Nodup →
    readFields known (fields.map fieldLine) = some (known ++ fields) := by
  induction fields with
  | nil =>
    intro known _ _
    simp [readFields]
  | cons field fields ih =>
    intro known cuts distinct
    have nonempty : fieldLine field ≠ [] := by simp [fieldLine]
    have fresh : known.any (·.1 == field.1) = false := by
      rw [List.any_eq_false]
      intro other member same
      rw [List.map_append, List.nodup_append] at distinct
      exact distinct.2.2 other.1 (List.mem_map_of_mem member) field.1 (by simp) (eq_of_beq same)
    have later := @ih (known ++ [field]) (fun f member => cuts f (List.mem_cons_of_mem _ member))
      (by simpa using distinct)
    rw [List.map_cons, readFields, if_neg nonempty, cuts field List.mem_cons_self]
    simp only [fresh, Bool.false_eq_true, if_false]
    simpa using later

variable (strictOutput : Bool)

theorem resultFrame_frame :
    resultFrame (frame r) strictOutput = judge strictOutput (fieldsOf r) := by
  have last : (frame r).getLast? = some '\n' := by
    unfold frame
    rw [List.getLast?_append]
    rfl
  have nonempty : frame r ≠ [] := by
    intro empty
    rw [empty] at last
    cases last
  have body : (lines [] (frame r)).dropLast = "WGPS-RUN 1".toList :: (fieldsOf r).map fieldLine := by
    rw [lines_frame]
    exact List.dropLast_concat
  have read : readFields [] ((fieldsOf r).map fieldLine) = some (fieldsOf r) := by
    have distinct : ((fieldsOf r).map Prod.fst).Nodup := by
      simp [fieldsOf]
    exact readFields_map (fun field member => cut_fieldsOf member) (by simpa using distinct)
  rw [resultFrame, if_neg (by simp [nonempty, last]), body]
  simp only [ne_eq, not_true_eq_false, if_false, read]

theorem streamText_encode (l : Bytes) :
    streamText strictOutput (base64Encode l) = (decode strictOutput l).elim (.error .utf8) .ok := by
  rw [streamText, unbase64_encode]

def Utf8 (l : Bytes) : Prop := Lib.Utf16.wideStrict l ≠ none

instance (l : Bytes) : Decidable (Utf8 l) := inferInstanceAs (Decidable (_ ≠ none))

theorem wideStrict_nil {l : Bytes} (read : Lib.Utf16.wideStrict l = some []) : l = [] := by
  obtain ⟨chars, rfl, empty⟩ := Lib.Utf16.wideStrict_eq_some.mp read
  rw [Lib.Utf16.encode_eq_nil.mp empty.symm]
  rfl

/-- The message of a run that succeeded is its output, or its errors where there is no output; what is
decoded strictly has to be UTF-8. -/
theorem report_zero (out err : Bytes) :
    (∃ message, report strictOutput 0 (base64Encode out) (base64Encode err) = .ok ⟨true, message⟩) ↔
      (strictOutput = true → Utf8 (if out = [] then err else out)) := by
  unfold report
  simp only [ne_eq, not_true_eq_false, if_false, streamText_encode]
  cases strictOutput with
  | false =>
    simp only [Bool.false_eq_true, false_implies, iff_true, decode, if_false, Option.elim_some]
    split_ifs
    · exact ⟨_, rfl⟩
    · exact ⟨_, rfl⟩
  | true =>
    simp only [forall_const, decode, if_true]
    cases first : Lib.Utf16.wideStrict out with
    | none =>
      have nonempty : out ≠ [] := by
        rintro rfl
        cases first
      simp only [nonempty, if_false, Utf8, first, ne_eq, not_true_eq_false, iff_false]
      rintro ⟨message, same⟩
      cases same
    | some text =>
      by_cases empty : text = []
      · subst empty
        rw [if_pos (wideStrict_nil first)]
        cases second : Lib.Utf16.wideStrict err with
        | none =>
          simp only [Utf8, second, ne_eq, not_true_eq_false, iff_false]
          rintro ⟨message, same⟩
          cases same
        | some text =>
          simp only [Utf8, second, ne_eq, Option.some_ne_none, not_false_eq_true, iff_true]
          exact ⟨_, rfl⟩
      · have nonempty : out ≠ [] := by
          rintro rfl
          exact empty (Option.some.inj first).symm
        simp only [nonempty, if_false, Utf8, first, ne_eq, Option.some_ne_none, not_false_eq_true, iff_true,
          Option.elim_some, if_neg empty]
        exact ⟨_, rfl⟩

theorem report_ok {strictOutput : Bool} {code : UInt32} {out err : Text} {result : Result}
    (reported : report strictOutput code out err = .ok result) : result.ok = (code == 0) := by
  unfold report at reported
  split at reported
  · cases reported
  · rename_i message _
    by_cases empty : message = []
    · rw [if_pos empty] at reported
      split at reported
      · cases reported
      · cases reported
        rfl
    · rw [if_neg empty] at reported
      cases reported
      rfl

theorem flag_zero (b : Bool) : flag b = ['0'] ↔ b = false := by
  cases b <;> decide

/-- **When the tray reports success.** -/
theorem resultFrame_ok_iff :
    (∃ message, resultFrame (frame r) strictOutput = .ok ⟨true, message⟩) ↔
      r.exitCode = some 0 ∧ r.timedOut = false ∧ r.stdoutTruncated = false ∧ r.stderrTruncated = false ∧
        (strictOutput = true → Utf8 (if r.stdout = [] then r.stderr else r.stdout)) := by
  have judged : judge strictOutput (fieldsOf r) =
      if flag r.timedOut ≠ ['0'] then
        .ok { ok := false, message := wideText "The operation exceeded its deadline." }
      else if flag r.stdoutTruncated ≠ ['0'] ∨ flag r.stderrTruncated ≠ ['0'] then
        .ok { ok := false, message := wideText "The operation produced too much output." }
      else
        match fromChars (exitText r) with
        | none => .error .exitCode
        | some code => report strictOutput code (base64Encode r.stdout) (base64Encode r.stderr) := rfl
  rw [resultFrame_frame, judged]
  simp only [ne_eq, flag_zero, Bool.not_eq_false]
  cases timed : r.timedOut with
  | true => simp
  | false =>
    cases out : r.stdoutTruncated with
    | true => simp
    | false =>
      cases err : r.stderrTruncated with
      | true => simp
      | false =>
        cases code : r.exitCode with
        | none =>
          have unread : fromChars (exitText r) = none := by
            rw [exitText, code]
            rfl
          simp [unread]
        | some n =>
          have read : fromChars (exitText r) = some n := by
            rw [exitText, code]
            exact fromChars_decimal n
          simp only [read, Bool.false_eq_true, or_self, if_false, Option.some.injEq, true_and]
          by_cases zero : n = 0
          · subst zero
            rw [report_zero]
            simp
          · simp only [zero, false_and, iff_false]
            rintro ⟨message, reported⟩
            have ok := report_ok reported
            simp [zero] at ok

/-! ## Both sides -/

/-- `boundedRun`'s command line: the decoded bytes, two to a unit. -/
def commandLineOf (encoded : WString) : WString := units (base64Decode encoded)

/-- **The frame is read the same on both sides.** Every frame is accepted by
`Complete-ProgramSplitProcess`, which gets the signed exit code, the flags and the bytes of both streams
back; the tray reports success exactly for exit code 0 within the deadline and the limits, where it
decodes strictly of UTF-8 text; the command line of a run comes through its encoding; and what is not
base64 decodes to nothing. -/
theorem frame_read_back (r : RunResult) (strictOutput : Bool) (command text : WString) :
    complete (frame r) = .ok {
        exitCode := r.exitCode.map UInt32.toInt32
        timedOut := r.timedOut
        outputTruncated := r.stdoutTruncated
        errorTruncated := r.stderrTruncated
        output := r.stdout
        error := r.stderr
        milliseconds := r.runtime.toInt } ∧
      ((∃ message, resultFrame (frame r) strictOutput = .ok ⟨true, message⟩) ↔
        r.exitCode = some 0 ∧ r.timedOut = false ∧ r.stdoutTruncated = false ∧ r.stderrTruncated = false ∧
          (strictOutput = true → Utf8 (if r.stdout = [] then r.stderr else r.stdout))) ∧
      (command ≠ [] → base64Decode ((symbols (memory command)).map unit) = memory command ∧
        commandLineOf ((symbols (memory command)).map unit) = command) ∧
      (¬ Shaped text → base64Decode text = []) := by
  refine ⟨complete_frame r, resultFrame_ok_iff r strictOutput, fun nonempty => ?_, base64Decode_shape⟩
  have present : memory command ≠ [] := by
    intro empty
    have back := units_memory command
    rw [empty] at back
    exact nonempty back.symm
  have bytes := base64Decode_symbols present
  exact ⟨bytes, by rw [commandLineOf, bytes, units_memory]⟩

/-! ## Poles -/

/-- A run that succeeded with a byte of output that is no UTF-8. -/
def latin : RunResult where
  exitCode := some 0
  timedOut := false
  runtime := 12
  stdoutTruncated := false
  stderrTruncated := false
  stdout := [0xff]
  stderr := []

theorem frame_read_back_latin :
    base64Decode ((symbols (memory [0x61])).map unit) = memory [0x61] ∧
      (∃ message, resultFrame (frame latin) false = .ok ⟨true, message⟩) :=
  have read := frame_read_back latin false [0x61] [0x3d]
  ⟨(read.2.2.1 (by decide)).1, read.2.1.mpr ⟨rfl, rfl, rfl, rfl, by decide⟩⟩

/-- Decoded strictly, the same run is an error and no success. -/
theorem strict_output_refused : resultFrame (frame latin) true = .error .utf8 := by
  decide +kernel

end ProgramSplit.Windows.Runner
