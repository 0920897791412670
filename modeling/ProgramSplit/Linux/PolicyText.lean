/-
# Linux.PolicyText — stored policy strings and the loader's records

A policy is stored as Python strings (`config.parse_policy`) and sent to the loader
as NUL-terminated byte records (`NativeGuard.load`), which `read_policy_stdin` and
`path_key` check again. The filesystem encoding is UTF-8 with surrogate escapes, as
on every supported host.

* `accepted_keyTexts` — what `policy_path` accepts has bytes that `path_key` accepts.
* `readStdin_records` — the loader reads such records exactly when no two agree.
-/
import Mathlib.Data.List.Lex
import Mathlib.Data.List.Sort
import ProgramSplit.Lib.SurrogateEscape
import ProgramSplit.Lib.Words
import ProgramSplit.Linux.PolicyMaps

namespace ProgramSplit.Linux.Policy

set_option autoImplicit false

open Lib

/-- A Python string: code points, lone surrogates included. -/
abbrev PyStr := List CodePoint

/-- `os.fsencode`; `none` is a `UnicodeError`. -/
abbrev fsencode : PyStr → Option Bytes := encodeString

/-! ## `config.py` -/

/-- The code points of an ASCII text. -/
def py (text : String) : PyStr :=
  text.toList.map .scalar

def slash : CodePoint :=
  .scalar '/'

def pathInput (value : PyStr) : Except String Unit :=
  if value.head? ≠ some slash ∨ .scalar (Char.ofNat 0) ∈ value then
    .error "executable path must be absolute and fit the classifier ABI"
  else
    match fsencode value with
    | none => .error "executable path has an invalid filesystem encoding"
    | some bytes =>
      if 4096 ≤ bytes.length then .error "executable path must fit the classifier ABI" else .ok ()

/-- `posixpath.splitroot` without the (empty) drive: two leading slashes are a root of
their own, any other number is one. -/
def splitroot (path : PyStr) : PyStr × PyStr :=
  if path.head? ≠ some slash then ([], path)
  else if (path.drop 1).head? ≠ some slash ∨ (path.drop 2).head? = some slash then
    ([slash], path.drop 1)
  else ([slash, slash], path.drop 2)

/-- `str(Path(path))`: empty and `.` components are dropped. -/
def strPath (path : PyStr) : PyStr :=
  let (root, relative) := splitroot path
  let parsed := (relative.splitOn slash).filter fun part => part ≠ [] ∧ part ≠ py "."
  let text := root ++ [slash].intercalate parsed
  if text = [] then py "." else text

def policyPath (path : PyStr) : Except String PyStr :=
  match pathInput path with
  | .error text => .error text
  | .ok () =>
    if path = [slash] ∨ path.take 2 = [slash, slash] ∨ strPath path ≠ path ∨
        ((path.splitOn slash).drop 1).any (fun part => part = py "." ∨ part = py "..") then
      .error "deletion requires an exact canonical policy key"
    else .ok path

/-- A value of the settings list: a string, or any other JSON value. -/
inductive Value
  | text (s : PyStr)
  | other
  deriving DecidableEq

/-- The settings dictionary `json.loads` returned, with exactly its two keys. -/
structure SettingsData where
  schemaVersion : Int
  includedExecutables : List Value

def resolvePolicyValue : Value → Except String PyStr
  | .text s => policyPath s
  | .other => .error "executable path must be absolute and fit the classifier ABI"

/-- The order of Python strings: by code points. -/
def pyLE (a b : PyStr) : Prop :=
  a.map CodePoint.ord ≤ b.map CodePoint.ord

instance : DecidableRel pyLE :=
  fun _ _ => inferInstanceAs (Decidable (_ ≤ _))

instance : IsTrans PyStr pyLE :=
  ⟨fun _ _ _ => le_trans⟩

instance : Std.Total pyLE :=
  ⟨fun _ _ => le_total _ _⟩

/-- `sorted`. -/
def pySorted (paths : List PyStr) : List PyStr :=
  paths.insertionSort pyLE

/-- `tuple(resolve(path) for path in ...)`. -/
def resolveAll : List Value → Except String (List PyStr)
  | [] => .ok []
  | value :: rest =>
    match resolvePolicyValue value with
    | .error text => .error text
    | .ok path =>
      match resolveAll rest with
      | .error text => .error text
      | .ok paths => .ok (path :: paths)

/-- `parse_policy` on the decoded settings. -/
def parsePolicy (data : SettingsData) : Except String (List PyStr) :=
  if data.schemaVersion ≠ 1 ∨ 1024 < data.includedExecutables.length then
    .error "unsupported settings schema"
  else
    match resolveAll data.includedExecutables with
    | .error text => .error text
    | .ok paths =>
      if ¬ paths.Nodup then .error "settings contain duplicate canonical executable paths"
      else .ok (pySorted paths)

/-! ## `NativeGuard.load` -/

def loadRecords : List PyStr → List Bytes → Except String (List Bytes)
  | [], records => .ok records
  | path :: rest, records =>
    match fsencode path with
    | none => .error "invalid policy filesystem encoding"
    | some value =>
      if 1024 ≤ records.length ∨ value = [] ∨ 4096 ≤ value.length ∨ 0 ∈ value then
        .error "policy exceeds native stdin capacity or contains NUL"
      else loadRecords rest (records ++ [value ++ [0]])

/-- The bytes `NativeGuard.load` writes to the loader's standard input. -/
def loadStream (paths : List PyStr) : Except String Bytes :=
  match loadRecords paths [] with
  | .error text => .error text
  | .ok records => .ok records.flatten

/-! ## `path_key` and `read_policy_stdin` -/

/-- A C string. -/
abbrev CText := { text : Bytes // 0 ∉ text }

/-- Component by component, the stack of `lexically_normal` under a root directory. -/
def normalStep (stack : List Bytes) (part : Bytes) : List Bytes :=
  if part = [] ∨ part = [0x2e] then stack
  else if part = [0x2e, 0x2e] then stack.tail
  else part :: stack

/-- `lexically_normal` of an absolute path. A path that ends in a separator, `.` or `..`
names a directory and keeps a final separator. -/
def lexicallyNormal (input : Bytes) : Bytes :=
  let parts := input.splitOn 0x2f
  let stack := parts.foldl normalStep []
  let last := parts.getLast?.getD []
  let directory := last = [] ∨ last = [0x2e] ∨ last = [0x2e, 0x2e]
  0x2f :: [0x2f].intercalate stack.reverse ++
    (if directory ∧ stack ≠ [] then [0x2f] else [])

/-- `path_key` of a stored key (`adding` false). -/
def pathKey (input : CText) : Except String PathKey :=
  if input.val.head? ≠ some 0x2f then .error "executable path must be absolute"
  else if lexicallyNormal input.val ≠ input.val ∨ input.val = [0x2f] ∨
      input.val.getLast? = some 0x2f then
    .error ("stored policy requires the exact canonical key, " ++
      "without . or .. components or a trailing slash")
  else if fits : input.val.length < PATH_BYTES then .ok ⟨input.val, input.property, fits⟩
  else .error "executable path exceeds ABI pathname capacity"

theorem append_clean {text : Bytes} (clean : 0 ∉ text) {byte : UInt8} (nonzero : byte ≠ 0) :
    0 ∉ text ++ [byte] := by
  simpa [clean] using nonzero.symm

/-- The loop of `read_policy_stdin`: the keys and their texts so far, the record being
read and the bytes consumed. -/
def readStdin : Bytes → List PathKey → List Bytes → CText → Nat → Except String (List PathKey)
  | [], keys, _, current, _ =>
    if current.val = [] then .ok keys
    else .error "policy stdin read failed or final NUL missing"
  | byte :: rest, keys, unique, current, total =>
    if 1024 * PATH_BYTES < total + 1 then .error "policy stdin exceeds capacity"
    else if nonzero : byte ≠ 0 then
      if PATH_BYTES - 1 ≤ current.val.length then .error "policy stdin key exceeds capacity"
      else readStdin rest keys unique
        ⟨current.val ++ [byte], append_clean current.property nonzero⟩ (total + 1)
    else if 1024 ≤ keys.length ∨ current.val = [] ∨ current.val.getLast? = some 0x2f ∨
        current.val ∈ unique then
      .error "invalid policy stdin record/count"
    else
      match pathKey current with
      | .error text => .error text
      | .ok key => readStdin rest (keys ++ [key]) (current.val :: unique) ⟨[], by simp⟩ (total + 1)

def readPolicyStdin (input : Bytes) : Except String (List PathKey) :=
  readStdin input [] [] ⟨[], by simp⟩ 0

/-! ## What the stored form promises -/

/-- A component of a canonical path. -/
def Part (part : PyStr) : Prop :=
  part ≠ [] ∧ part ≠ py "." ∧ part ≠ py ".." ∧ slash ∉ part

/-- A path `policy_path` accepts is a slash and canonical components. -/
theorem policyPath_ok {path result : PyStr} (accepted : policyPath path = .ok result) :
    result = path ∧ (∃ bytes, fsencode path = some bytes ∧ bytes.length < 4096) ∧
      .scalar (Char.ofNat 0) ∉ path ∧
      ∃ parts, parts ≠ [] ∧ (∀ part ∈ parts, Part part) ∧ path = slash :: [slash].intercalate parts := by
  unfold policyPath at accepted
  split at accepted
  · cases accepted
  rename_i input
  split at accepted
  · cases accepted
  rename_i canonical
  push Not at canonical
  obtain ⟨not_root, not_double, same, plain⟩ := canonical
  unfold pathInput at input
  split at input
  · cases input
  rename_i absolute
  push Not at absolute
  split at input
  · cases input
  rename_i bytes encodes
  split at input
  · cases input
  refine ⟨(Except.ok.inj accepted).symm, ⟨bytes, encodes, by omega⟩, absolute.2, ?_⟩
  obtain ⟨rest, rfl⟩ : ∃ rest, path = slash :: rest := by
    cases path with
    | nil => cases absolute.1
    | cons c rest => exact ⟨rest, by rw [Option.some.inj absolute.1]⟩
  have single : rest.head? ≠ some slash := by
    intro double
    cases rest with
    | nil => cases double
    | cons c rest =>
      obtain rfl := Option.some.inj double
      exact not_double rfl
  have root : splitroot (slash :: rest) = ([slash], rest) := by
    unfold splitroot
    rw [if_neg (by simp), if_pos (.inl single)]
    rfl
  have spelled : strPath (slash :: rest) = slash :: [slash].intercalate
      ((rest.splitOn slash).filter fun part => part ≠ [] ∧ part ≠ py ".") := by
    simp [strPath, root]
  rw [spelled] at same
  refine ⟨_, ?_, ?_, same.symm⟩
  · intro none_left
    rw [none_left] at same
    exact not_root same.symm
  · intro part mem
    obtain ⟨within, kept⟩ := List.mem_filter.mp mem
    obtain ⟨nonempty, not_dot⟩ := of_decide_eq_true kept
    refine ⟨nonempty, not_dot, ?_, Words.not_mem_of_mem_splitOn within⟩
    rintro rfl
    have listed : ((slash :: rest).splitOn slash).drop 1 = rest.splitOn slash := by
      rfl
    refine plain ?_
    rw [listed, List.any_eq_true]
    exact ⟨py "..", within, by simp⟩

/-! ## What `path_key` asks -/

/-- The bytes of a component. -/
def KeyPart (part : Bytes) : Prop :=
  part ≠ [] ∧ part ≠ [0x2e] ∧ part ≠ [0x2e, 0x2e] ∧ 0x2f ∉ part

/-- A path's bytes: a separator and canonical components. -/
def CanonicalBytes (text : Bytes) : Prop :=
  ∃ parts, parts ≠ [] ∧ (∀ part ∈ parts, KeyPart part) ∧ text = 0x2f :: [0x2f].intercalate parts

theorem foldl_normalStep {parts : List Bytes} (canonical : ∀ part ∈ parts, KeyPart part)
    (stack : List Bytes) : parts.foldl normalStep stack = parts.reverse ++ stack := by
  induction parts generalizing stack with
  | nil => rfl
  | cons part parts ih =>
    obtain ⟨nonempty, not_dot, not_up, -⟩ := canonical part List.mem_cons_self
    have pushed : normalStep stack part = part :: stack := by
      simp [normalStep, nonempty, not_dot, not_up]
    rw [List.foldl_cons, pushed, ih fun part mem => canonical part (List.mem_cons_of_mem _ mem)]
    simp

theorem splitOn_canonical {parts : List Bytes} (nonempty : parts ≠ [])
    (keyParts : ∀ part ∈ parts, KeyPart part) :
    (0x2f :: [0x2f].intercalate parts).splitOn (0x2f : UInt8) = [] :: parts := by
  rw [List.splitOn_cons_eq_if_modifyHead, if_pos (by simp),
    List.splitOn_intercalate _ (fun part mem => (keyParts part mem).2.2.2) nonempty]

theorem CanonicalBytes.lexicallyNormal {text : Bytes} (canonical : CanonicalBytes text) :
    lexicallyNormal text = text := by
  obtain ⟨parts, nonempty, keyParts, rfl⟩ := canonical
  have folded : ([] :: parts).foldl normalStep [] = parts.reverse := by
    have skipped : normalStep [] [] = [] := rfl
    rw [List.foldl_cons, skipped, foldl_normalStep keyParts, List.append_nil]
  have final : (([] :: parts).getLast?.getD []) = parts.getLast nonempty := by
    rw [List.getLast?_cons, List.getLast?_eq_some_getLast nonempty]
    rfl
  have ends := keyParts _ (List.getLast_mem nonempty)
  simp only [Policy.lexicallyNormal, splitOn_canonical nonempty keyParts, folded, final,
    List.reverse_reverse]
  rw [if_neg]
  · simp
  · rintro ⟨directory, -⟩
    rcases directory with h | h | h
    · exact ends.1 h
    · exact ends.2.1 h
    · exact ends.2.2.1 h

/-- Canonical bytes do not end in a separator; in particular they are not the root. -/
theorem CanonicalBytes.last {text : Bytes} (canonical : CanonicalBytes text) :
    text.getLast? ≠ some 0x2f := by
  obtain ⟨parts, nonempty, keyParts, rfl⟩ := canonical
  intro ends
  have parts_eq := splitOn_canonical nonempty keyParts
  obtain ⟨before, shape⟩ := List.getLast?_eq_some_iff.mp ends
  rw [shape, List.splitOn_append_cons_self, List.splitOn_nil] at parts_eq
  have last := congrArg List.getLast? parts_eq
  rw [List.getLast?_concat, List.getLast?_cons, List.getLast?_eq_some_getLast nonempty] at last
  exact (keyParts _ (List.getLast_mem nonempty)).1 (Option.some.inj last).symm

theorem pathKey_canonical {input : CText} (canonical : CanonicalBytes input.val)
    (fits : input.val.length < PATH_BYTES) :
    pathKey input = .ok ⟨input.val, input.property, fits⟩ := by
  have absolute : input.val.head? = some 0x2f := by
    obtain ⟨parts, -, -, shape⟩ := canonical
    rw [shape]
    rfl
  have not_root : input.val ≠ [0x2f] := by
    intro root
    exact canonical.last (by rw [root]; rfl)
  unfold pathKey
  rw [if_neg (by simp [absolute]), if_neg, dif_pos fits]
  rintro (changed | root | trailing)
  · exact changed canonical.lexicallyNormal
  · exact not_root root
  · exact canonical.last trailing

/-! ## From components to their bytes -/

theorem encode_dots {part : PyStr} {n : Nat} (encodes : fsencode part = some (List.replicate n 0x2e)) :
    part = List.replicate n (.scalar '.') := by
  induction n generalizing part with
  | zero =>
    cases part with
    | nil => rfl
    | cons c rest =>
      obtain ⟨front, back, here, -, split⟩ := encodeString_cons encodes
      obtain ⟨rfl, -⟩ := List.append_eq_nil_iff.mp split.symm
      cases c with
      | scalar c => exact absurd (Option.some.inj here) String.utf8EncodeChar_ne_nil
      | surrogate n =>
        obtain ⟨_, -, -, empty⟩ := CodePoint.eq_escape_of_encode here
        cases empty
  | succ n ih =>
    obtain ⟨rest, rfl, tail⟩ := encodeString_ascii_front (by decide) encodes
    rw [ih tail]
    rfl

theorem Part.keyPart {part : PyStr} (canonical : Part part) {bytes : Bytes}
    (encodes : fsencode part = some bytes) : KeyPart bytes := by
  obtain ⟨nonempty, not_dot, not_up, free⟩ := canonical
  refine ⟨?_, ?_, ?_, ?_⟩
  · rintro rfl
    exact nonempty (encode_dots (n := 0) encodes)
  · rintro rfl
    exact not_dot (encode_dots (n := 1) encodes)
  · rintro rfl
    exact not_up (encode_dots (n := 2) encodes)
  · intro mem
    exact free (mem_of_ascii_mem (by decide) encodes mem)

theorem encode_intercalate : ∀ {parts : List PyStr} {bytes : Bytes}, parts ≠ [] →
    (∀ part ∈ parts, Part part) → fsencode ([slash].intercalate parts) = some bytes →
    ∃ keyParts, keyParts ≠ [] ∧ (∀ part ∈ keyParts, KeyPart part) ∧
      bytes = [0x2f].intercalate keyParts := by
  intro parts
  induction parts with
  | nil =>
    intro bytes nonempty
    exact absurd rfl nonempty
  | cons part parts ih =>
    intro bytes _ canonical encodes
    have here := canonical part List.mem_cons_self
    cases parts with
    | nil =>
      rw [List.intercalate_singleton] at encodes
      refine ⟨[bytes], by simp, ?_, (List.intercalate_singleton).symm⟩
      simpa using here.keyPart encodes
    | cons next parts =>
      obtain ⟨front, rest, front_eq, rest_eq, rfl⟩ := encodeString_append.mp encodes
      obtain ⟨separator, back, separator_eq, back_eq, rfl⟩ := encodeString_append.mp rest_eq
      obtain rfl : separator = [0x2f] := (Option.some.inj separator_eq).symm
      obtain ⟨keyParts, nonempty, keyed, rfl⟩ := ih (by simp)
        (fun part mem => canonical part (List.mem_cons_of_mem _ mem)) back_eq
      refine ⟨front :: keyParts, by simp, ?_, ?_⟩
      · intro keyPart mem
        rcases List.mem_cons.mp mem with rfl | later
        · exact here.keyPart front_eq
        · exact keyed keyPart later
      · rw [List.intercalate_cons_of_ne_nil nonempty, List.append_assoc]

/-- **Every accepted path has bytes that `path_key` accepts.** -/
theorem accepted_keyTexts {path result : PyStr} (accepted : policyPath path = .ok result) :
    result = path ∧ ∃ bytes, fsencode path = some bytes ∧ bytes.length < PATH_BYTES ∧ 0 ∉ bytes ∧
      CanonicalBytes bytes := by
  obtain ⟨same, ⟨bytes, encodes, fits⟩, no_nul, parts, nonempty, canonical, shape⟩ :=
    policyPath_ok accepted
  refine ⟨same, bytes, encodes, fits, fun mem => no_nul (mem_of_ascii_mem (by decide) encodes mem), ?_⟩
  rw [shape] at encodes
  obtain ⟨front, back, front_eq, back_eq, rfl⟩ := encodeString_cons encodes
  obtain rfl : front = [0x2f] := (Option.some.inj front_eq).symm
  obtain ⟨keyParts, filled, keyed, rfl⟩ := encode_intercalate nonempty canonical back_eq
  exact ⟨keyParts, filled, keyed, rfl⟩

/-! ## The stream -/

/-- Bytes that may stand in a record. -/
structure KeyText (text : Bytes) : Prop where
  canonical : CanonicalBytes text
  fits : text.length < PATH_BYTES
  clean : 0 ∉ text

theorem KeyText.nonempty {text : Bytes} (keyText : KeyText text) : text ≠ [] := by
  obtain ⟨parts, -, -, rfl⟩ := keyText.canonical
  exact List.cons_ne_nil _ _

def KeyText.key {text : Bytes} (keyText : KeyText text) : PathKey :=
  ⟨text, keyText.clean, keyText.fits⟩

/-- The stream of given texts. -/
def records (texts : List Bytes) : Bytes :=
  (texts.map (· ++ [0])).flatten

theorem loadRecords_texts {paths : List PyStr} {texts : List Bytes}
    (encoded : List.Forall₂ (fun path text => fsencode path = some text ∧ KeyText text) paths texts)
    (before : List Bytes) (room : before.length + paths.length ≤ 1024) :
    loadRecords paths before = .ok (before ++ texts.map (· ++ [0])) := by
  induction encoded generalizing before with
  | nil => simp [loadRecords]
  | cons here _ ih =>
    obtain ⟨encodes, keyText⟩ := here
    rw [List.length_cons] at room
    simp only [loadRecords, encodes]
    rw [if_neg]
    · rw [ih (before ++ [_]) (by rw [List.length_append, List.length_singleton]; omega)]
      simp
    · rintro (full | empty | long | nul)
      · omega
      · exact keyText.nonempty empty
      · exact absurd keyText.fits (Nat.not_lt.mpr long)
      · exact keyText.clean nul

/-- The bytes of a record are collected. -/
theorem readStdin_text {text : Bytes} (clean : 0 ∉ text) (rest : Bytes) (keys : List PathKey)
    (unique : List Bytes) (current : CText) (total : Nat)
    (fits : current.val.length + text.length < PATH_BYTES)
    (within : total + text.length ≤ 1024 * PATH_BYTES) :
    ∃ collected, readStdin (text ++ rest) keys unique current total =
      readStdin rest keys unique ⟨current.val ++ text, collected⟩ (total + text.length) := by
  induction text generalizing current total with
  | nil => exact ⟨by simpa using current.property, by simp⟩
  | cons byte text ih =>
    have nonzero : byte ≠ 0 := by
      rintro rfl
      exact clean List.mem_cons_self
    rw [List.length_cons] at fits within
    have room : ¬ 1024 * PATH_BYTES < total + 1 := by omega
    have short : ¬ PATH_BYTES - 1 ≤ current.val.length := by omega
    obtain ⟨collected, read⟩ := ih (fun mem => clean (List.mem_cons_of_mem _ mem))
      ⟨current.val ++ [byte], append_clean current.property nonzero⟩ (total + 1)
      (by rw [List.length_append, List.length_singleton]; omega) (by omega)
    simp only [List.append_assoc, List.singleton_append] at collected read
    refine ⟨collected, ?_⟩
    rw [List.cons_append, readStdin, if_neg room, dif_pos nonzero, if_neg short, read,
      List.length_cons]
    congr 1
    omega

/-- A record is read as its key, unless its text was read before. -/
theorem readStdin_record {text : Bytes} (keyText : KeyText text) (rest : Bytes)
    (keys : List PathKey) (unique : List Bytes) (total : Nat) (room : keys.length < 1024)
    (within : total + (text.length + 1) ≤ 1024 * PATH_BYTES) :
    readStdin (text ++ 0 :: rest) keys unique ⟨[], by simp⟩ total =
      if text ∈ unique then .error "invalid policy stdin record/count"
      else readStdin rest (keys ++ [keyText.key]) (text :: unique) ⟨[], by simp⟩
        (total + (text.length + 1)) := by
  obtain ⟨collected, read⟩ := readStdin_text keyText.clean (0 :: rest) keys unique ⟨[], by simp⟩ total
    (by simpa using keyText.fits) (by omega)
  have below : ¬ 1024 * PATH_BYTES < total + text.length + 1 := by omega
  rw [read, readStdin, if_neg below, dif_neg (by simp)]
  by_cases seen : text ∈ unique
  · rw [if_pos (.inr (.inr (.inr seen))), if_pos seen]
  · rw [if_neg seen, if_neg, pathKey_canonical keyText.canonical keyText.fits]
    · rfl
    · rintro (full | empty | trailing | again)
      · omega
      · exact keyText.nonempty empty
      · exact keyText.canonical.last trailing
      · exact seen again

theorem records_length {texts : List Bytes} (keyTexts : ∀ text ∈ texts, KeyText text) :
    (records texts).length ≤ texts.length * PATH_BYTES := by
  induction texts with
  | nil => simp [records]
  | cons text texts ih =>
    have here := (keyTexts text List.mem_cons_self).fits
    have rest := ih fun text mem => keyTexts text (List.mem_cons_of_mem _ mem)
    simp only [records, List.map_cons, List.flatten_cons, List.length_append, List.length_nil,
      List.length_cons] at rest ⊢
    rw [Nat.succ_mul]
    omega

/-- The loader reads the records as keys exactly when no two of them agree. -/
theorem readStdin_records {texts : List Bytes} (keyTexts : ∀ text ∈ texts, KeyText text)
    (keys : List PathKey) (unique : List Bytes) (total : Nat)
    (room : keys.length + texts.length ≤ 1024)
    (within : total + (records texts).length ≤ 1024 * PATH_BYTES) :
    (texts.Nodup ∧ (∀ text ∈ texts, text ∉ unique) →
      ∃ new, readStdin (records texts) keys unique ⟨[], by simp⟩ total = .ok (keys ++ new) ∧
        new.map (·.text) = texts) ∧
    (¬ (texts.Nodup ∧ ∀ text ∈ texts, text ∉ unique) →
      ∃ reason, readStdin (records texts) keys unique ⟨[], by simp⟩ total = .error reason) := by
  induction texts generalizing keys unique total with
  | nil =>
    refine ⟨fun _ => ⟨[], by simp [records, readStdin], rfl⟩, fun repeated => ?_⟩
    exact absurd ⟨List.nodup_nil, by simp⟩ repeated
  | cons text texts ih =>
    have here := keyTexts text List.mem_cons_self
    have split : records (text :: texts) = text ++ 0 :: records texts := by
      simp [records]
    rw [split, List.length_append, List.length_cons] at within
    rw [List.length_cons] at room
    have read := readStdin_record here (records texts) keys unique total (by omega) (by omega)
    rw [split, read]
    by_cases seen : text ∈ unique
    · rw [if_pos seen]
      refine ⟨fun ⟨_, fresh⟩ => absurd seen (fresh text List.mem_cons_self), fun _ => ⟨_, rfl⟩⟩
    · rw [if_neg seen]
      obtain ⟨succeeds, fails⟩ := ih (fun text mem => keyTexts text (List.mem_cons_of_mem _ mem))
        (keys ++ [here.key]) (text :: unique) (total + (text.length + 1))
        (by rw [List.length_append, List.length_singleton]; omega) (by omega)
      constructor
      · rintro ⟨nodup, fresh⟩
        obtain ⟨not_later, nodup_rest⟩ := List.nodup_cons.mp nodup
        obtain ⟨new, done, spelled⟩ := succeeds ⟨nodup_rest, fun later mem old => by
          rcases List.mem_cons.mp old with rfl | before
          · exact not_later mem
          · exact fresh later (List.mem_cons_of_mem _ mem) before⟩
        refine ⟨here.key :: new, by rw [done]; simp, ?_⟩
        rw [List.map_cons, spelled]
        rfl
      · intro repeated
        refine fails fun ⟨nodup_rest, fresh⟩ => repeated ⟨?_, ?_⟩
        · refine List.nodup_cons.mpr ⟨fun mem => ?_, nodup_rest⟩
          exact fresh text mem List.mem_cons_self
        · intro later mem
          rcases List.mem_cons.mp mem with rfl | within
          · exact seen
          · exact fun old => fresh later within (List.mem_cons_of_mem _ old)

end ProgramSplit.Linux.Policy
