/-
# Linux.JsonString — file names printed as JSON and decoded by Python

`json_string` of `json-string.h`, whose model stands in `PolicyPrint`, against the decoding of the same bytes
as UTF-8 with `surrogateescape`. Python's decoder reports an invalid sequence as a span of bytes, the lead
byte and what could have continued it, and the error handler escapes the whole span; `json_string`
escapes one byte and starts again behind it.

* `errorSpan_continuations` — behind its lead byte a span holds continuation bytes only;
* `Utf8Decodes.decodes` — so escaping spans and escaping single bytes give the same string;
* `jsonString_agrees` — the printed text is UTF-8, and read as JSON it is the decoded string.
-/
import ProgramSplit.Lib.Words
import ProgramSplit.Linux.PolicyPrint

namespace ProgramSplit.Linux.Policy

set_option autoImplicit false

open Lib
open Lib.Json (scanString skipSpace skipSpace_cons loads scan Floats Value)

/-- Whether the decoder takes a byte behind a lead byte. -/
def takesSecond (ch second : UInt8) : Bool :=
  second &&& 0xc0 == 0x80 &&
    !(ch = 0xe0 && second < 0xa0 || ch = 0xed && 0xa0 ≤ second || ch = 0xf0 && second < 0x90 ||
      ch = 0xf4 && 0x90 ≤ second)

/-- The bytes the UTF-8 decoder of Python reports as one error: a byte that leads nothing alone, a lead
byte with the bytes it takes before the sequence breaks off or the text ends. -/
def errorSpan (ch : UInt8) (rest : Bytes) : Nat :=
  if ch < 0xc2 ∨ 0xf4 < ch then 1
  else
    match rest with
    | [] => 1
    | second :: rest =>
      if takesSecond ch second then
        2 + ((rest.take (sequenceLength ch - 2)).takeWhile fun byte => byte &&& 0xc0 == 0x80).length
      else 1

/-- `bytes.decode('utf-8', 'surrogateescape')` -/
inductive Utf8Decodes : Bytes → PyStr → Prop
  | nil : Utf8Decodes [] []
  | scalar (c : Char) {bytes : Bytes} {s : PyStr} (rest : Utf8Decodes bytes s) :
      Utf8Decodes (String.utf8EncodeChar c ++ bytes) (.scalar c :: s)
  | invalid (ch : UInt8) {bytes : Bytes} {s : PyStr} (high : 0x80 ≤ ch.toNat)
      (stray : NoSequence (ch :: bytes))
      (rest : Utf8Decodes (bytes.drop (errorSpan ch bytes - 1)) s) :
      Utf8Decodes (ch :: bytes) (.escape ch :: (bytes.take (errorSpan ch bytes - 1)).map .escape ++ s)

theorem errorSpan_continuations (ch : UInt8) (rest : Bytes) :
    ∀ byte ∈ rest.take (errorSpan ch rest - 1), Continuation byte := by
  unfold errorSpan
  split
  · simp
  · cases rest with
    | nil => simp
    | cons second rest =>
      dsimp only
      split
      next taken =>
        rw [takesSecond, Bool.and_eq_true] at taken
        rw [show ∀ n, 2 + n - 1 = n + 1 by omega, List.take_succ_cons]
        intro byte member
        rcases List.mem_cons.mp member with rfl | later
        · exact (continuation_iff byte).mp taken.1
        · have front : (rest.take (sequenceLength ch - 2)).takeWhile
              (fun byte => byte &&& 0xc0 == 0x80) <+: rest :=
            (List.takeWhile_prefix _).trans (List.take_prefix (sequenceLength ch - 2) rest)
          rw [← List.prefix_iff_eq_take.mp front] at later
          exact (continuation_iff byte).mp
            (List.mem_takeWhile_imp (p := fun byte => byte &&& 0xc0 == 0x80) later)
      next => simp

/-- A continuation byte begins no sequence. -/
theorem noSequence_continuation {byte : UInt8} (continues : Continuation byte) (rest : Bytes) :
    NoSequence (byte :: rest) := by
  intro c after beyond same
  rcases utf8EncodeChar_shape c with ⟨low, -⟩ | ⟨-, lead, tail, shape, large, -⟩
  · omega
  · rw [shape] at same
    obtain ⟨rfl, -⟩ := List.cons.inj same
    exact absurd continues.2 (by omega)

theorem decodes_continuations {run bytes : Bytes} {s : PyStr} (continues : ∀ byte ∈ run, Continuation byte)
    (decodes : Decodes bytes s) : Decodes (run ++ bytes) (run.map .escape ++ s) := by
  induction run with
  | nil => exact decodes
  | cons byte run ih =>
    have here := continues byte List.mem_cons_self
    exact .escape byte here.1 (noSequence_continuation here _)
      (ih fun b member => continues b (List.mem_cons_of_mem _ member))

/-- Escaping a span at once or a byte at a time is the same. -/
theorem Utf8Decodes.decodes {bytes : Bytes} {s : PyStr} (decoded : Utf8Decodes bytes s) :
    Decodes bytes s := by
  induction decoded with
  | nil => exact .nil
  | scalar c _ ih => exact .scalar c ih
  | @invalid ch bytes s high stray _ ih =>
    have rest := decodes_continuations (errorSpan_continuations ch bytes) ih
    rw [List.take_append_drop] at rest
    exact .escape ch high stray rest

/-- The decoder never fails. -/
theorem exists_utf8Decodes (bytes : Bytes) : ∃ s, Utf8Decodes bytes s := by
  induction length : bytes.length using Nat.strong_induction_on generalizing bytes with
  | _ n ih =>
    cases bytes with
    | nil => exact ⟨[], .nil⟩
    | cons ch rest =>
      rw [List.length_cons] at length
      by_cases ascii : ch.toNat < 0x80
      · obtain ⟨s, decoded⟩ := ih rest.length (by omega) rest rfl
        have whole := Utf8Decodes.scalar (Char.ofNat ch.toNat) decoded
        rw [encode_ascii ascii] at whole
        exact ⟨_, whole⟩
      by_cases valid : validSequence ch rest = true
      · obtain ⟨c, -, tail, after, rfl, shape, -⟩ := validSequence_sound valid
        rw [List.length_append] at length
        obtain ⟨s, decoded⟩ := ih after.length (by omega) after rfl
        rw [← List.cons_append, ← shape]
        exact ⟨_, .scalar c decoded⟩
      · obtain ⟨s, decoded⟩ := ih (rest.drop (errorSpan ch rest - 1)).length
          (by rw [List.length_drop]; omega) _ rfl
        exact ⟨_, .invalid ch (by omega) (noSequence_of_invalid valid) decoded⟩

/-- **Agreement with Python.** For every byte string the printed text is UTF-8 and JSON, and read as
JSON it is the one string the decoder gives for the bytes. -/
theorem jsonString_agrees {F : Type} (floats : Floats F) (bytes : Bytes) :
    ∃ text s, decodeUtf8 (jsonString bytes) = some text ∧ loads floats text = some (.str s) ∧
      Utf8Decodes bytes s ∧ ∀ s', Utf8Decodes bytes s' → s' = s := by
  obtain ⟨chars, s, decodes, printed, scans⟩ := jsonBody_prints bytes
  obtain ⟨t, decoded⟩ := exists_utf8Decodes bytes
  have same : t = s := decoded.decodes.unique decodes
  have spelled : jsonString bytes = ('"' :: chars ++ ['"']).flatMap String.utf8EncodeChar := by
    rw [jsonString, ← printed, List.flatMap_append, List.flatMap_cons]
    rfl
  refine ⟨'"' :: chars ++ ['"'], s, by rw [spelled, decodeUtf8_flatMap], ?_, same ▸ decoded,
    fun s' other => other.decodes.unique decodes⟩
  have read : scan floats (('"' :: chars ++ ['"']).length + 1)
      ('"' :: chars ++ ['"']) = some (.str s, []) := by
    show (scanString (chars ++ ['"'])).map _ = _
    rw [scans]
    rfl
  rw [loads, List.cons_append, skipSpace_cons (by decide)]
  rw [List.cons_append] at read
  rw [read]
  rfl

-- a, an overlong slash, a cut-off sequence and a quote
example : jsonString [0x61, 0xc0, 0xaf, 0xe2, 0x82, 0x22] =
    Lib.Words.ascii "\"a\\udcc0\\udcaf\\udce2\\udc82\\\"\"" := by
  decide

end ProgramSplit.Linux.Policy
