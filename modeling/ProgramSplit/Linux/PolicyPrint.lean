/-
# Linux.PolicyPrint — the printed policy and its reader

The loader prints its entries as a JSON list (`policy_json`, with `json_string` for
raw file name bytes); `NativeGuard.snapshot` decodes the output as UTF-8 and reads it
with `json.loads`. Only the `paths` member is modelled: the others hold numbers.

* `validSequence_sound`, `validSequence_complete` — the printer's own UTF-8 test is exact.
* `policyJson_decodes` — the printed list reads back as the decoded entries.
-/
import Mathlib.Data.Finset.Sort
import ProgramSplit.Lib.Json
import ProgramSplit.Linux.PolicyText

namespace ProgramSplit.Linux.Policy

set_option autoImplicit false

open Lib
open Lib.Json (hexValue hex4 chr scanString skipSpace scanString_quote scanString_plain
  scanString_backslash scanString_escape skipSpace_cons scan scanItems scan_list loads)

/-! ## `json_string` and `policy_json` -/

def hexDigit (n : Nat) : UInt8 :=
  UInt8.ofNat (if n < 10 then 0x30 + n else 0x57 + n)

/-- The length a lead byte announces. -/
def sequenceLength (ch : UInt8) : Nat :=
  if 0xc2 ≤ ch ∧ ch ≤ 0xdf then 2
  else if 0xe0 ≤ ch ∧ ch ≤ 0xef then 3
  else if 0xf0 ≤ ch ∧ ch ≤ 0xf4 then 4
  else 0

/-- Whether the bytes begin with a valid sequence of the announced length. -/
def validSequence (ch : UInt8) (rest : Bytes) : Bool :=
  let length := sequenceLength ch
  length ≠ 0 ∧ length ≤ rest.length + 1 ∧
    (rest.take (length - 1)).all (fun byte => byte &&& 0xc0 == 0x80) ∧
    ¬ (ch = 0xe0 ∧ rest.headD 0 < 0xa0 ∨ ch = 0xed ∧ 0xa0 ≤ rest.headD 0 ∨
      ch = 0xf0 ∧ rest.headD 0 < 0x90 ∨ ch = 0xf4 ∧ 0x90 ≤ rest.headD 0)

/-- The loop of `json_string`; `copy` counts the bytes of a valid sequence still to be
appended as they are. -/
def jsonBody : Nat → Bytes → Bytes
  | _, [] => []
  | copy + 1, ch :: rest => ch :: jsonBody copy rest
  | 0, ch :: rest =>
    if ch = 0x22 ∨ ch = 0x5c then 0x5c :: ch :: jsonBody 0 rest
    else if ch < 32 then
      [0x5c, 0x75, 0x30, 0x30, hexDigit (ch.toNat / 16), hexDigit (ch.toNat % 16)] ++
        jsonBody 0 rest
    else if ch < 128 then ch :: jsonBody 0 rest
    else if validSequence ch rest then ch :: jsonBody (sequenceLength ch - 1) rest
    else
      [0x5c, 0x75, 0x64, 0x63, hexDigit (ch.toNat / 16), hexDigit (ch.toNat % 16)] ++
        jsonBody 0 rest

def jsonString (text : Bytes) : Bytes :=
  0x22 :: jsonBody 0 text ++ [0x22]

/-- The order of `std::string`: by unsigned bytes. -/
def byteLE (a b : Bytes) : Prop :=
  a.map UInt8.toNat ≤ b.map UInt8.toNat

instance : DecidableRel byteLE :=
  fun _ _ => inferInstanceAs (Decidable (_ ≤ _))

instance : IsTrans Bytes byteLE :=
  ⟨fun _ _ _ => le_trans⟩

instance : Std.Total byteLE :=
  ⟨fun _ _ => le_total _ _⟩

instance : Std.Antisymm byteLE :=
  ⟨fun _ _ le ge => List.map_injective_iff.mpr (fun _ _ => UInt8.toNat_inj.mp) (le_antisymm le ge)⟩

/-- The printed policy: a JSON list, in the order of `std::set`. -/
def policyJson (entries : Finset Bytes) : Bytes :=
  0x5b :: [0x2c].intercalate ((entries.sort byteLE).map jsonString) ++ [0x5d]

/-- `output.decode('utf-8')`. -/
def decodeUtf8 (bytes : Bytes) : Option (List Char) :=
  (String.fromUTF8? bytes.toByteArray).map String.toList

def textOf : Json.Value Unit → Option PyStr
  | .str s => some s
  | _ => none

/-- The `paths` of `NativeGuard.snapshot`, from the entries the loader prints: a list of texts. -/
def snapshotPaths (entries : Finset Bytes) : Option (List PyStr) :=
  match (decodeUtf8 (policyJson entries)).bind (loads .alike) with
  | some (.list items) => items.mapM textOf
  | _ => none

/-! ## Sequences in printed text -/

theorem continuation_iff (byte : UInt8) :
    (byte &&& 0xc0 == 0x80) = true ↔ Continuation byte := by
  have table : ∀ n : Fin 256, ((UInt8.ofNat n.val &&& 0xc0) == 0x80) =
      decide (0x80 ≤ n.val ∧ n.val < 0xC0) := by decide +kernel
  have here := table ⟨byte.toNat, byte.toNat_lt⟩
  rw [UInt8.ofNat_toNat] at here
  rw [here, decide_eq_true_iff, Continuation]

variable {n : Nat}

theorem exists_char (valid : n.isValidChar) : ∃ c : Char, c.toNat = n :=
  ⟨Char.ofNatAux n valid, rfl⟩

theorem byte_eq (byte : UInt8) (same : byte.toNat = n) : UInt8.ofNat n = byte := by
  rw [← same, UInt8.ofNat_toNat]

theorem validSequence_iff (ch : UInt8) (rest : Bytes) :
    validSequence ch rest = true ↔
      sequenceLength ch ≠ 0 ∧ sequenceLength ch ≤ rest.length + 1 ∧
      (∀ byte ∈ rest.take (sequenceLength ch - 1), Continuation byte) ∧
      ¬ (ch.toNat = 0xe0 ∧ (rest.headD 0).toNat < 0xa0 ∨ ch.toNat = 0xed ∧ 0xa0 ≤ (rest.headD 0).toNat ∨
        ch.toNat = 0xf0 ∧ (rest.headD 0).toNat < 0x90 ∨ ch.toNat = 0xf4 ∧ 0x90 ≤ (rest.headD 0).toNat) := by
  simp only [validSequence, decide_eq_true_eq, List.all_eq_true, continuation_iff,
    ← UInt8.toNat_inj, UInt8.le_iff_toNat_le, UInt8.lt_iff_toNat_lt, UInt8.reduceToNat]

variable {ch : UInt8} {rest : Bytes}

/-- What `json_string` takes for a sequence is the encoding of a character. -/
theorem validSequence_sound (valid : validSequence ch rest = true) :
    ∃ c : Char, 0x80 ≤ c.toNat ∧ ∃ tail after, rest = tail ++ after ∧
      String.utf8EncodeChar c = ch :: tail ∧ tail.length = sequenceLength ch - 1 := by
  rw [validSequence_iff] at valid
  obtain ⟨announced, within, continuations, second⟩ := valid
  by_cases two : 0xc2 ≤ ch ∧ ch ≤ 0xdf
  · have length : sequenceLength ch = 2 := by simp [sequenceLength, two]
    rw [length] at within continuations ⊢
    obtain ⟨b, after, rfl⟩ : ∃ b after, rest = b :: after := by
      cases rest with
      | nil => simp at within
      | cons b after => exact ⟨b, after, rfl⟩
    have b_cont := continuations b (by simp)
    simp only [UInt8.le_iff_toNat_le, UInt8.reduceToNat] at two
    unfold Continuation at b_cont
    obtain ⟨c, value⟩ : ∃ c : Char, c.toNat = (ch.toNat - 0xc0) * 64 + (b.toNat - 0x80) :=
      exists_char (by unfold Nat.isValidChar; omega)
    refine ⟨c, by omega, [b], after, rfl, ?_, rfl⟩
    rw [utf8EncodeChar_eq, if_neg (by omega), if_pos (by omega), value,
      byte_eq ch (by omega), byte_eq b (by omega)]
  by_cases three : 0xe0 ≤ ch ∧ ch ≤ 0xef
  · have length : sequenceLength ch = 3 := by simp [sequenceLength, two, three]
    rw [length] at within continuations ⊢
    obtain ⟨b, d, after, rfl⟩ : ∃ b d after, rest = b :: d :: after := by
      match rest, within with
      | b :: d :: after, _ => exact ⟨b, d, after, rfl⟩
    have b_cont := continuations b (by simp)
    have d_cont := continuations d (by simp)
    rw [List.headD_cons] at second
    simp only [UInt8.le_iff_toNat_le, UInt8.reduceToNat] at three
    unfold Continuation at b_cont d_cont
    obtain ⟨c, value⟩ : ∃ c : Char, c.toNat =
        (ch.toNat - 0xe0) * 4096 + (b.toNat - 0x80) * 64 + (d.toNat - 0x80) :=
      exists_char (by unfold Nat.isValidChar; omega)
    refine ⟨c, by omega, [b, d], after, rfl, ?_, rfl⟩
    rw [utf8EncodeChar_eq, if_neg (by omega), if_neg (by omega), if_pos (by omega), value,
      byte_eq ch (by omega), byte_eq b (by omega), byte_eq d (by omega)]
  by_cases four : 0xf0 ≤ ch ∧ ch ≤ 0xf4
  · have length : sequenceLength ch = 4 := by simp [sequenceLength, two, three, four]
    rw [length] at within continuations ⊢
    obtain ⟨b, d, e, after, rfl⟩ : ∃ b d e after, rest = b :: d :: e :: after := by
      match rest, within with
      | b :: d :: e :: after, _ => exact ⟨b, d, e, after, rfl⟩
    have b_cont := continuations b (by simp)
    have d_cont := continuations d (by simp)
    have e_cont := continuations e (by simp)
    rw [List.headD_cons] at second
    simp only [UInt8.le_iff_toNat_le, UInt8.reduceToNat] at four
    unfold Continuation at b_cont d_cont e_cont
    obtain ⟨c, value⟩ : ∃ c : Char, c.toNat = (ch.toNat - 0xf0) * 262144 +
        (b.toNat - 0x80) * 4096 + (d.toNat - 0x80) * 64 + (e.toNat - 0x80) :=
      exists_char (by unfold Nat.isValidChar; omega)
    refine ⟨c, by omega, [b, d, e], after, rfl, ?_, rfl⟩
    rw [utf8EncodeChar_eq, if_neg (by omega), if_neg (by omega), if_neg (by omega), value,
      byte_eq ch (by omega), byte_eq b (by omega), byte_eq d (by omega), byte_eq e (by omega)]
  · exact absurd (by simp [sequenceLength, two, three, four]) announced

/-- And every encoding of a character beyond ASCII is taken for one. -/
theorem validSequence_complete {c : Char} (beyond : 0x80 ≤ c.toNat) {tail : Bytes}
    (encoded : String.utf8EncodeChar c = ch :: tail) (after : Bytes) :
    validSequence ch (tail ++ after) = true ∧ sequenceLength ch = tail.length + 1 := by
  have valid := c.valid
  change c.toNat < 0xD800 ∨ 0xDFFF < c.toNat ∧ c.toNat < 0x110000 at valid
  rw [utf8EncodeChar_eq, if_neg (by omega)] at encoded
  split_ifs at encoded with two three
  · obtain ⟨lead, rfl⟩ := List.cons.inj encoded
    have lead_value : ch.toNat = c.toNat / 64 % 0x20 + 0xc0 := by rw [← lead, toNat_ofNat (by omega)]
    have length : sequenceLength ch = 2 := by
      rw [sequenceLength, if_pos]
      simp only [UInt8.le_iff_toNat_le, UInt8.reduceToNat]
      omega
    refine ⟨?_, length⟩
    rw [validSequence_iff, length]
    refine ⟨by decide, by simp, ?_, by omega⟩
    simp only [List.cons_append, List.nil_append, Nat.add_one_sub_one, List.take_succ_cons,
      List.take_zero, List.mem_singleton, forall_eq]
    exact continuation_ofNat _
  · obtain ⟨lead, rfl⟩ := List.cons.inj encoded
    have lead_value : ch.toNat = c.toNat / 4096 % 0x10 + 0xe0 := by
      rw [← lead, toNat_ofNat (by omega)]
    have length : sequenceLength ch = 3 := by
      rw [sequenceLength, if_neg, if_pos]
      all_goals simp only [UInt8.le_iff_toNat_le, UInt8.reduceToNat]; omega
    refine ⟨?_, length⟩
    rw [validSequence_iff, length, List.cons_append, List.headD_cons, toNat_ofNat (by omega)]
    refine ⟨by decide, by simp, ?_, by omega⟩
    simp only [List.cons_append, List.nil_append, Nat.add_one_sub_one, List.take_succ_cons,
      List.take_zero, List.mem_cons, List.not_mem_nil, or_false, forall_eq_or_imp, forall_eq]
    exact ⟨continuation_ofNat _, continuation_ofNat _⟩
  · obtain ⟨lead, rfl⟩ := List.cons.inj encoded
    have lead_value : ch.toNat = c.toNat / 262144 % 0x08 + 0xf0 := by
      rw [← lead, toNat_ofNat (by omega)]
    have length : sequenceLength ch = 4 := by
      rw [sequenceLength, if_neg, if_neg, if_pos]
      all_goals simp only [UInt8.le_iff_toNat_le, UInt8.reduceToNat]; omega
    refine ⟨?_, length⟩
    rw [validSequence_iff, length, List.cons_append, List.headD_cons, toNat_ofNat (by omega)]
    refine ⟨by decide, by simp, ?_, by omega⟩
    simp only [List.cons_append, List.nil_append, Nat.add_one_sub_one, List.take_succ_cons,
      List.take_zero, List.mem_cons, List.not_mem_nil, or_false, forall_eq_or_imp, forall_eq]
    exact ⟨continuation_ofNat _, continuation_ofNat _, continuation_ofNat _⟩

/-- A byte beyond ASCII that begins no valid sequence is stray. -/
theorem noSequence_of_invalid (invalid : validSequence ch rest ≠ true) :
    NoSequence (ch :: rest) := by
  intro c after beyond same
  obtain ⟨lead, tail, shape⟩ := List.exists_cons_of_ne_nil (String.utf8EncodeChar_ne_nil (c := c))
  rw [shape] at same
  obtain ⟨rfl, rfl⟩ := List.cons.inj same
  exact invalid (validSequence_complete beyond shape after).1

/-! ## Printed text read back -/

theorem ofNat_toNat_ascii (ascii : n < 0x80) : (Char.ofNat n).toNat = n := by
  obtain ⟨c, rfl⟩ := exists_char (n := n) (.inl (by omega))
  rw [Char.ofNat_toNat]

theorem encode_ascii (ascii : ch.toNat < 0x80) :
    String.utf8EncodeChar (Char.ofNat ch.toNat) = [ch] := by
  rw [utf8EncodeChar_eq, ofNat_toNat_ascii ascii, if_pos (by omega), UInt8.ofNat_toNat]

/-- The digit `json_string` prints, as a character. -/
def hexChar (n : Nat) : Char :=
  Char.ofNat (hexDigit n).toNat

theorem hexChar_spec (small : n < 16) :
    String.utf8EncodeChar (hexChar n) = [hexDigit n] ∧ hexValue (hexChar n) = some n := by
  have table : ∀ n : Fin 16, String.utf8EncodeChar (hexChar n.val) = [hexDigit n.val] ∧
      hexValue (hexChar n.val) = some n.val := by decide +kernel
  exact table ⟨n, small⟩

theorem jsonBody_copy {front : Bytes} (rest : Bytes) :
    jsonBody front.length (front ++ rest) = front ++ jsonBody 0 rest := by
  induction front with
  | nil => rfl
  | cons ch front ih =>
    rw [List.length_cons, List.cons_append, jsonBody, ih, List.cons_append]

/-- The characters of printed text: what they encode to, and the string they spell. -/
def Prints (chars : List Char) (bytes : Bytes) (s : PyStr) : Prop :=
  chars.flatMap String.utf8EncodeChar = bytes ∧
    ∀ after, scanString (chars ++ '"' :: after) = some (s, after)

variable {s : PyStr}

/-- One more code point in front of printed text. -/
theorem Prints.cons {front chars : List Char} {bytes : Bytes} {c : CodePoint}
    (prints : Prints chars bytes s)
    (scans : ∀ rest, scanString (front ++ rest) =
      (scanString rest).map fun (s, after) => (c :: s, after)) :
    Prints (front ++ chars) (front.flatMap String.utf8EncodeChar ++ bytes) (c :: s) := by
  refine ⟨by rw [List.flatMap_append, prints.1], fun after => ?_⟩
  rw [List.append_assoc, scans, prints.2]
  rfl

/-- The escape of a byte, under the two digits `json_string` puts first. -/
theorem scanString_byte {a b : Char} {x y : Nat} (a_eq : hexValue a = some x)
    (b_eq : hexValue b = some y) (ch : UInt8)
    (alone : (x * 16 + y) * 256 + ch.toNat < 0xD800 ∨ 0xDBFF < (x * 16 + y) * 256 + ch.toNat)
    (rest : List Char) :
    scanString (['\\', 'u', a, b, hexChar (ch.toNat / 16), hexChar (ch.toNat % 16)] ++ rest) =
      (scanString rest).map fun (s, after) => (chr ((x * 16 + y) * 256 + ch.toNat) :: s, after) := by
  have bound := ch.toNat_lt
  have digits : hex4 a b (hexChar (ch.toNat / 16)) (hexChar (ch.toNat % 16)) =
      some ((x * 16 + y) * 256 + ch.toNat) := by
    simp only [hex4, a_eq, b_eq, (hexChar_spec (show ch.toNat / 16 < 16 by omega)).2,
      (hexChar_spec (show ch.toNat % 16 < 16 by omega)).2, Option.some.injEq]
    omega
  exact scanString_escape digits alone rest

/-- An ASCII byte is printed as its character, possibly escaped. -/
theorem jsonBody_ascii (ascii : ch.toNat < 0x80) {chars : List Char}
    (prints : Prints chars (jsonBody 0 rest) s) :
    ∃ chars', Prints chars' (jsonBody 0 (ch :: rest)) (.scalar (Char.ofNat ch.toNat) :: s) := by
  have below : ch < 128 := UInt8.lt_iff_toNat_lt.mpr ascii
  by_cases quoted : ch = 0x22 ∨ ch = 0x5c
  · have printed : jsonBody 0 (ch :: rest) =
        ['\\', Char.ofNat ch.toNat].flatMap String.utf8EncodeChar ++ jsonBody 0 rest := by
      simp only [List.flatMap_cons, List.flatMap_nil, encode_ascii ascii, jsonBody, if_pos quoted]
      rfl
    rw [printed]
    refine ⟨_, prints.cons fun rest => ?_⟩
    rcases quoted with rfl | rfl
    · exact scanString_backslash (by decide) rfl rest
    · exact scanString_backslash (by decide) rfl rest
  by_cases control : ch < 32
  · have printed : jsonBody 0 (ch :: rest) =
        ['\\', 'u', '0', '0', hexChar (ch.toNat / 16), hexChar (ch.toNat % 16)].flatMap
          String.utf8EncodeChar ++ jsonBody 0 rest := by
      simp only [List.flatMap_cons, List.flatMap_nil, jsonBody, if_neg quoted, if_pos control,
        (hexChar_spec (show ch.toNat / 16 < 16 by omega)).1,
        (hexChar_spec (show ch.toNat % 16 < 16 by omega)).1]
      rfl
    have char : chr ((0 * 16 + 0) * 256 + ch.toNat) = .scalar (Char.ofNat ch.toNat) := by
      rw [chr, dif_neg (by omega)]
      simp
    rw [printed]
    refine ⟨_, prints.cons fun rest => ?_⟩
    rw [← char]
    exact scanString_byte rfl rfl ch (.inl (by omega)) rest
  · have printed : jsonBody 0 (ch :: rest) =
        [Char.ofNat ch.toNat].flatMap String.utf8EncodeChar ++ jsonBody 0 rest := by
      simp only [List.flatMap_cons, List.flatMap_nil, encode_ascii ascii, jsonBody, if_neg quoted,
        if_neg control, if_pos below]
      rfl
    have value := ofNat_toNat_ascii ascii
    have byte_of : ∀ c : Char, Char.ofNat ch.toNat = c → ch = UInt8.ofNat c.toNat := by
      rintro c rfl
      rw [value, UInt8.ofNat_toNat]
    rw [printed]
    refine ⟨_, prints.cons fun rest => scanString_plain ?_ ?_ ?_ rest⟩
    · exact fun quote => quoted (.inl (byte_of _ quote))
    · rw [value]
      exact fun low => control (UInt8.lt_iff_toNat_lt.mpr low)
    · exact fun backslash => quoted (.inr (byte_of _ backslash))

/-- A sequence is printed as it is. -/
theorem jsonBody_sequence {c : Char} (beyond : 0x80 ≤ c.toNat) {chars : List Char}
    (prints : Prints chars (jsonBody 0 rest) s) :
    Prints (c :: chars) (jsonBody 0 (String.utf8EncodeChar c ++ rest)) (.scalar c :: s) := by
  rcases utf8EncodeChar_shape c with ⟨low, -⟩ | ⟨-, ch, tail, shape, high, -, -⟩
  · omega
  obtain ⟨valid, length⟩ := validSequence_complete beyond shape rest
  have not_quoted : ¬ (ch = 0x22 ∨ ch = 0x5c) := by
    rintro (rfl | rfl) <;> exact absurd high (by decide)
  have not_control : ¬ ch < 32 := fun low => absurd (UInt8.lt_iff_toNat_lt.mp low) (by
    show ¬ ch.toNat < 32
    omega)
  have not_ascii : ¬ ch < 128 := fun low => absurd (UInt8.lt_iff_toNat_lt.mp low) (by
    show ¬ ch.toNat < 128
    omega)
  have printed : jsonBody 0 (String.utf8EncodeChar c ++ rest) =
      [c].flatMap String.utf8EncodeChar ++ jsonBody 0 rest := by
    rw [shape, List.cons_append, jsonBody, if_neg not_quoted, if_neg not_control, if_neg not_ascii,
      if_pos valid, length, Nat.add_sub_cancel, jsonBody_copy]
    simp [shape]
  have scans : ∀ rest, scanString ([c] ++ rest) =
      (scanString rest).map fun (s, after) => (.scalar c :: s, after) := by
    intro rest
    refine scanString_plain ?_ (by omega) ?_ rest
    · rintro rfl
      exact absurd beyond (by decide)
    · rintro rfl
      exact absurd beyond (by decide)
  rw [printed]
  exact prints.cons scans

/-- A stray byte is printed as its surrogate escape. -/
theorem jsonBody_stray (high : 0x80 ≤ ch.toNat)
    (invalid : ¬ validSequence ch rest = true) {chars : List Char}
    (prints : Prints chars (jsonBody 0 rest) s) :
    ∃ chars', Prints chars' (jsonBody 0 (ch :: rest)) (.escape ch :: s) := by
  have bound := ch.toNat_lt
  have not_quoted : ¬ (ch = 0x22 ∨ ch = 0x5c) := by
    rintro (rfl | rfl) <;> exact absurd high (by decide)
  have not_control : ¬ ch < 32 := fun low => absurd (UInt8.lt_iff_toNat_lt.mp low) (by
    show ¬ ch.toNat < 32
    omega)
  have not_ascii : ¬ ch < 128 := fun low => absurd (UInt8.lt_iff_toNat_lt.mp low) (by
    show ¬ ch.toNat < 128
    omega)
  have printed : jsonBody 0 (ch :: rest) =
      ['\\', 'u', 'd', 'c', hexChar (ch.toNat / 16), hexChar (ch.toNat % 16)].flatMap
        String.utf8EncodeChar ++ jsonBody 0 rest := by
    simp only [List.flatMap_cons, List.flatMap_nil, jsonBody, if_neg not_quoted, if_neg not_control,
      if_neg not_ascii, if_neg invalid, (hexChar_spec (show ch.toNat / 16 < 16 by omega)).1,
      (hexChar_spec (show ch.toNat % 16 < 16 by omega)).1]
    rfl
  have char : chr ((13 * 16 + 12) * 256 + ch.toNat) = .escape ch := by
    rw [chr, dif_pos (by omega), CodePoint.escape]
    simp only [CodePoint.surrogate.injEq, Fin.mk.injEq]
    omega
  rw [printed, ← char]
  exact ⟨_, prints.cons fun rest => scanString_byte rfl rfl ch (.inr (by omega)) rest⟩

/-- **Printed text reads back as the decoded bytes.** -/
theorem jsonBody_prints (bytes : Bytes) :
    ∃ chars s, Decodes bytes s ∧ Prints chars (jsonBody 0 bytes) s := by
  induction length : bytes.length using Nat.strong_induction_on generalizing bytes with
  | _ n ih =>
  cases bytes with
  | nil => exact ⟨[], [], .nil, rfl, scanString_quote⟩
  | cons ch rest =>
    rw [List.length_cons] at length
    by_cases ascii : ch.toNat < 0x80
    · obtain ⟨chars, s, decodes, prints⟩ := ih rest.length (by omega) rest rfl
      obtain ⟨chars', prints'⟩ := jsonBody_ascii ascii prints
      have whole := Decodes.scalar (Char.ofNat ch.toNat) decodes
      rw [encode_ascii ascii] at whole
      exact ⟨chars', _, whole, prints'⟩
    by_cases valid : validSequence ch rest = true
    · obtain ⟨c, beyond, tail, after, rfl, shape, -⟩ := validSequence_sound valid
      rw [List.length_append] at length
      obtain ⟨chars, s, decodes, prints⟩ := ih after.length (by omega) after rfl
      rw [← List.cons_append, ← shape]
      exact ⟨_, _, .scalar c decodes, jsonBody_sequence beyond prints⟩
    · obtain ⟨chars, s, decodes, prints⟩ := ih rest.length (by omega) rest rfl
      obtain ⟨chars', prints'⟩ := jsonBody_stray (by omega) valid prints
      exact ⟨chars', _, .escape ch (by omega) (noSequence_of_invalid valid) decodes, prints'⟩

/-! ## The printed list -/

/-- The elements between the brackets read back as the decoded entries. -/
theorem scanItems_prints : ∀ {texts : List Bytes}, texts ≠ [] → ∃ rest strings,
    List.Forall₂ Decodes texts strings ∧ texts.length ≤ rest.length ∧
    ('"' :: rest).flatMap String.utf8EncodeChar = [0x2c].intercalate (texts.map jsonString) ∧
    ∀ fuel, texts.length < fuel → ∀ after,
      scanItems .alike fuel ('"' :: rest ++ ']' :: after) = some (strings.map .str, after) := by
  intro texts
  induction texts with
  | nil =>
    intro nonempty
    exact absurd rfl nonempty
  | cons text texts ih =>
    intro _
    obtain ⟨chars, s, decodes, spelled, scanned⟩ := jsonBody_prints text
    have quoted : ('"' :: (chars ++ ['"'])).flatMap String.utf8EncodeChar = jsonString text := by
      rw [List.flatMap_cons, List.flatMap_append, spelled]
      rfl
    have scan (fuel : Nat) (after : List Char) :
        scan .alike (fuel + 1) ('"' :: (chars ++ '"' :: after)) = some (.str s, after) := by
      simp only [scan, scanned, Option.map_some]
    cases texts with
    | nil =>
      refine ⟨chars ++ ['"'], [s], .cons decodes .nil, by simp, ?_, fun fuel enough after => ?_⟩
      · rw [quoted, List.map_singleton, List.intercalate_singleton]
      · obtain ⟨fuel, rfl⟩ : ∃ n, fuel = n + 2 := ⟨fuel - 2, by simp at enough; omega⟩
        simp only [List.cons_append, List.append_assoc, List.nil_append, scanItems, scan]
        rfl
    | cons next texts =>
      obtain ⟨rest, strings, decodes', enough', spelled', scanned'⟩ := ih (by simp)
      refine ⟨chars ++ ['"'] ++ ',' :: '"' :: rest, s :: strings, .cons decodes decodes', ?_, ?_,
        fun fuel enough after => ?_⟩
      · simp only [List.length_cons, List.length_append, List.length_nil] at enough' ⊢
        omega
      · rw [← List.cons_append, List.flatMap_append, quoted, List.flatMap_cons, spelled']
        rfl
      · obtain ⟨fuel, rfl⟩ : ∃ n, fuel = n + 2 := ⟨fuel - 2, by simp at enough; omega⟩
        have others := scanned' (fuel + 1) (by simpa using enough) after
        simp only [List.cons_append, List.append_assoc, List.nil_append] at others ⊢
        rw [scanItems, scan]
        simp only [skipSpace_cons (c := ',') (by decide), skipSpace_cons (c := '"') (by decide), others,
          Option.map_some, List.map_cons]

theorem mapM_textOf (strings : List PyStr) : (strings.map .str).mapM textOf = some strings := by
  induction strings with
  | nil => rfl
  | cons s strings ih => simp [List.mapM_cons, textOf, ih]

theorem decodeUtf8_flatMap (chars : List Char) :
    decodeUtf8 (chars.flatMap String.utf8EncodeChar) = some chars := by
  have valid : ByteArray.IsValidUTF8 (chars.flatMap String.utf8EncodeChar).toByteArray :=
    ⟨chars, rfl⟩
  rw [decodeUtf8, String.fromUTF8?, dif_pos valid, Option.map_some]
  exact congrArg some (String.toList_ofList (l := chars))

/-- **The printed list reads back as the decoded entries.** -/
theorem policyJson_decodes (entries : Finset Bytes) :
    ∃ observed, snapshotPaths entries = some observed ∧
      List.Forall₂ Decodes (entries.sort byteLE) observed := by
  by_cases empty : entries.sort byteLE = []
  · refine ⟨[], ?_, by rw [empty]; exact .nil⟩
    have printed : policyJson entries = ['[', ']'].flatMap String.utf8EncodeChar := by
      rw [policyJson, empty]
      rfl
    rw [snapshotPaths, printed, decodeUtf8_flatMap]
    rfl
  · obtain ⟨rest, strings, decodes, enough, spelled, scanned⟩ := scanItems_prints empty
    refine ⟨strings, ?_, decodes⟩
    have printed : policyJson entries = ('[' :: ('"' :: rest ++ [']'])).flatMap String.utf8EncodeChar := by
      rw [policyJson, ← spelled, List.flatMap_cons (x := '['), List.flatMap_append]
      rfl
    have inside := scanned ('[' :: ('"' :: rest ++ [']'])).length
      (by simp only [List.length_cons, List.length_append]; omega) []
    have read : loads .alike ('[' :: ('"' :: rest ++ [']'])) = some (.list (strings.map .str)) := by
      rw [List.cons_append] at inside ⊢
      rw [loads, skipSpace_cons (by decide), scan_list _ (by decide) (by decide), inside]
      rfl
    simp only [snapshotPaths, printed, decodeUtf8_flatMap, Option.bind_some, read, mapM_textOf]

end ProgramSplit.Linux.Policy
