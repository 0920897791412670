/-
# Lib.SurrogateEscape — file names as strings of code points

A file name is a byte string; a string is a list of code points in which lone
surrogates may occur. The escaping scheme writes a byte that is part of no
UTF-8 sequence as the surrogate `U+DC00 + byte`. Encoding is partial (other
surrogates have no bytes), decoding is total, and decoding after encoding is not
the identity: escapes that spell a UTF-8 sequence come back as its character.

* `Decodes.encode` — encoding undoes decoding.
* `Decodes.canonical` — a decoded string contains no escapes that spell a character.
* `decodes_of_canonical` — and every such string is the decoding of its encoding.
-/
import Mathlib.Data.List.Infix
import Mathlib.Logic.Relator

namespace ProgramSplit.Lib

set_option autoImplicit false

/-- A code point: a Unicode scalar value, or the surrogate `U+D800 + n`. -/
inductive CodePoint
  | scalar (c : Char)
  | surrogate (n : Fin 0x800)
  deriving DecidableEq

namespace CodePoint

/-- The number of the code point. -/
def ord : CodePoint → Nat
  | scalar c => c.toNat
  | surrogate n => 0xD800 + n

theorem ord_injective : Function.Injective ord := by
  intro a b same
  cases a with
  | scalar c =>
    cases b with
    | scalar c' => rw [← Char.ofNat_toNat c, show c.toNat = c'.toNat from same, Char.ofNat_toNat]
    | surrogate n =>
      exfalso
      have valid := c.valid
      change c.toNat < 0xD800 ∨ 0xDFFF < c.toNat ∧ c.toNat < 0x110000 at valid
      simp only [ord] at same
      omega
  | surrogate n =>
    cases b with
    | scalar c =>
      exfalso
      have valid := c.valid
      change c.toNat < 0xD800 ∨ 0xDFFF < c.toNat ∧ c.toNat < 0x110000 at valid
      simp only [ord] at same
      omega
    | surrogate n' =>
      simp only [ord] at same
      rw [Fin.ext (by omega : n.val = n'.val)]

/-- The surrogate that stands for a byte outside every UTF-8 sequence. -/
def escape (byte : UInt8) : CodePoint :=
  surrogate ⟨0x400 + byte.toNat, by have := byte.toNat_lt; omega⟩

/-- The bytes of a code point: its UTF-8 sequence, the byte an escape stands for, and
none for any other surrogate. -/
def encode : CodePoint → Option (List UInt8)
  | scalar c => some (String.utf8EncodeChar c)
  | surrogate n =>
    if 0x480 ≤ n.val ∧ n.val < 0x500 then some [UInt8.ofNat (n.val - 0x400)] else none

theorem escape_injective : Function.Injective escape := by
  intro a b same
  simp only [escape, surrogate.injEq, Fin.mk.injEq] at same
  exact UInt8.toNat_inj.mp (by omega)

theorem encode_escape {byte : UInt8} (high : 0x80 ≤ byte.toNat) :
    (escape byte).encode = some [byte] := by
  have bound := byte.toNat_lt
  have range : 0x480 ≤ 0x400 + byte.toNat ∧ 0x400 + byte.toNat < 0x500 := by omega
  simp [escape, encode, range]

/-- A surrogate with bytes is the escape of its byte. -/
theorem eq_escape_of_encode {n : Fin 0x800} {bytes : List UInt8}
    (encodes : (surrogate n).encode = some bytes) :
    ∃ byte : UInt8, 0x80 ≤ byte.toNat ∧ surrogate n = escape byte ∧ bytes = [byte] := by
  simp only [encode] at encodes
  split at encodes
  · cases encodes
    have small : (UInt8.ofNat (n.val - 0x400)).toNat = n.val - 0x400 :=
      UInt8.toNat_ofNat_of_lt' (by show _ < 256; omega)
    refine ⟨UInt8.ofNat (n.val - 0x400), by omega, ?_, rfl⟩
    simp only [escape, surrogate.injEq, Fin.ext_iff, small]
    omega
  · cases encodes

end CodePoint

/-! ## UTF-8 sequences -/

/-- A continuation byte. -/
def Continuation (byte : UInt8) : Prop :=
  0x80 ≤ byte.toNat ∧ byte.toNat < 0xC0

theorem utf8EncodeChar_eq (c : Char) :
    String.utf8EncodeChar c =
      if c.toNat ≤ 0x7f then [UInt8.ofNat c.toNat]
      else if c.toNat ≤ 0x7ff then
        [UInt8.ofNat (c.toNat / 64 % 0x20 + 0xc0), UInt8.ofNat (c.toNat % 0x40 + 0x80)]
      else if c.toNat ≤ 0xffff then
        [UInt8.ofNat (c.toNat / 4096 % 0x10 + 0xe0), UInt8.ofNat (c.toNat / 64 % 0x40 + 0x80),
          UInt8.ofNat (c.toNat % 0x40 + 0x80)]
      else
        [UInt8.ofNat (c.toNat / 262144 % 0x08 + 0xf0), UInt8.ofNat (c.toNat / 4096 % 0x40 + 0x80),
          UInt8.ofNat (c.toNat / 64 % 0x40 + 0x80), UInt8.ofNat (c.toNat % 0x40 + 0x80)] :=
  rfl

theorem toNat_ofNat {n : Nat} (small : n < 256) : (UInt8.ofNat n).toNat = n :=
  UInt8.toNat_ofNat_of_lt' small

theorem continuation_ofNat (n : Nat) : Continuation (UInt8.ofNat (n % 0x40 + 0x80)) := by
  rw [Continuation, toNat_ofNat (by omega)]
  omega

/-- An encoded character is one ASCII byte, or a lead byte and continuation bytes. -/
theorem utf8EncodeChar_shape (c : Char) :
    (c.toNat < 0x80 ∧ String.utf8EncodeChar c = [UInt8.ofNat c.toNat]) ∨
    (0x80 ≤ c.toNat ∧ ∃ lead tail, String.utf8EncodeChar c = lead :: tail ∧ 0xC2 ≤ lead.toNat ∧
      tail ≠ [] ∧ ∀ byte ∈ tail, Continuation byte) := by
  rw [utf8EncodeChar_eq]
  split_ifs with one two three
  · exact .inl ⟨by omega, rfl⟩
  · refine .inr ⟨by omega, _, _, rfl, ?_, by simp, ?_⟩
    · rw [toNat_ofNat (by omega)]
      omega
    · simp only [List.mem_singleton, forall_eq]
      exact continuation_ofNat _
  · refine .inr ⟨by omega, _, _, rfl, ?_, by simp, ?_⟩
    · rw [toNat_ofNat (by omega)]
      omega
    · simp only [List.mem_cons, List.not_mem_nil, or_false, forall_eq_or_imp, forall_eq]
      exact ⟨continuation_ofNat _, continuation_ofNat _⟩
  · refine .inr ⟨by omega, _, _, rfl, ?_, by simp, ?_⟩
    · rw [toNat_ofNat (by omega)]
      omega
    · simp only [List.mem_cons, List.not_mem_nil, or_false, forall_eq_or_imp, forall_eq]
      exact ⟨continuation_ofNat _, continuation_ofNat _, continuation_ofNat _⟩

/-- An ASCII byte is the whole encoding of its character. -/
theorem utf8EncodeChar_of_ascii_mem {c : Char} {byte : UInt8} (ascii : byte.toNat < 0x80)
    (member : byte ∈ String.utf8EncodeChar c) : c.toNat = byte.toNat ∧ String.utf8EncodeChar c = [byte] := by
  rcases utf8EncodeChar_shape c with ⟨small, shape⟩ | ⟨-, lead, tail, shape, leadBound, -, continuation⟩
  · rw [shape, List.mem_singleton] at member
    exact ⟨by rw [member, toNat_ofNat (by omega)], by rw [shape, member]⟩
  · rw [shape, List.mem_cons] at member
    rcases member with rfl | inTail
    · omega
    · have := (continuation byte inTail).1
      omega

/-- An encoded character is recognised at the front of any bytes. -/
theorem utf8EncodeChar_append_inj {c c' : Char} {rest rest' : List UInt8}
    (same : String.utf8EncodeChar c ++ rest = String.utf8EncodeChar c' ++ rest') :
    c = c' ∧ rest = rest' := by
  have decoded := ByteArray.utf8DecodeChar?_utf8EncodeChar_append (c := c) (b := rest.toByteArray)
  have decoded' := ByteArray.utf8DecodeChar?_utf8EncodeChar_append (c := c') (b := rest'.toByteArray)
  rw [← List.toByteArray_append, same, List.toByteArray_append, decoded'] at decoded
  obtain rfl := Option.some.inj decoded
  exact ⟨rfl, List.append_cancel_left same⟩

/-! ## Strings -/

/-- The bytes of a string; none when a surrogate in it is not an escape. -/
def encodeString : List CodePoint → Option (List UInt8)
  | [] => some []
  | c :: rest =>
    match c.encode, encodeString rest with
    | some bytes, some tail => some (bytes ++ tail)
    | _, _ => none

/-- Bytes that begin with no sequence of a character beyond ASCII. -/
def NoSequence (bytes : List UInt8) : Prop :=
  ∀ (c : Char) (rest : List UInt8), 0x80 ≤ c.toNat → bytes ≠ String.utf8EncodeChar c ++ rest

/-- Decoding: characters where the bytes spell them, escapes where they do not. -/
inductive Decodes : List UInt8 → List CodePoint → Prop
  | nil : Decodes [] []
  | scalar (c : Char) {bytes : List UInt8} {s : List CodePoint} (rest : Decodes bytes s) :
      Decodes (String.utf8EncodeChar c ++ bytes) (.scalar c :: s)
  | escape (byte : UInt8) {bytes : List UInt8} {s : List CodePoint} (high : 0x80 ≤ byte.toNat)
      (stray : NoSequence (byte :: bytes)) (rest : Decodes bytes s) :
      Decodes (byte :: bytes) (.escape byte :: s)

/-- No run of escapes spells a character. -/
def Canonical (s : List CodePoint) : Prop :=
  ∀ c : Char, 0x80 ≤ c.toNat → ¬ (String.utf8EncodeChar c).map CodePoint.escape <:+: s

variable {s : List CodePoint} {bytes : List UInt8}

theorem encodeString_cons {c : CodePoint}
    (encodes : encodeString (c :: s) = some bytes) :
    ∃ front back, c.encode = some front ∧ encodeString s = some back ∧ bytes = front ++ back := by
  unfold encodeString at encodes
  split at encodes
  · rename_i front back here there
    exact ⟨front, back, here, there, (Option.some.inj encodes).symm⟩
  · cases encodes

/-- Encoding undoes decoding. -/
theorem Decodes.encode (decodes : Decodes bytes s) :
    encodeString s = some bytes := by
  induction decodes with
  | nil => rfl
  | scalar c _ ih => simp [encodeString, CodePoint.encode, ih]
  | escape byte high _ _ ih => simp [encodeString, CodePoint.encode_escape high, ih]

/-- The escapes of given bytes encode to these bytes. -/
theorem encodeString_escapes {run : List UInt8}
    (encodes : encodeString (run.map CodePoint.escape ++ s) = some bytes) :
    ∃ back, encodeString s = some back ∧ bytes = run ++ back := by
  induction run generalizing bytes with
  | nil => exact ⟨bytes, encodes, rfl⟩
  | cons byte run ih =>
    obtain ⟨front, rest, here, there, rfl⟩ := encodeString_cons encodes
    obtain ⟨back, tail, rfl⟩ := ih there
    obtain ⟨byte', -, same, rfl⟩ := CodePoint.eq_escape_of_encode here
    rw [← CodePoint.escape_injective same]
    exact ⟨back, tail, rfl⟩

/-- Bytes above ASCII at the front of an encoding come from escapes, as long as they are
continuation bytes. -/
theorem escapes_of_continuations {run : List UInt8} {back : List UInt8}
    (continuations : ∀ byte ∈ run, Continuation byte)
    (encodes : encodeString s = some (run ++ back)) : run.map CodePoint.escape <+: s := by
  induction run generalizing s with
  | nil => exact List.nil_prefix
  | cons byte run ih =>
    have here := continuations byte List.mem_cons_self
    cases s with
    | nil => cases encodes
    | cons c s =>
      obtain ⟨front, rest, spelled, tail, split⟩ := encodeString_cons encodes
      cases c with
      | scalar c =>
        exfalso
        have front_eq : String.utf8EncodeChar c = front := Option.some.inj spelled
        rcases utf8EncodeChar_shape c with ⟨low, ascii⟩ | ⟨-, lead, after, shape, high, -, -⟩
        · rw [← front_eq, ascii] at split
          have head := List.head_eq_of_cons_eq split
          rw [Continuation, head, toNat_ofNat (by omega)] at here
          omega
        · rw [← front_eq, shape] at split
          have head := List.head_eq_of_cons_eq split
          rw [Continuation, head] at here
          omega
      | surrogate n =>
        obtain ⟨byte', -, same, rfl⟩ := CodePoint.eq_escape_of_encode spelled
        obtain ⟨rfl, rfl⟩ := List.cons.inj split
        rw [same, List.map_cons, List.cons_prefix_cons]
        exact ⟨rfl, ih (fun b mem => continuations b (List.mem_cons_of_mem _ mem)) tail⟩

/-- **A decoded string is canonical.** -/
theorem Decodes.canonical (decodes : Decodes bytes s) :
    Canonical s := by
  induction decodes with
  | nil =>
    intro c _ spelled
    have empty := List.eq_nil_of_infix_nil spelled
    exact String.utf8EncodeChar_ne_nil (List.map_eq_nil_iff.mp empty)
  | scalar c _ ih =>
    intro c' beyond spelled
    rcases List.infix_cons_iff.mp spelled with front | later
    · obtain ⟨lead, tail, shape⟩ := List.exists_cons_of_ne_nil
        (String.utf8EncodeChar_ne_nil (c := c'))
      rw [shape, List.map_cons, List.cons_prefix_cons] at front
      cases front.1
    · exact ih c' beyond later
  | escape byte high stray rest ih =>
    intro c beyond spelled
    rcases List.infix_cons_iff.mp spelled with ⟨after, front⟩ | later
    · have whole := (Decodes.escape byte high stray rest).encode
      rw [← front] at whole
      obtain ⟨back, -, split⟩ := encodeString_escapes whole
      exact stray c back beyond split
    · exact ih c beyond later

/-- **A canonical string is the decoding of its encoding.** -/
theorem decodes_of_canonical (canonical : Canonical s)
    (encodes : encodeString s = some bytes) : Decodes bytes s := by
  induction s generalizing bytes with
  | nil =>
    cases encodes
    exact .nil
  | cons c s ih =>
    obtain ⟨front, back, here, there, rfl⟩ := encodeString_cons encodes
    have rest := ih (fun c' beyond spelled => canonical c' beyond
      (List.infix_cons_iff.mpr (.inr spelled))) there
    cases c with
    | scalar c =>
      cases here
      exact .scalar c rest
    | surrogate n =>
      obtain ⟨byte, high, same, rfl⟩ := CodePoint.eq_escape_of_encode here
      rw [same]
      refine .escape byte high ?_ rest
      -- a sequence here would be spelled by this escape and the ones behind it
      intro c after beyond sequence
      rcases utf8EncodeChar_shape c with ⟨low, -⟩ | ⟨-, lead, tail, shape, -, -, continuations⟩
      · omega
      · rw [shape] at sequence
        obtain ⟨rfl, behind_eq⟩ := List.cons.inj sequence
        rw [show back = tail ++ after from behind_eq] at there
        have behind := escapes_of_continuations continuations there
        refine canonical c beyond (List.IsPrefix.isInfix ?_)
        rw [shape, same, List.map_cons, List.cons_prefix_cons]
        exact ⟨rfl, behind⟩

/-- What the front of the bytes says about a decoding. -/
theorem Decodes.cases_front (decodes : Decodes bytes s) :
    (bytes = [] ∧ s = []) ∨
    (∃ c rest t, bytes = String.utf8EncodeChar c ++ rest ∧ s = .scalar c :: t ∧ Decodes rest t) ∨
    (∃ byte rest t, bytes = byte :: rest ∧ s = .escape byte :: t ∧ 0x80 ≤ byte.toNat ∧
      NoSequence (byte :: rest) ∧ Decodes rest t) := by
  cases decodes with
  | nil => exact .inl ⟨rfl, rfl⟩
  | scalar c rest => exact .inr (.inl ⟨c, _, _, rfl, rfl, rest⟩)
  | escape byte high stray rest => exact .inr (.inr ⟨byte, _, _, rfl, rfl, high, stray, rest⟩)

variable {byte : UInt8}

/-- A character's sequence is not a stray byte with what follows it. -/
theorem not_stray_of_scalar {c : Char} {bytes rest : List UInt8}
    (high : 0x80 ≤ byte.toNat) (stray : NoSequence (byte :: rest))
    (same : String.utf8EncodeChar c ++ bytes = byte :: rest) : False := by
  rcases utf8EncodeChar_shape c with ⟨low, ascii⟩ | ⟨beyond, -⟩
  · rw [ascii] at same
    have head := List.head_eq_of_cons_eq same
    rw [← head, toNat_ofNat (by omega)] at high
    omega
  · exact stray c bytes beyond same.symm

/-- Decoding is a function. -/
theorem Decodes.unique {s s' : List CodePoint} (decodes : Decodes bytes s)
    (decodes' : Decodes bytes s') : s = s' := by
  induction decodes generalizing s' with
  | nil =>
    rcases decodes'.cases_front with ⟨-, rfl⟩ | ⟨c, rest, t, same, -, -⟩ | ⟨_, _, _, same, -⟩
    · rfl
    · exact absurd (List.append_eq_nil_iff.mp same.symm).1 String.utf8EncodeChar_ne_nil
    · cases same
  | scalar c rest ih =>
    rcases decodes'.cases_front with ⟨same, -⟩ | ⟨c', rest', t, same, rfl, back⟩ |
      ⟨byte, rest', t, same, -, high, stray, -⟩
    · exact absurd (List.append_eq_nil_iff.mp same).1 String.utf8EncodeChar_ne_nil
    · obtain ⟨rfl, rfl⟩ := utf8EncodeChar_append_inj same
      rw [ih back]
    · exact (not_stray_of_scalar high stray same).elim
  | escape byte high stray rest ih =>
    rcases decodes'.cases_front with ⟨same, -⟩ | ⟨c', rest', t, same, -, -⟩ |
      ⟨byte', rest', t, same, rfl, -, -, back⟩
    · cases same
    · exact (not_stray_of_scalar high stray same.symm).elim
    · obtain ⟨rfl, rfl⟩ := List.cons.inj same
      rw [ih back]

/-- Bytes and decoded strings determine each other. -/
theorem Decodes.biUnique : Relator.BiUnique Decodes :=
  ⟨fun _ _ _ decodes decodes' => Option.some.inj (decodes.encode.symm.trans decodes'.encode),
    fun _ _ _ decodes decodes' => decodes.unique decodes'⟩

/-! ## ASCII in an encoding -/

/-- The bytes of a concatenation. -/
theorem encodeString_append {s t : List CodePoint} :
    encodeString (s ++ t) = some bytes ↔
      ∃ front back, encodeString s = some front ∧ encodeString t = some back ∧
        bytes = front ++ back := by
  induction s generalizing bytes with
  | nil => simp [encodeString, eq_comm]
  | cons c s ih =>
    constructor
    · intro encodes
      obtain ⟨here, rest, spelled, tail, rfl⟩ := encodeString_cons encodes
      obtain ⟨front, back, front_eq, back_eq, rfl⟩ := ih.mp tail
      refine ⟨here ++ front, back, ?_, back_eq, by simp⟩
      simp [encodeString, spelled, front_eq]
    · rintro ⟨front, back, encodes, back_eq, rfl⟩
      obtain ⟨here, rest, spelled, tail, rfl⟩ := encodeString_cons encodes
      have both := ih.mpr ⟨rest, back, tail, back_eq, rfl⟩
      simp [encodeString, spelled, both]

/-- An ASCII byte at the front of an encoding is its character. -/
theorem encodeString_ascii_front {back : List UInt8}
    (ascii : byte.toNat < 0x80) (encodes : encodeString s = some (byte :: back)) :
    ∃ t, s = .scalar (Char.ofNat byte.toNat) :: t ∧ encodeString t = some back := by
  cases s with
  | nil => cases encodes
  | cons c s =>
    obtain ⟨front, rest, spelled, tail, split⟩ := encodeString_cons encodes
    cases c with
    | scalar c =>
      obtain rfl : String.utf8EncodeChar c = front := Option.some.inj spelled
      obtain ⟨lead, after, shape⟩ := List.exists_cons_of_ne_nil (String.utf8EncodeChar_ne_nil (c := c))
      have member : byte ∈ String.utf8EncodeChar c := by
        rw [shape] at split ⊢
        exact List.head_eq_of_cons_eq split ▸ List.mem_cons_self
      obtain ⟨value, own⟩ := utf8EncodeChar_of_ascii_mem ascii member
      rw [own] at split
      rw [← value, Char.ofNat_toNat, (List.cons.inj split).2]
      exact ⟨s, rfl, tail⟩
    | surrogate n =>
      obtain ⟨byte', high, -, rfl⟩ := CodePoint.eq_escape_of_encode spelled
      have head := List.head_eq_of_cons_eq split
      rw [head] at ascii
      omega

/-- An ASCII character occurs in a string exactly where its byte occurs in the encoding. -/
theorem mem_of_ascii_mem
    (ascii : byte.toNat < 0x80) (encodes : encodeString s = some bytes) (mem : byte ∈ bytes) :
    .scalar (Char.ofNat byte.toNat) ∈ s := by
  induction s generalizing bytes with
  | nil =>
    cases encodes
    cases mem
  | cons c s ih =>
    obtain ⟨front, rest, spelled, tail, rfl⟩ := encodeString_cons encodes
    rcases List.mem_append.mp mem with here | later
    · cases c with
      | scalar c =>
        obtain rfl : String.utf8EncodeChar c = front := Option.some.inj spelled
        rw [← (utf8EncodeChar_of_ascii_mem ascii here).1, Char.ofNat_toNat]
        exact List.mem_cons_self
      | surrogate n =>
        obtain ⟨byte', high, -, rfl⟩ := CodePoint.eq_escape_of_encode spelled
        obtain rfl := List.mem_singleton.mp here
        omega
    · exact List.mem_cons_of_mem _ (ih tail later)

end ProgramSplit.Lib
