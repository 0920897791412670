/-
# Lib.Utf16 — UTF-16 strings and their UTF-8 spelling

Strings of 16-bit units, as one platform's file names are, and the two conversions between them and
UTF-8.  A unit that is half of no pair has no character; it is replaced on the way out, so only
well-formed strings come back as they were.

* `encode`, `decode` — characters to units and back.
* `WellFormed` — every surrogate is part of a pair; kept where a string is cut at another unit.
* `utf8`, `wide` — **`wide_utf8`: a well-formed string survives both conversions.**
-/
import ProgramSplit.Lib.SurrogateEscape
import ProgramSplit.Lib.Words

namespace ProgramSplit.Lib.Utf16

set_option autoImplicit false

/-! ## Units and characters -/

def isHigh (u : UInt16) : Bool :=
  decide (0xD800 ≤ u.toNat ∧ u.toNat < 0xDC00)

def isLow (u : UInt16) : Bool :=
  decide (0xDC00 ≤ u.toNat ∧ u.toNat < 0xE000)

/-- The units of a character. -/
def encodeChar (c : Char) : List UInt16 :=
  if c.toNat < 0x10000 then [UInt16.ofNat c.toNat]
  else
    [UInt16.ofNat (0xD800 + (c.toNat - 0x10000) / 0x400),
      UInt16.ofNat (0xDC00 + (c.toNat - 0x10000) % 0x400)]

def encode (s : List Char) : List UInt16 :=
  s.flatMap encodeChar

/-- What stands for a unit that is half of no pair. -/
def replacement : Char :=
  Char.ofNat 0xFFFD

/-- The characters of a string of units. -/
def decode : List UInt16 → List Char
  | [] => []
  | u :: rest =>
    if isHigh u then
      match rest with
      | [] => [replacement]
      | v :: rest =>
        if isLow v then
          Char.ofNat (0x10000 + (u.toNat - 0xD800) * 0x400 + (v.toNat - 0xDC00)) :: decode rest
        else replacement :: decode (v :: rest)
    else if isLow u then replacement :: decode rest
    else Char.ofNat u.toNat :: decode rest

/-- Every surrogate is half of a pair. -/
inductive WellFormed : List UInt16 → Prop
  | nil : WellFormed []
  | single {u : UInt16} {s : List UInt16} (high : isHigh u = false) (low : isLow u = false)
      (rest : WellFormed s) : WellFormed (u :: s)
  | pair {u v : UInt16} {s : List UInt16} (high : isHigh u = true) (low : isLow v = true)
      (rest : WellFormed s) : WellFormed (u :: v :: s)

theorem toNat_ofNat16 {n : Nat} (small : n < 0x10000) : (UInt16.ofNat n).toNat = n :=
  UInt16.toNat_ofNat_of_lt' small

theorem char_bounds (c : Char) :
    c.toNat < 0xD800 ∨ 0xE000 ≤ c.toNat ∧ c.toNat < 0x110000 := by
  have valid := c.valid
  rcases valid with low | ⟨above, below⟩
  · exact .inl low
  · exact .inr ⟨above, below⟩

theorem isHigh_ofNat {n : Nat} (small : n < 0x10000) :
    isHigh (UInt16.ofNat n) = decide (0xD800 ≤ n ∧ n < 0xDC00) := by
  rw [isHigh, toNat_ofNat16 small]

theorem isLow_ofNat {n : Nat} (small : n < 0x10000) :
    isLow (UInt16.ofNat n) = decide (0xDC00 ≤ n ∧ n < 0xE000) := by
  rw [isLow, toNat_ofNat16 small]

theorem wellFormed_encode (s : List Char) : WellFormed (encode s) := by
  induction s with
  | nil => exact .nil
  | cons c s ih =>
    have bounds := char_bounds c
    show WellFormed (encodeChar c ++ encode s)
    unfold encodeChar
    split
    next small =>
      refine .single ?_ ?_ ih
      · exact (isHigh_ofNat small).trans (decide_eq_false (by omega))
      · exact (isLow_ofNat small).trans (decide_eq_false (by omega))
    next large =>
      refine .pair ?_ ?_ ih
      · exact (isHigh_ofNat (by omega)).trans (decide_eq_true (by omega))
      · exact (isLow_ofNat (by omega)).trans (decide_eq_true (by omega))

theorem charOfNat_toNat {n : Nat} (valid : n < 0xD800 ∨ 0xDFFF < n ∧ n < 0x110000) :
    (Char.ofNat n).toNat = n := by
  have isValid : Nat.isValidChar n := valid
  unfold Char.ofNat
  rw [dif_pos isValid]
  rfl

/-- A well-formed string is the units of its characters. -/
theorem encode_decode {s : List UInt16} (wellFormed : WellFormed s) : encode (decode s) = s := by
  induction wellFormed with
  | nil => rfl
  | @single u s high low _ ih =>
    have bound := u.toNat_lt
    have outside : ¬ (0xD800 ≤ u.toNat ∧ u.toNat < 0xE000) := by
      simp only [isHigh, isLow, decide_eq_false_iff_not] at high low
      omega
    have char := charOfNat_toNat (n := u.toNat) (by omega)
    unfold decode
    simp only [high, low, Bool.false_eq_true, if_false]
    show encodeChar _ ++ encode (decode s) = _
    rw [ih, encodeChar, char, if_pos (by omega)]
    simp
  | @pair u v s high low _ ih =>
    have highBounds : 0xD800 ≤ u.toNat ∧ u.toNat < 0xDC00 := by simpa [isHigh] using high
    have lowBounds : 0xDC00 ≤ v.toNat ∧ v.toNat < 0xE000 := by simpa [isLow] using low
    have char := charOfNat_toNat
      (n := 0x10000 + (u.toNat - 0xD800) * 0x400 + (v.toNat - 0xDC00)) (by omega)
    unfold decode
    simp only [high, low, if_true]
    show encodeChar _ ++ encode (decode s) = _
    rw [ih, encodeChar, char, if_neg (by omega)]
    have first :
        0xD800 + (0x10000 + (u.toNat - 0xD800) * 0x400 + (v.toNat - 0xDC00) - 0x10000) / 0x400 =
        u.toNat := by omega
    have second : 0xDC00 + (0x10000 + (u.toNat - 0xD800) * 0x400 + (v.toNat - 0xDC00) - 0x10000) %
      0x400 =
        v.toNat := by omega
    rw [first, second]
    simp

/-- A well-formed string may be cut at a unit that is no surrogate. -/
theorem WellFormed.split {s : List UInt16} (wellFormed : WellFormed s) {u : UInt16}
    (high : isHigh u = false) (low : isLow u = false) :
    ∀ front back, s = front ++ u :: back → WellFormed front ∧ WellFormed back := by
  induction wellFormed with
  | nil =>
    intro front back shape
    cases front <;> cases shape
  | single high' low' rest ih =>
    intro front back shape
    cases front with
    | nil =>
      obtain ⟨-, rfl⟩ := List.cons.inj shape
      exact ⟨.nil, rest⟩
    | cons w front =>
      obtain ⟨rfl, tails⟩ := List.cons.inj shape
      obtain ⟨first, second⟩ := ih front back tails
      exact ⟨.single high' low' first, second⟩
  | pair high' low' rest ih =>
    intro front back shape
    cases front with
    | nil =>
      obtain ⟨rfl, -⟩ := List.cons.inj shape
      rw [high] at high'
      cases high'
    | cons w front =>
      obtain ⟨rfl, tails⟩ := List.cons.inj shape
      cases front with
      | nil =>
        obtain ⟨rfl, -⟩ := List.cons.inj tails
        rw [low] at low'
        cases low'
      | cons w front =>
        obtain ⟨rfl, later⟩ := List.cons.inj tails
        obtain ⟨first, second⟩ := ih front back later
        exact ⟨.pair high' low' first, second⟩

/-- A map of units that keeps which of them are surrogates keeps well-formedness. -/
theorem WellFormed.map {s : List UInt16} (wellFormed : WellFormed s) {f : UInt16 → UInt16}
    (high : ∀ u, isHigh (f u) = isHigh u) (low : ∀ u, isLow (f u) = isLow u) :
    WellFormed (s.map f) := by
  induction wellFormed with
  | nil => exact .nil
  | single isNotHigh isNotLow _ ih =>
    exact .single ((high _).trans isNotHigh) ((low _).trans isNotLow) ih
  | pair isHigh isLow _ ih => exact .pair ((high _).trans isHigh) ((low _).trans isLow) ih

/-! ## UTF-8 -/

/-- The UTF-8 bytes of characters. -/
def utf8Chars (s : List Char) : List UInt8 :=
  s.flatMap String.utf8EncodeChar

/-- The UTF-8 bytes of a string of units. -/
def utf8 (s : List UInt16) : List UInt8 :=
  utf8Chars (decode s)

/-- Reads characters off bytes; a byte that starts no sequence gives none.  Each character takes at
least one of the `fuel`. -/
def readUtf8 : Nat → List UInt8 → List (Option Char)
  | 0, _ => []
  | _, [] => []
  | fuel + 1, byte :: rest =>
    match (byte :: rest).toByteArray.utf8DecodeChar? 0 with
    | some c => some c :: readUtf8 fuel ((byte :: rest).drop (String.utf8EncodeChar c).length)
    | none => none :: readUtf8 fuel rest

theorem utf8EncodeChar_ne_nil (c : Char) : String.utf8EncodeChar c ≠ [] := by
  rcases utf8EncodeChar_shape c with ⟨-, ascii⟩ | ⟨-, lead, tail, shape, -⟩
  · simp [ascii]
  · simp [shape]

theorem readUtf8_utf8Chars (s : List Char) :
    ∀ fuel, (utf8Chars s).length ≤ fuel → readUtf8 fuel (utf8Chars s) = s.map some := by
  induction s with
  | nil => intro fuel _; cases fuel <;> rfl
  | cons c s ih =>
    intro fuel enough
    have shape : utf8Chars (c :: s) = String.utf8EncodeChar c ++ utf8Chars s := rfl
    have positive : 0 < (String.utf8EncodeChar c).length :=
      List.length_pos_iff.mpr (utf8EncodeChar_ne_nil c)
    have decoded := ByteArray.utf8DecodeChar?_utf8EncodeChar_append (c := c)
      (b := (utf8Chars s).toByteArray)
    rw [← List.toByteArray_append, ← shape] at decoded
    rw [shape, List.length_append] at enough
    obtain ⟨fuel, rfl⟩ : ∃ n, fuel = n + 1 := ⟨fuel - 1, by omega⟩
    obtain ⟨byte, rest, split⟩ : ∃ byte rest, utf8Chars (c :: s) = byte :: rest := by
      cases bytes : utf8Chars (c :: s) with
      | nil =>
        rw [shape, List.append_eq_nil_iff] at bytes
        exact absurd bytes.1 (utf8EncodeChar_ne_nil c)
      | cons byte rest => exact ⟨byte, rest, rfl⟩
    rw [split] at decoded
    rw [split, readUtf8, decoded]
    simp only [List.map_cons, List.cons.injEq, true_and]
    rw [← split, shape, List.drop_left]
    exact ih fuel (by omega)

/-- The units that UTF-8 bytes stand for, with replacements where they are malformed. -/
def wide (bytes : List UInt8) : List UInt16 :=
  encode ((readUtf8 bytes.length bytes).map fun c => c.getD replacement)

/-- The units of well-formed UTF-8 bytes. -/
def wideStrict (bytes : List UInt8) : Option (List UInt16) :=
  let read := readUtf8 bytes.length bytes
  if read.all Option.isSome then some (encode (read.filterMap id)) else none

theorem wide_utf8Chars (s : List Char) : wide (utf8Chars s) = encode s := by
  unfold wide
  rw [readUtf8_utf8Chars _ _ (Nat.le_refl _), List.map_map]
  have same : (fun c => Option.getD c replacement) ∘ (some : Char → Option Char) = id := rfl
  rw [same, List.map_id]

theorem wide_utf8 {s : List UInt16} (wellFormed : WellFormed s) : wide (utf8 s) = s := by
  rw [utf8, wide_utf8Chars, encode_decode wellFormed]

theorem wellFormed_wideStrict {bytes : List UInt8} {s : List UInt16}
    (read : wideStrict bytes = some s) : WellFormed s := by
  unfold wideStrict at read
  dsimp only at read
  split at read
  next =>
    rw [← Option.some.inj read]
    exact wellFormed_encode _
  next => cases read

/-- A small character of the text is a unit of the string. -/
theorem mem_of_mem_decode {c : Char} (small : c.toNat < 0x80) {s : List UInt16}
    (member : c ∈ decode s) :
    UInt16.ofNat c.toNat ∈ s := by
  have replaced : c ≠ replacement := by
    have big : replacement.toNat = 0xFFFD := by decide
    rintro rfl
    omega
  fun_induction decode s with
  | case1 => cases member
  | case2 => exact absurd (List.mem_singleton.mp member) replaced
  | case3 u high v rest low ih =>
    have highBounds : 0xD800 ≤ u.toNat ∧ u.toNat < 0xDC00 := by simpa [isHigh] using high
    have lowBounds : 0xDC00 ≤ v.toNat ∧ v.toNat < 0xE000 := by simpa [isLow] using low
    rcases List.mem_cons.mp member with same | later
    · rw [same, charOfNat_toNat (by omega)] at small
      omega
    · exact List.mem_cons_of_mem _ (List.mem_cons_of_mem _ (ih later))
  | case4 u high v rest low ih =>
    exact List.mem_cons_of_mem _ (ih ((List.mem_cons.mp member).resolve_left replaced))
  | case5 u rest high low ih =>
    exact List.mem_cons_of_mem _ (ih ((List.mem_cons.mp member).resolve_left replaced))
  | case6 u rest high low ih =>
    have bound := u.toNat_lt
    have outside : ¬ (0xD800 ≤ u.toNat ∧ u.toNat < 0xE000) := by
      simp only [isHigh, isLow, decide_eq_true_eq] at high low
      omega
    rcases List.mem_cons.mp member with same | later
    · rw [same, charOfNat_toNat (by omega), UInt16.ofNat_toNat]
      exact List.mem_cons_self
    · exact List.mem_cons_of_mem _ (ih later)

/-- An ASCII byte of the spelling is a unit of the string. -/
theorem mem_of_mem_utf8 {byte : UInt8} (ascii : byte.toNat < 0x80) {s : List UInt16}
    (member : byte ∈ utf8 s) :
    byte.toUInt16 ∈ s := by
  obtain ⟨c, inText, inside⟩ := List.mem_flatMap.mp member
  have same := (utf8EncodeChar_of_ascii_mem ascii inside).1
  have unit := mem_of_mem_decode (same ▸ ascii) inText
  rwa [same, ← UInt8.toNat_toUInt16, UInt16.ofNat_toNat] at unit

theorem utf8_ne_nil {s : List UInt16} (nonempty : s ≠ []) : utf8 s ≠ [] := by
  have decoded : decode s ≠ [] := by
    cases s with
    | nil => exact absurd rfl nonempty
    | cons u rest =>
      unfold decode
      split
      · split
        · simp
        · split <;> simp
      · split <;> simp
  cases chars : decode s with
  | nil => exact absurd chars decoded
  | cons c rest =>
    unfold utf8
    rw [chars]
    simp [utf8Chars]

/-! ## Texts as characters -/

/-- Bytes that read without a gap spell what was read. -/
theorem utf8Chars_of_readUtf8 :
    ∀ (fuel : Nat) (bytes : List UInt8), bytes.length ≤ fuel →
    (readUtf8 fuel bytes).all Option.isSome = true →
      utf8Chars ((readUtf8 fuel bytes).filterMap id) = bytes := by
  intro fuel
  induction fuel with
  | zero =>
    intro bytes enough _
    rw [List.length_eq_zero_iff.mp (Nat.le_zero.mp enough)]
    rfl
  | succ fuel ih =>
    intro bytes enough complete
    cases bytes with
    | nil => rfl
    | cons byte rest =>
      rw [readUtf8] at complete ⊢
      cases decoded : (byte :: rest).toByteArray.utf8DecodeChar? 0 with
      | none =>
        rw [decoded] at complete
        cases complete
      | some c =>
        rw [decoded] at complete
        have spelled := String.toByteArray_utf8EncodeChar_of_utf8DecodeChar?_eq_some decoded
        have initial : String.utf8EncodeChar c =
            (byte :: rest).take (String.utf8EncodeChar c).length := by
          have listed := congrArg (fun bytes => bytes.data.toList) spelled
          simp only [List.data_toByteArray, ByteArray.data_extract, Array.toList_extract,
            List.extract_eq_take_drop,
            Nat.sub_zero, List.drop_zero, String.length_utf8EncodeChar] at listed ⊢
          exact listed
        have positive : 0 < (String.utf8EncodeChar c).length :=
          List.length_pos_iff.mpr (utf8EncodeChar_ne_nil c)
        have shorter : ((byte :: rest).drop (String.utf8EncodeChar c).length).length ≤ fuel := by
          rw [List.length_drop]
          omega
        show String.utf8EncodeChar c ++ utf8Chars (List.filterMap id _) = _
        rw [ih _ shorter complete]
        conv_lhs => lhs; rw [initial]
        exact List.take_append_drop _ _

/-- **What strict reading accepts**: the spelling of characters. -/
theorem wideStrict_eq_some {bytes : List UInt8} {s : List UInt16} :
    wideStrict bytes = some s ↔ ∃ chars, bytes = utf8Chars chars ∧ s = encode chars := by
  unfold wideStrict
  dsimp only
  constructor
  · intro read
    split at read
    next complete =>
      exact ⟨_, (utf8Chars_of_readUtf8 _ _ (Nat.le_refl _) complete).symm,
        (Option.some.inj read).symm⟩
    next => cases read
  · rintro ⟨chars, rfl, rfl⟩
    rw [readUtf8_utf8Chars _ _ (Nat.le_refl _), if_pos (by simp)]
    simp

/-- A text cut at a separator, where each character is spelled on its own and only the separator's
own spelling holds it. -/
theorem splitOn_flatMap {A B : Type} [DecidableEq A] [DecidableEq B] {f : A → List B} {a : A}
    {b : B} (own : f a = [b]) (other : ∀ x, x ≠ a → b ∉ f x) (s : List A) :
    (s.flatMap f).splitOn b = (s.splitOn a).map fun part => part.flatMap f := by
  have free (part : List A) (fresh : a ∉ part) : b ∉ part.flatMap f := by
    intro member
    obtain ⟨x, inPart, inside⟩ := List.mem_flatMap.mp member
    exact other x (fun same => fresh (same ▸ inPart)) inside
  induction s using Words.lines_induction a with
  | last line fresh =>
    rw [List.splitOn_eq_singleton fresh, List.splitOn_eq_singleton (free line fresh)]
    rfl
  | step line rest fresh ih =>
    rw [List.splitOn_append_cons_self_of_not_mem fresh, List.map_cons, List.flatMap_append,
      List.flatMap_cons, own,
      List.singleton_append, List.splitOn_append_cons_self_of_not_mem (free line fresh), ih]

/-- A front whose characters are spelled on their own is found by its spelling. -/
theorem prefix_flatMap {A B : Type} {f : A → List B} (nonempty : ∀ x, f x ≠ []) :
    ∀ (front s : List A), (∀ a ∈ front, ∃ b, f a = [b] ∧ ∀ x, x ≠ a → b ∉ f x) →
      (front.flatMap f <+: s.flatMap f ↔ front <+: s) := by
  intro front
  induction front with
  | nil =>
    intro s _
    simp
  | cons a front ih =>
    intro s alone
    obtain ⟨b, own, other⟩ := alone a List.mem_cons_self
    have later := fun x (member : x ∈ front) => alone x (List.mem_cons_of_mem _ member)
    rw [List.flatMap_cons, own, List.singleton_append]
    cases s with
    | nil => simp
    | cons x s =>
      rw [List.flatMap_cons, List.cons_prefix_cons]
      by_cases same : x = a
      · subst same
        rw [own, List.singleton_append, List.cons_prefix_cons, ih s later]
        exact and_congr_left fun _ => iff_of_true rfl rfl
      · constructor
        · intro found
          obtain ⟨y, ys, shape⟩ := List.exists_cons_of_ne_nil (nonempty x)
          rw [shape, List.cons_append, List.cons_prefix_cons] at found
          refine absurd ?_ (other x same)
          rw [shape, found.1]
          exact List.mem_cons_self
        · rintro ⟨rfl, -⟩
          exact absurd rfl same

/-- A text ends in a character that is spelled on its own when its spelling does. -/
theorem getLast_flatMap {A B : Type} {f : A → List B} {a : A} {b : B} (own : f a = [b])
    (other : ∀ x, x ≠ a → b ∉ f x) (nonempty : ∀ x, f x ≠ []) (s : List A) :
    (s.flatMap f).getLast? = some b ↔ s.getLast? = some a := by
  cases s using List.reverseRecOn with
  | nil => simp
  | append_singleton front x =>
    have last : ((front ++ [x]).flatMap f).getLast? = (f x).getLast? := by
      rw [List.flatMap_append, List.flatMap_singleton,
        List.getLast?_append_of_ne_nil _ (nonempty x)]
    rw [last, List.getLast?_concat, Option.some.injEq]
    constructor
    · intro ends
      by_contra different
      exact other x different (List.mem_of_getLast? ends)
    · rintro rfl
      rw [own]
      rfl

/-- An ASCII character is spelled by its own byte, and no other character holds that byte. -/
theorem utf8_ascii {c : Char} (ascii : c.toNat < 0x80) :
    String.utf8EncodeChar c = [UInt8.ofNat c.toNat] := by
  rcases utf8EncodeChar_shape c with ⟨-, shape⟩ | ⟨big, -⟩
  · exact shape
  · omega

theorem utf8_other {c d : Char} (ascii : c.toNat < 0x80) (different : d ≠ c) :
    UInt8.ofNat c.toNat ∉ String.utf8EncodeChar d := by
  intro member
  have value : (UInt8.ofNat c.toNat).toNat = c.toNat := toNat_ofNat (by omega)
  exact different (Char.toNat_inj.mp
    ((utf8EncodeChar_of_ascii_mem (by omega) member).1.trans value))

theorem encode_ascii {c : Char} (ascii : c.toNat < 0x80) : encodeChar c = [UInt16.ofNat c.toNat] :=
  if_pos (by omega)

theorem encode_other {c d : Char} (ascii : c.toNat < 0x80) (different : d ≠ c) :
    UInt16.ofNat c.toNat ∉ encodeChar d := by
  intro member
  have bounds := char_bounds d
  have value : (UInt16.ofNat c.toNat).toNat = c.toNat := toNat_ofNat16 (by omega)
  unfold encodeChar at member
  split at member
  · have same := congrArg UInt16.toNat (List.mem_singleton.mp member)
    rw [value, toNat_ofNat16 (by omega)] at same
    exact different (Char.toNat_inj.mp same.symm)
  · simp only [List.mem_cons, List.not_mem_nil, or_false] at member
    rcases member with same | same
    · have values := congrArg UInt16.toNat same
      rw [value, toNat_ofNat16 (by omega)] at values
      omega
    · have values := congrArg UInt16.toNat same
      rw [value, toNat_ofNat16 (by omega)] at values
      omega

/-- Both spellings of a text are cut alike at an ASCII character. -/
theorem splitOn_utf8Chars {c : Char} (ascii : c.toNat < 0x80) (s : List Char) :
    (utf8Chars s).splitOn (UInt8.ofNat c.toNat) = (s.splitOn c).map utf8Chars :=
  splitOn_flatMap (utf8_ascii ascii) (fun _ => utf8_other ascii) s

theorem splitOn_encode {c : Char} (ascii : c.toNat < 0x80) (s : List Char) :
    (encode s).splitOn (UInt16.ofNat c.toNat) = (s.splitOn c).map encode :=
  splitOn_flatMap (encode_ascii ascii) (fun _ => encode_other ascii) s

theorem utf8Chars_eq_nil {s : List Char} : utf8Chars s = [] ↔ s = [] := by
  cases s with
  | nil => simp [utf8Chars]
  | cons c s => simp [utf8Chars]

theorem encodeChar_ne_nil (c : Char) : encodeChar c ≠ [] := by
  unfold encodeChar
  split <;> exact List.cons_ne_nil _ _

theorem encode_eq_nil {s : List Char} : encode s = [] ↔ s = [] := by
  cases s with
  | nil => simp [encode]
  | cons c s => simp [encode, encodeChar_ne_nil]

theorem prefix_encode {front : List Char} (ascii : ∀ c ∈ front, c.toNat < 0x80) (s : List Char) :
    encode front <+: encode s ↔ front <+: s :=
  prefix_flatMap encodeChar_ne_nil front s fun c member =>
    ⟨_, encode_ascii (ascii c member), fun _ => encode_other (ascii c member)⟩

/-- Both spellings end in an ASCII character together with the text. -/
theorem getLast_utf8Chars {c : Char} (ascii : c.toNat < 0x80) (s : List Char) :
    (utf8Chars s).getLast? = some (UInt8.ofNat c.toNat) ↔ s.getLast? = some c :=
  getLast_flatMap (utf8_ascii ascii) (fun _ => utf8_other ascii) utf8EncodeChar_ne_nil s

theorem getLast_encode {c : Char} (ascii : c.toNat < 0x80) (s : List Char) :
    (encode s).getLast? = some (UInt16.ofNat c.toNat) ↔ s.getLast? = some c :=
  getLast_flatMap (encode_ascii ascii) (fun _ => encode_other ascii) encodeChar_ne_nil s

end ProgramSplit.Lib.Utf16
