/-
# Windows.IdentityAgreement — the identity record means the same to its writer and both readers

`serializeIdentities` writes the record as bytes; `wfp-probe.exe` reads the bytes back, and the
dispatcher reads their characters.  Both readers cut the text at the same characters, so they are
compared on the characters that a record spells.

* `recorded` — what a record keeps of identities: the entries with identifiers, by their groups.
* `reads_back` — **what was written is read back, groups and identifiers in their order.**
* `parseRow_agrees` — a row the dispatcher accepts is a row of the other reader, with the same path.
* `record_means_the_same` — the three parts together.
* `empty_identifier_lost` — an identifier without bytes makes the whole record unreadable.
-/
import Mathlib.Data.Bool.AllAny
import ProgramSplit.Windows.IdentityText
import ProgramSplit.Windows.DispatcherLoad

namespace ProgramSplit.Windows.Wfp

set_option autoImplicit false

open Lib.Digits
open Lib.Utf16

/-! ## What is read back -/

/-- What the record keeps of an identity; the source is not recorded. -/
def ResolvedIdentity.recorded (identity : ResolvedIdentity) : ResolvedIdentity :=
  { identity with source := .retained }

/-- The entries that have identifiers. -/
def recorded (identities : Identities) : Identities :=
  (identities.filter fun pair => pair.2.ids ≠ []).map fun pair => (pair.1, pair.2.recorded)

def rowsOf (pair : WString × ResolvedIdentity) : List Row :=
  pair.2.groups.map fun group => ⟨pair.1, group.path, group.ids⟩

/-- Nonempty valid Unicode without control characters. -/
structure Written (text : WString) : Prop where
  nonempty : text ≠ []
  wellFormed : WellFormed text
  noControl : ∀ u ∈ text, 32 ≤ u

/-- A `std::map` whose entries and paths can be written, with identifiers in every group of an entry
that has any. -/
structure Writable (identities : Identities) : Prop where
  sorted : identities.Pairwise fun first second => first.1 < second.1
  entry : ∀ pair ∈ identities, pair.2.ids ≠ [] → Written pair.1
  path : ∀ pair ∈ identities, pair.2.ids ≠ [] → ∀ group ∈ pair.2.groups, Written group.path
  ids : ∀ pair ∈ identities, pair.2.ids ≠ [] → ∀ group ∈ pair.2.groups, group.ids ≠ [] ∧
    ∀ id ∈ group.ids, id ≠ []

theorem Written.plain {text : WString} (written : Written text) : Plain text :=
  ⟨fun member => absurd (written.noControl 9 member) (by decide),
    fun member => absurd (written.noControl 10 member) (by decide)⟩

theorem Written.wide {text : WString} (written : Written text) : wide (utf8 text) = text :=
  wide_utf8 written.wellFormed

/-- A row whose texts are written. -/
structure Row.Written (row : Row) : Prop where
  entry : Wfp.Written row.entry
  path : Wfp.Written row.path
  ids : row.ids ≠ []
  idNonempty : ∀ id ∈ row.ids, id ≠ []

theorem Row.Written.writable {row : Row} (written : row.Written) : row.Writable :=
  ⟨written.entry.nonempty, written.entry.plain, written.path.nonempty, written.path.plain, written.ids,
    written.idNonempty⟩

theorem serialize_eq (identities : Identities) :
    serializeIdentities identities = kIdentityHeader ++
      ((((identities.filter fun pair => pair.2.ids ≠ []).flatMap rowsOf).map Row.line).flatMap
        fun line => line ++ [10]) := by
  unfold serializeIdentities
  congr 1
  induction identities with
  | nil => rfl
  | cons pair rest ih =>
    obtain ⟨entry, identity⟩ := pair
    rw [List.flatMap_cons, ih]
    by_cases none : identity.ids = []
    · simp [none]
    · have here : identity.groups.flatMap (recordLine entry) =
          ((rowsOf (entry, identity)).map Row.line).flatMap fun line => line ++ [10] := by
        rw [rowsOf, List.map_map, List.flatMap_map]
        refine List.flatMap_congr fun group _ => ?_
        simp [recordLine, Row.line]
      simp only [none, if_false]
      rw [here, List.filter_cons_of_pos (by simpa using none), List.flatMap_cons, List.map_append,
        List.flatMap_append]

theorem Writable.rows {identities : Identities} (writable : Writable identities) :
    ∀ row ∈ (identities.filter fun pair => pair.2.ids ≠ []).flatMap rowsOf, row.Written := by
  intro row member
  obtain ⟨pair, inFiltered, inRows⟩ := List.mem_flatMap.mp member
  obtain ⟨inIdentities, some⟩ := List.mem_filter.mp inFiltered
  have some : pair.2.ids ≠ [] := of_decide_eq_true some
  obtain ⟨group, inGroups, rfl⟩ := List.mem_map.mp inRows
  obtain ⟨ids, idNonempty⟩ := writable.ids pair inIdentities some group inGroups
  exact ⟨writable.entry pair inIdentities some, writable.path pair inIdentities some group inGroups,
    ids, idNonempty⟩

theorem addRow_skip {row : Row} {entry : WString} (before : entry < row.entry) (identity : ResolvedIdentity)
    (rest : Identities) : addRow row ((entry, identity) :: rest) = (entry, identity) :: addRow row rest := by
  have different : row.entry ≠ entry := fun same => List.lt_irrefl entry (same ▸ before)
  have notAfter : ¬ row.entry < entry := fun after => List.lt_irrefl entry (List.lt_trans before after)
  rw [addRow, if_neg different, if_neg notAfter]

/-- The rows of further groups join the entry, which stands last. -/
theorem foldl_groups (entry : WString) (groups : List AttributionGroup) :
    ∀ (acc : Identities) (identity : ResolvedIdentity), (∀ pair ∈ acc, pair.1 < entry) →
      (groups.map fun group => (⟨entry, group.path, group.ids⟩ : Row)).foldl (fun all row => addRow row all)
          (acc ++ [(entry, identity)]) =
        acc ++ [(entry, { identity with others := identity.others ++ groups })] := by
  have joined (group : AttributionGroup) : ∀ (acc : Identities) (identity : ResolvedIdentity),
      (∀ pair ∈ acc, pair.1 < entry) → addRow ⟨entry, group.path, group.ids⟩ (acc ++ [(entry, identity)]) =
        acc ++ [(entry, { identity with others := identity.others ++ [group] })] := by
    intro acc identity
    induction acc with
    | nil =>
      intro _
      simp [addRow]
    | cons pair acc ih =>
      intro before
      have first := before pair List.mem_cons_self
      rw [List.cons_append, addRow_skip first,
        ih fun pair member => before pair (List.mem_cons_of_mem _ member)]
      rfl
  induction groups with
  | nil =>
    intro acc identity _
    simp
  | cons group groups ih =>
    intro acc identity before
    rw [List.map_cons, List.foldl_cons, joined group acc identity before, ih acc _ before]
    simp

theorem addRow_last (row : Row) : ∀ acc : Identities, (∀ pair ∈ acc, pair.1 < row.entry) →
    addRow row acc = acc ++ [(row.entry, ⟨.retained, row.path, row.ids, []⟩)] := by
  intro acc
  induction acc with
  | nil =>
    intro _
    rfl
  | cons pair acc ih =>
    intro before
    have first := before pair List.mem_cons_self
    rw [addRow_skip first,
      ih fun pair member => before pair (List.mem_cons_of_mem _ member)]
    rfl

/-- The rows of sorted entries build them one behind the other. -/
theorem foldl_rows : ∀ (identities acc : Identities), identities.Pairwise (fun first second =>
    first.1 < second.1) → (∀ pair ∈ acc, ∀ later ∈ identities, pair.1 < later.1) →
      (identities.flatMap rowsOf).foldl (fun all row => addRow row all) acc =
        acc ++ identities.map fun pair => (pair.1, pair.2.recorded) := by
  intro identities
  induction identities with
  | nil =>
    intro acc _ _
    simp
  | cons pair rest ih =>
    intro acc sorted before
    obtain ⟨entry, identity⟩ := pair
    have fresh : ∀ pair ∈ acc, pair.1 < entry := fun pair member => before pair member _ List.mem_cons_self
    rw [List.pairwise_cons] at sorted
    rw [List.flatMap_cons, List.foldl_append, rowsOf, ResolvedIdentity.groups, List.map_cons, List.foldl_cons,
      addRow_last _ acc fresh, foldl_groups entry identity.others acc _ fresh, ih _ sorted.2 ?_]
    · simp [ResolvedIdentity.recorded]
    · intro pair member later inRest
      rcases List.mem_append.mp member with inAcc | isLast
      · exact before pair inAcc later (List.mem_cons_of_mem _ inRest)
      · rw [List.mem_singleton.mp isLast]
        exact sorted.1 later inRest

/-- **What was written is read back.** -/
theorem reads_back {identities : Identities} (writable : Writable identities) :
    parseIdentities (serializeIdentities identities) = recorded identities := by
  have rows := writable.rows
  rw [serialize_eq, parseIdentities_rows fun row member => (rows row member).writable]
  have same : ((identities.filter fun pair => pair.2.ids ≠ []).flatMap rowsOf).map (fun row =>
      (⟨wide (utf8 row.entry), wide (utf8 row.path), row.ids⟩ : Row)) =
        (identities.filter fun pair => pair.2.ids ≠ []).flatMap rowsOf := by
    conv_rhs => rw [← List.map_id ((identities.filter fun pair => pair.2.ids ≠ []).flatMap rowsOf)]
    refine List.map_congr_left fun row member => ?_
    rw [(rows row member).entry.wide, (rows row member).path.wide]
    rfl
  rw [same, foldl_rows _ [] (writable.sorted.filter _) nofun]
  rfl

/-! ## One row, read by both -/

/-- The units of the ASCII hexadecimal digits, which are those that the C library accepts. -/
def isHexUnit (u : UInt16) : Bool :=
  48 ≤ u ∧ u ≤ 57 ∨ 97 ≤ u ∧ u ≤ 102 ∨ 65 ≤ u ∧ u ≤ 70

/-- A character whose units are all hexadecimal digits is one, and its byte has a value. -/
theorem hexDigit_of_units {c : Char} (digits : (encodeChar c).all isHexUnit = true) :
    c.toNat < 0x80 ∧ (hexDigit (UInt8.ofNat c.toNat)).isSome = true := by
  have bounds := char_bounds c
  unfold encodeChar at digits
  split at digits
  next small =>
    simp only [List.all_cons, List.all_nil, Bool.and_true, isHexUnit, decide_eq_true_eq,
      UInt16.le_iff_toNat_le, toNat_ofNat16 small] at digits
    have range : 48 ≤ c.toNat ∧ c.toNat ≤ 57 ∨ 97 ≤ c.toNat ∧ c.toNat ≤ 102 ∨ 65 ≤ c.toNat ∧
      c.toNat ≤ 70 := digits
    have table : ∀ n < 128, (48 ≤ n ∧ n ≤ 57 ∨ 97 ≤ n ∧ n ≤ 102 ∨ 65 ≤ n ∧ n ≤ 70) →
        (hexDigit (UInt8.ofNat n)).isSome = true := by
      decide
    exact ⟨by omega, table c.toNat (by omega) range⟩
  next big =>
    simp only [List.all_cons, List.all_nil, Bool.and_true, Bool.and_eq_true, isHexUnit, decide_eq_true_eq,
      UInt16.le_iff_toNat_le] at digits
    have high : 0xD800 ≤ (UInt16.ofNat (0xD800 + (c.toNat - 0x10000) / 0x400)).toNat := by
      rw [toNat_ofNat16 (by omega)]
      omega
    have first : (UInt16.ofNat (0xD800 + (c.toNat - 0x10000) / 0x400)).toNat ≤ 102 := by
      rcases digits.1 with ⟨-, le⟩ | ⟨-, le⟩ | ⟨-, le⟩
      · exact le.trans (by decide)
      · exact le.trans (by decide)
      · exact le.trans (by decide)
    omega

theorem parseHex_isSome : ∀ (n : Nat) (text : Bytes), text.length ≤ n → text.length % 2 = 0 →
    (∀ c ∈ text, (hexDigit c).isSome = true) → ∃ bytes, parseHex text = some bytes := by
  intro n
  induction n with
  | zero =>
    intro text bound _ _
    rw [List.length_eq_zero_iff.mp (Nat.le_zero.mp bound)]
    exact ⟨[], rfl⟩
  | succ n ih =>
    intro text bound even digits
    match text, bound, even, digits with
    | [], _, _, _ => exact ⟨[], rfl⟩
    | [_], _, odd, _ => cases odd
    | high :: low :: rest, bound, even, digits =>
      simp only [List.length_cons] at bound even
      obtain ⟨bytes, parsed⟩ := ih rest (by omega) (by omega) fun c member =>
        digits c (List.mem_cons_of_mem _ (List.mem_cons_of_mem _ member))
      obtain ⟨h, highDigit⟩ := Option.isSome_iff_exists.mp (digits high List.mem_cons_self)
      obtain ⟨l, lowDigit⟩ := Option.isSome_iff_exists.mp
        (digits low (List.mem_cons_of_mem _ List.mem_cons_self))
      exact ⟨_, by rw [parseHex, highDigit, lowDigit, parsed]⟩

/-- An ASCII text is spelled character by character in both ways. -/
theorem utf8Chars_ascii {text : List Char} (small : ∀ c ∈ text, c.toNat < 0x80) :
    utf8Chars text = ascii text := by
  induction text with
  | nil => rfl
  | cons c text ih =>
    show String.utf8EncodeChar c ++ utf8Chars text = _
    rw [utf8_ascii (small c List.mem_cons_self), ih fun c member => small c (List.mem_cons_of_mem _ member)]
    rfl

theorem encode_length_ascii {text : List Char} (small : ∀ c ∈ text, c.toNat < 0x80) :
    encode text = text.map fun c => UInt16.ofNat c.toNat := by
  induction text with
  | nil => rfl
  | cons c text ih =>
    show encodeChar c ++ encode text = _
    rw [encode_ascii (small c List.mem_cons_self), ih fun c member => small c (List.mem_cons_of_mem _ member)]
    rfl

section Agreement

variable {host : DispatcherLoad.Host} (digits : ∀ u, host.iswxdigit u = isHexUnit u)

include digits

/-- An identifier that the dispatcher accepts has bytes. -/
theorem parseId_of_wellFormedId {part : List Char}
    (accepted : DispatcherLoad.wellFormedId host (encode part) = true) :
    ∃ id, parseId (utf8Chars part) = some id := by
  have facts : encode part ≠ [] ∧ (encode part).length % 2 = 0 ∧ (encode part).all host.iswxdigit = true := by
    simpa [DispatcherLoad.wellFormedId] using accepted
  obtain ⟨nonempty, even, all⟩ := facts
  have hex : ∀ c ∈ part, c.toNat < 0x80 ∧ (hexDigit (UInt8.ofNat c.toNat)).isSome = true := by
    intro c member
    refine hexDigit_of_units (List.all_eq_true.mpr fun u inside => ?_)
    rw [← digits]
    exact List.all_eq_true.mp all u (List.mem_flatMap.mpr ⟨c, member, inside⟩)
  have small := fun c member => (hex c member).1
  rw [encode_length_ascii small, List.length_map] at even
  rw [utf8Chars_ascii small, parseId, if_neg (by simpa [ascii, encode_eq_nil] using nonempty)]
  refine parseHex_isSome _ (ascii part) (Nat.le_refl _) (by rwa [ascii, List.length_map]) fun c member => ?_
  obtain ⟨d, inPart, rfl⟩ := List.mem_map.mp member
  exact (hex d inPart).2

/-- **A row that the dispatcher accepts is a row of the other reader, with the same path.** -/
theorem parseRow_agrees {line : List Char} {path : WString}
    (accepted : DispatcherLoad.parseRow host (encode line) = .ok path) :
    ∃ row, parseRow (utf8Chars line) = some row ∧ lower row.path = path := by
  have tab : ('\t' : Char).toNat < 0x80 := by decide
  have comma : (',' : Char).toNat < 0x80 := by decide
  have unitPieces : (encode line).splitOn 9 = (line.splitOn '\t').map encode := splitOn_encode tab line
  have bytePieces : (utf8Chars line).splitOn 9 = (line.splitOn '\t').map utf8Chars :=
    splitOn_utf8Chars tab line
  rw [DispatcherLoad.parseRow, unitPieces] at accepted
  rw [parseRow, bytePieces]
  rcases pieces : line.splitOn '\t' with _ | ⟨entry, _ | ⟨pathChars, _ | ⟨ids, _ | ⟨more, others⟩⟩⟩⟩
  case cons.cons.cons.nil =>
    rw [pieces] at accepted
    simp only [List.map_cons, List.map_nil] at accepted ⊢
    split at accepted
    next => cases accepted
    next shaped =>
      split at accepted
      next all =>
        rw [not_or, not_or, encode_eq_nil, encode_eq_nil] at shaped
        have idPieces : (encode ids).splitOn 44 = (ids.splitOn ',').map encode := splitOn_encode comma ids
        have idBytes : (utf8Chars ids).splitOn 44 = (ids.splitOn ',').map utf8Chars :=
          splitOn_utf8Chars comma ids
        rw [idPieces, List.all_map, List.all_eq_true] at all
        obtain ⟨parsed, reads⟩ : ∃ parsed, ((ids.splitOn ',').map utf8Chars).mapM parseId = some parsed := by
          generalize ids.splitOn ',' = parts at all
          induction parts with
          | nil => exact ⟨[], rfl⟩
          | cons part parts ih =>
            obtain ⟨id, first⟩ := parseId_of_wellFormedId digits (all part List.mem_cons_self)
            obtain ⟨others, rest⟩ := ih fun part member => all part (List.mem_cons_of_mem _ member)
            exact ⟨id :: others, by rw [List.map_cons, List.mapM_cons, first, rest]; rfl⟩
        rw [if_neg (by rw [utf8Chars_eq_nil, utf8Chars_eq_nil]; exact not_or.mpr ⟨shaped.1, shaped.2.1⟩), idBytes,
          reads, Option.map_some]
        refine ⟨_, rfl, ?_⟩
        rw [wide_utf8Chars pathChars]
        exact Except.ok.inj accepted
      next => cases accepted
  all_goals
    rw [pieces] at accepted
    cases accepted

theorem parseRows_agree {lines : List (List Char)} :
    ∀ {paths : List WString}, (lines.map encode).mapM (DispatcherLoad.parseRow host) = .ok paths →
      ∃ rows, (lines.map utf8Chars).mapM parseRow = some rows ∧
      rows.map (fun row => lower row.path) = paths := by
  induction lines with
  | nil =>
    intro paths read
    obtain rfl : [] = paths := Except.ok.inj read
    exact ⟨[], rfl, rfl⟩
  | cons line lines ih =>
    intro paths read
    rw [List.map_cons, List.mapM_cons] at read
    cases first : DispatcherLoad.parseRow host (encode line) with
    | error _ =>
      rw [first] at read
      cases read
    | ok path =>
      cases later : (lines.map encode).mapM (DispatcherLoad.parseRow host) with
      | error _ =>
        rw [first, later] at read
        cases read
      | ok others =>
        rw [first, later] at read
        obtain rfl : path :: others = paths := Except.ok.inj read
        obtain ⟨row, rowRead, same⟩ := parseRow_agrees digits first
        obtain ⟨rows, rowsRead, rest⟩ := ih later
        refine ⟨row :: rows, ?_, by rw [List.map_cons, same, rest]⟩
        rw [List.map_cons, List.mapM_cons, rowRead, rowsRead]
        rfl

end Agreement

/-! ## The whole record, read by both -/

def headerChars : List Char :=
  chars "# wgps-identities 1\n"

theorem headerChars_ascii : ∀ c ∈ headerChars, c.toNat < 0x80 :=
  List.all_iff_forall_prop.mp (by decide)

theorem kIdentityHeader_chars : kIdentityHeader = utf8Chars headerChars :=
  (utf8Chars_ascii headerChars_ascii).symm

theorem identityHeader_chars : DispatcherLoad.identityHeader = encode headerChars :=
  rfl

/-- The record is not rejected: it has the header, ends in a line feed and every row is one. -/
def Accepted (text : Bytes) : Prop :=
  kIdentityHeader <+: text ∧ text.getLast? = some 10 ∧
    ∃ rows, ((text.drop kIdentityHeader.length).splitOn 10).dropLast.mapM parseRow = some rows

/-- The lowercased paths of all groups. -/
def lowerPaths (identities : Identities) (path : WString) : Prop :=
  ∃ pair ∈ identities, ∃ group ∈ pair.2.groups, lower group.path = path

theorem lowerPaths_addRow (row : Row) (path : WString) : ∀ identities : Identities,
    lowerPaths (addRow row identities) path ↔ lower row.path = path ∨ lowerPaths identities path := by
  intro identities
  induction identities with
  | nil => simp [lowerPaths, addRow, ResolvedIdentity.groups]
  | cons pair rest ih =>
    unfold lowerPaths at ih ⊢
    unfold addRow
    split
    · simp only [ResolvedIdentity.groups, List.mem_cons, List.mem_append, List.not_mem_nil,
        or_false, or_and_right, exists_or, exists_eq_left]
      constructor
      · rintro ((own | others | new) | later)
        · exact .inr (.inl (.inl own))
        · exact .inr (.inl (.inr others))
        · exact .inl new
        · exact .inr (.inr later)
      · rintro (new | (own | others) | later)
        · exact .inl (.inr (.inr new))
        · exact .inl (.inl own)
        · exact .inl (.inr (.inl others))
        · exact .inr later
    · split
      · simp [ResolvedIdentity.groups]
      · rw [List.exists_mem_cons_iff, ih, List.exists_mem_cons_iff]
        exact or_left_comm

theorem lowerPaths_foldl (path : WString) : ∀ (rows : List Row) (identities : Identities),
    lowerPaths (rows.foldl (fun all row => addRow row all) identities) path ↔
      path ∈ rows.map (fun row => lower row.path) ∨ lowerPaths identities path := by
  intro rows
  induction rows with
  | nil =>
    intro identities
    simp
  | cons row rows ih =>
    intro identities
    rw [List.foldl_cons, ih, lowerPaths_addRow, List.map_cons, List.mem_cons]
    constructor
    · rintro (later | here | before)
      · exact .inl (.inr later)
      · exact .inl (.inl here.symm)
      · exact .inr before
    · rintro ((here | later) | before)
      · exact .inr (.inl here.symm)
      · exact .inl later
      · exact .inr (.inr before)

/-- The dispatcher's reading, by the characters behind the header. -/
theorem dispatcher_chars (host : DispatcherLoad.Host) {rest : List Char}
    (ends : (headerChars ++ rest).getLast? = some '\n') :
    DispatcherLoad.parseIdentities host (utf8Chars (headerChars ++ rest)) =
      (((rest.splitOn '\n').dropLast.map encode).mapM (DispatcherLoad.parseRow host)).map List.dedup := by
  have feed : ('\n' : Char).toNat < 0x80 := by decide
  have strict : wideStrict (utf8Chars (headerChars ++ rest)) = some (encode (headerChars ++ rest)) :=
    wideStrict_eq_some.mpr ⟨_, rfl, rfl⟩
  have headed : DispatcherLoad.identityHeader.isPrefixOf (encode (headerChars ++ rest)) = true := by
    rw [identityHeader_chars, List.isPrefixOf_iff_prefix, prefix_encode headerChars_ascii]
    exact List.prefix_append _ _
  have ends : (encode (headerChars ++ rest)).getLast? = some 10 := (getLast_encode feed _).mpr ends
  have behind : (encode (headerChars ++ rest)).drop DispatcherLoad.identityHeader.length = encode rest := by
    exact List.drop_left
  have lines : (encode rest).splitOn 10 = (rest.splitOn '\n').map encode := splitOn_encode feed rest
  unfold DispatcherLoad.parseIdentities DispatcherLoad.wideText
  rw [strict]
  dsimp only [bind, Except.bind]
  rw [headed, ends, behind, lines, ← List.map_dropLast]
  rfl

/-- **What the dispatcher accepts, the other reader accepts**, and both see the same paths. -/
theorem agrees {host : DispatcherLoad.Host} (digits : ∀ u, host.iswxdigit u = isHexUnit u) {bytes : Bytes}
    {included : List WString} (read : DispatcherLoad.parseIdentities host bytes = .ok included) :
    Accepted bytes ∧ ∀ path, path ∈ included ↔ lowerPaths (parseIdentities bytes) path := by
  have feed : ('\n' : Char).toNat < 0x80 := by decide
  obtain ⟨rest, ends, rfl⟩ : ∃ rest, (headerChars ++ rest).getLast? = some '\n' ∧
      utf8Chars (headerChars ++ rest) = bytes := by
    unfold DispatcherLoad.parseIdentities DispatcherLoad.wideText at read
    cases strict : wideStrict bytes with
    | none =>
      rw [strict] at read
      cases read
    | some units =>
      obtain ⟨text, rfl, rfl⟩ := wideStrict_eq_some.mp strict
      rw [strict] at read
      change (if _ then _ else _ : Except String (List WString)) = _ at read
      split at read
      next => cases read
      next headed =>
        split at read
        next => cases read
        next ends =>
          have headed : headerChars <+: text := by
            rw [← prefix_encode headerChars_ascii, ← identityHeader_chars]
            simpa only [Bool.not_eq_true, Bool.not_eq_false', List.isPrefixOf_iff_prefix] using headed
          obtain ⟨rest, rfl⟩ := headed
          exact ⟨rest, (getLast_encode feed _).mp (not_not.mp ends), rfl⟩
  rw [dispatcher_chars host ends] at read
  cases parsed : ((rest.splitOn '\n').dropLast.map encode).mapM (DispatcherLoad.parseRow host) with
  | error _ =>
    rw [parsed] at read
    cases read
  | ok paths =>
    rw [parsed] at read
    obtain rfl : paths.dedup = included := Except.ok.inj read
    obtain ⟨rows, rowsRead, same⟩ := parseRows_agree digits parsed
    have shape : utf8Chars (headerChars ++ rest) = kIdentityHeader ++ utf8Chars rest := by
      exact List.flatMap_append
    have headed : kIdentityHeader <+: utf8Chars (headerChars ++ rest) := by
      exact List.prefix_append _ _
    have ends : (utf8Chars (headerChars ++ rest)).getLast? = some 10 := (getLast_utf8Chars feed _).mpr ends
    have lines : (utf8Chars rest).splitOn 10 = (rest.splitOn '\n').map utf8Chars :=
      splitOn_utf8Chars feed rest
    have rowsRead : (((utf8Chars (headerChars ++ rest)).drop kIdentityHeader.length).splitOn 10).dropLast.mapM
        parseRow = some rows := by
      rw [shape, List.drop_left, lines, ← List.map_dropLast]
      exact rowsRead
    refine ⟨⟨headed, ends, rows, rowsRead⟩, fun path => ?_⟩
    unfold parseIdentities
    rw [if_neg (not_or.mpr ⟨not_not.mpr headed, not_not.mpr ends⟩), rowsRead, List.mem_dedup, ← same]
    rw [lowerPaths_foldl]
    simp [lowerPaths]

/-! ## The dispatcher accepts what was written -/

/-- The identifiers' text, as characters. -/
def idsChars (ids : List Bytes) : List Char :=
  [','].intercalate (ids.map hexBytes)

theorem hexBytes_ascii {bytes : Bytes} {c : Char} (member : c ∈ hexBytes bytes) : c.toNat < 0x80 :=
  (isHex_of_mem_hexBytes member).all (p := fun c => c.toNat < 0x80) (by decide)

theorem utf8Chars_idsChars (ids : List Bytes) : utf8Chars (idsChars ids) = idsText ids := by
  have pieces : ids.map (fun id => ascii (hexBytes id)) = (ids.map hexBytes).map utf8Chars := by
    rw [List.map_map]
    exact List.map_congr_left fun id _ => (utf8Chars_ascii fun c => hexBytes_ascii).symm
  unfold idsChars idsText
  rw [pieces]
  generalize ids.map hexBytes = parts
  induction parts with
  | nil => rfl
  | cons part parts ih =>
    cases parts with
    | nil => simp
    | cons part' parts =>
      rw [List.intercalate_cons_cons, List.map_cons, List.map_cons, List.intercalate_cons_cons,
        ← List.map_cons, ← ih]
      simp only [utf8Chars, List.flatMap_append]
      rfl

/-- The characters of a row's line. -/
def Row.lineChars (row : Row) : List Char :=
  decode row.entry ++ '\t' :: (decode row.path ++ '\t' :: idsChars row.ids)

theorem Row.line_chars (row : Row) : row.line = utf8Chars row.lineChars := by
  have cons (s : List Char) : utf8Chars ('\t' :: s) = 9 :: utf8Chars s := rfl
  have append (s t : List Char) : utf8Chars (s ++ t) = utf8Chars s ++ utf8Chars t := List.flatMap_append
  rw [Row.line, Row.lineChars, append, cons, append, cons, utf8Chars_idsChars]
  rfl

theorem Row.Written.encode_line {row : Row} (written : row.Written) :
    encode row.lineChars = row.entry ++ 9 :: (row.path ++ 9 :: encode (idsChars row.ids)) := by
  have cons (s : List Char) : encode ('\t' :: s) = 9 :: encode s := rfl
  have append (s t : List Char) : encode (s ++ t) = encode s ++ encode t := List.flatMap_append
  rw [Row.lineChars, append, cons, append, cons, encode_decode written.entry.wellFormed,
    encode_decode written.path.wellFormed]

theorem mem_idsChars {ids : List Bytes} {c : Char} (member : c ∈ idsChars ids) :
    c = ',' ∨ ∃ id ∈ ids, c ∈ hexBytes id := by
  rcases mem_intercalate member with isComma | ⟨part, inParts, inside⟩
  · exact .inl isComma
  · obtain ⟨id, inIds, rfl⟩ := List.mem_map.mp inParts
    exact .inr ⟨id, inIds, inside⟩

theorem idsChars_ascii {ids : List Bytes} : ∀ c ∈ idsChars ids, c.toNat < 0x80 := by
  intro c member
  rcases mem_idsChars member with rfl | ⟨id, -, inside⟩
  · decide
  · exact hexBytes_ascii inside

theorem splitOn_idsChars {ids : List Bytes} (nonempty : ids ≠ []) :
    (idsChars ids).splitOn ',' = ids.map hexBytes := by
  refine List.splitOn_intercalate ',' ?_ (by simpa using nonempty)
  intro part member
  obtain ⟨id, -, rfl⟩ := List.mem_map.mp member
  exact fun inside => (isHex_of_mem_hexBytes inside).all (p := (· ≠ ',')) (by decide) rfl

/-- No unit of the identifiers' text is a control character. -/
theorem idsChars_noControl {ids : List Bytes} {u : UInt16} (member : u ∈ encode (idsChars ids)) : 32 ≤ u := by
  rw [encode_length_ascii idsChars_ascii] at member
  obtain ⟨c, inChars, rfl⟩ := List.mem_map.mp member
  rcases mem_idsChars inChars with rfl | ⟨id, -, inside⟩
  · decide
  · exact (isHex_of_mem_hexBytes inside).all (p := fun digit => (32 : UInt16) ≤
      UInt16.ofNat digit.toNat) (by decide)

section Acceptance

variable {host : DispatcherLoad.Host} (digits : ∀ u, host.iswxdigit u = isHexUnit u)

include digits

theorem wellFormedId_hexBytes {id : Bytes} (nonempty : id ≠ []) :
    DispatcherLoad.wellFormedId host (encode (hexBytes id)) = true := by
  have units := encode_length_ascii fun c (member : c ∈ hexBytes id) => hexBytes_ascii member
  have length : (encode (hexBytes id)).length = 2 * id.length := by
    rw [units, List.length_map, hexBytes_length]
  have positive := List.length_pos_iff.mpr nonempty
  have some : encode (hexBytes id) ≠ [] := List.length_pos_iff.mp (by omega)
  have all : (encode (hexBytes id)).all host.iswxdigit = true := by
    rw [List.all_eq_true, units]
    intro u member
    obtain ⟨c, inHex, rfl⟩ := List.mem_map.mp member
    rw [digits]
    exact (isHex_of_mem_hexBytes inHex).all (p := fun digit =>
      isHexUnit (UInt16.ofNat digit.toNat) = true) (by decide)
  exact decide_eq_true ⟨some, by omega, all⟩

theorem Row.Written.parseRow_dispatcher {row : Row} (written : row.Written) :
    DispatcherLoad.parseRow host (encode row.lineChars) = .ok (lower row.path) := by
  have noTab {text : WString} (free : ∀ u ∈ text, 32 ≤ u) : 9 ∉ text := fun member =>
    absurd (free 9 member) (by decide)
  have pieces : (encode row.lineChars).splitOn 9 = [row.entry, row.path, encode (idsChars row.ids)] := by
    rw [written.encode_line, List.splitOn_append_cons_self_of_not_mem (noTab written.entry.noControl),
      List.splitOn_append_cons_self_of_not_mem (noTab written.path.noControl),
      List.splitOn_eq_singleton (noTab fun u => idsChars_noControl)]
  have clean : (encode row.lineChars).any (fun c => c < 32 && c != 9) = false := by
    have unit {u : UInt16} (free : 32 ≤ u) : ¬ (decide (u < 32) && u != 9) = true := by
      rw [Bool.and_eq_true, not_and]
      exact fun control => absurd (of_decide_eq_true control) (UInt16.not_lt.mpr free)
    rw [List.any_eq_false, written.encode_line]
    intro u member
    simp only [List.mem_append, List.mem_cons] at member
    rcases member with inEntry | rfl | inPath | rfl | inIds
    · exact unit (written.entry.noControl u inEntry)
    · decide
    · exact unit (written.path.noControl u inPath)
    · decide
    · exact unit (idsChars_noControl inIds)
  have comma : (',' : Char).toNat < 0x80 := by decide
  have ids : (encode (idsChars row.ids)).splitOn 44 = (row.ids.map hexBytes).map encode := by
    rw [← splitOn_idsChars written.ids]
    exact splitOn_encode comma _
  have all : ((encode (idsChars row.ids)).splitOn 44).all (DispatcherLoad.wellFormedId host) = true := by
    rw [ids, List.map_map, List.all_eq_true]
    intro part member
    obtain ⟨id, inIds, rfl⟩ := List.mem_map.mp member
    exact wellFormedId_hexBytes digits (written.idNonempty id inIds)
  rw [DispatcherLoad.parseRow, pieces]
  dsimp only
  rw [if_neg (by simp [written.entry.nonempty, written.path.nonempty, clean]), if_pos all]

/-- **The dispatcher accepts what was written.** -/
theorem dispatcher_accepts {identities : Identities} (writable : Writable identities) :
    ∃ included, DispatcherLoad.parseIdentities host (serializeIdentities identities) = .ok included := by
  have rows := writable.rows
  generalize listed : (identities.filter fun pair => pair.2.ids ≠ []).flatMap rowsOf = all at rows
  have oneLine : ∀ line ∈ all.map Row.lineChars, '\n' ∉ line := by
    intro line member inside
    obtain ⟨row, inRows, rfl⟩ := List.mem_map.mp member
    refine Row.line_oneLine (rows row inRows).writable ?_
    rw [Row.line_chars]
    exact List.mem_flatMap.mpr ⟨'\n', inside, by decide⟩
  have bytes : serializeIdentities identities =
      utf8Chars (headerChars ++ (all.map Row.lineChars).flatMap fun line => line ++ ['\n']) := by
    have lines : ((all.map Row.line).flatMap fun line => line ++ [10]) =
        utf8Chars ((all.map Row.lineChars).flatMap fun line => line ++ ['\n']) := by
      rw [utf8Chars, List.flatMap_assoc, List.flatMap_map, List.flatMap_map]
      refine List.flatMap_congr fun row _ => ?_
      rw [Row.line_chars, List.flatMap_append]
      rfl
    rw [serialize_eq, listed, lines, kIdentityHeader_chars]
    exact List.flatMap_append.symm
  have lines : (((all.map Row.lineChars).flatMap fun line => line ++ ['\n']).splitOn '\n').dropLast =
      all.map Row.lineChars := by
    rw [splitOn_lines _ oneLine, List.dropLast_concat]
  have ends : (headerChars ++ (all.map Row.lineChars).flatMap fun line => line ++ ['\n']).getLast? =
      some '\n' := by
    cases all using List.reverseRecOn with
    | nil => decide
    | append_singleton front row => simp [List.getLast?_append]
  have parsed : ((all.map Row.lineChars).map encode).mapM (DispatcherLoad.parseRow host) =
      .ok (all.map fun row => lower row.path) := by
    clear listed oneLine bytes lines ends
    induction all with
    | nil => rfl
    | cons row all ih =>
      rw [List.map_cons, List.map_cons, List.mapM_cons,
        (rows row List.mem_cons_self).parseRow_dispatcher digits, ih fun row member =>
        rows row (List.mem_cons_of_mem _ member)]
      rfl
  refine ⟨(all.map fun row => lower row.path).dedup, ?_⟩
  rw [bytes, dispatcher_chars host ends, lines, parsed]
  rfl

end Acceptance

/-! ## Main result -/

/-- **The record means the same to its writer and both readers.**  What was written is read back, and the
dispatcher accepts it and takes the lowercased paths of all its groups; whatever text the dispatcher
accepts is accepted by the other reader, with the same paths up to letter case. -/
theorem record_means_the_same (host : DispatcherLoad.Host) (digits : ∀ u, host.iswxdigit u = isHexUnit u) :
    (∀ identities : Identities, Writable identities →
      parseIdentities (serializeIdentities identities) = recorded identities ∧
        ∃ included, DispatcherLoad.parseIdentities host (serializeIdentities identities) = .ok included ∧
          ∀ path, path ∈ included ↔ lowerPaths (recorded identities) path) ∧
    (∀ (bytes : Bytes) (included : List WString), DispatcherLoad.parseIdentities host bytes = .ok included →
      Accepted bytes ∧ ∀ path, path ∈ included ↔ lowerPaths (parseIdentities bytes) path) := by
  refine ⟨fun identities writable => ?_, fun bytes included read => agrees digits read⟩
  have back := reads_back writable
  obtain ⟨included, read⟩ := dispatcher_accepts digits writable
  refine ⟨back, included, read, fun path => ?_⟩
  rw [← back]
  exact (agrees digits read).2 path

/-! ## Poles -/

section Poles

/-- The units of a literal. -/
def spelled (literal : String) : WString :=
  encode (chars literal)

/-- The host of a C library. -/
def cHost : DispatcherLoad.Host :=
  ⟨fun _ => none, isHexUnit⟩

/-- Two entries, one of them with two groups and one without identifiers. -/
def sample : Identities :=
  [(spelled "c:\\a.exe", ⟨.present, spelled "C:\\A.exe", [[1, 2], [255]], [⟨spelled "D:\\ä.exe", [[7]]⟩]⟩),
    (spelled "c:\\b.exe", ⟨.none, spelled "C:\\b.exe", [], []⟩)]

theorem written_spelled {text : String} (nonempty : chars text ≠ [])
    (noControl : ((spelled text).all fun u => decide (32 ≤ u)) = true) : Written (spelled text) :=
  ⟨fun none => nonempty (encode_eq_nil.mp none), wellFormed_encode _, List.all_iff_forall_prop.mp noControl⟩

theorem sample_writable : Writable sample := by
  refine ⟨by decide, ?_, ?_, by decide⟩
  · intro pair member _
    simp only [sample, List.mem_cons, List.not_mem_nil, or_false] at member
    rcases member with rfl | rfl
    · exact written_spelled (by decide) (by decide)
    · exact written_spelled (by decide) (by decide)
  · intro pair member _ group inGroups
    simp only [sample, List.mem_cons, List.not_mem_nil, or_false] at member
    rcases member with rfl | rfl
    · simp only [ResolvedIdentity.groups, List.mem_cons, List.not_mem_nil, or_false] at inGroups
      rcases inGroups with rfl | rfl
      · exact written_spelled (by decide) (by decide)
      · exact written_spelled (by decide) (by decide)
    · simp only [ResolvedIdentity.groups, List.mem_cons, List.not_mem_nil, or_false] at inGroups
      subst inGroups
      exact written_spelled (by decide) (by decide)

theorem record_means_the_same_sample :
    parseIdentities (serializeIdentities sample) = recorded sample ∧ recorded sample ≠ [] ∧
      ∃ included, DispatcherLoad.parseIdentities cHost (serializeIdentities sample) = .ok included ∧
        spelled "d:\\ä.exe" ∈ included := by
  obtain ⟨back, included, read, paths⟩ := (record_means_the_same cHost fun _ => rfl).1 sample sample_writable
  refine ⟨back, by decide, included, read, (paths _).mpr ?_⟩
  exact ⟨_, List.mem_cons_self, _, List.mem_cons_of_mem _ List.mem_cons_self, by decide⟩

/-- **An identifier without bytes loses the record**: every text is valid and the entry has an identifier,
yet both readers reject what was written. -/
theorem empty_identifier_lost :
    ∃ identities : Identities, (∀ pair ∈ identities, Written pair.1 ∧ pair.2.ids ≠ [] ∧
        ∀ group ∈ pair.2.groups, Written group.path) ∧
      recorded identities ≠ [] ∧ parseIdentities (serializeIdentities identities) = [] ∧
        ∀ host, (DispatcherLoad.parseIdentities host (serializeIdentities identities)).toOption = none := by
  refine ⟨[(spelled "a", ⟨.present, spelled "b", [[]], []⟩)], ?_, by decide, by decide, fun _ => rfl⟩
  intro pair member
  rw [List.mem_singleton.mp member]
  refine ⟨written_spelled (by decide) (by decide), by decide, fun group inGroups => ?_⟩
  rw [List.mem_singleton.mp inGroups]
  exact written_spelled (by decide) (by decide)

end Poles

end ProgramSplit.Windows.Wfp
