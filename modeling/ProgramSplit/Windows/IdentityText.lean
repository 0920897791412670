/-
# Windows.IdentityText — the listed entries, the paths and the record as texts

* `listed_entry` — what every entry of a loaded list is.
* `resolvePath_plain` — a final path holds a tab or a line feed only if the entry does.
* `parseIdentities_rows` — **the record of rows that hold no separator is read back row by row.**
* `find_addRows` — an entry that is found carries identifiers of its own rows only.
-/
import ProgramSplit.Windows.Identity
import ProgramSplit.Windows.FilterSignature

namespace ProgramSplit.Windows.Wfp

set_option autoImplicit false

open Lib.Digits
open Lib.Utf16

/-! ## Lowercase -/

theorem lowerUnit_toNat (u : UInt16) :
    (lowerUnit u).toNat = if 65 ≤ u.toNat ∧ u.toNat ≤ 90 then u.toNat + 32 else u.toNat := by
  have range : (65 ≤ u ∧ u ≤ 90) ↔ (65 ≤ u.toNat ∧ u.toNat ≤ 90) := by
    exact Iff.rfl
  unfold lowerUnit
  by_cases upper : 65 ≤ u.toNat ∧ u.toNat ≤ 90
  · rw [if_pos (range.mpr upper), if_pos upper, UInt16.toNat_add]
    show (u.toNat + 32) % 65536 = _
    omega
  · rw [if_neg fun other => upper (range.mp other), if_neg upper]

variable {u : UInt16} {s : WString}

/-- A unit below the letters comes from itself alone. -/
theorem mem_lower (small : u.toNat < 65) (member : u ∈ lower s) : u ∈ s := by
  obtain ⟨v, inS, equal⟩ := List.mem_map.mp member
  have values := congrArg UInt16.toNat equal
  rw [lowerUnit_toNat] at values
  have same : v = u := by
    apply UInt16.toNat_inj.mp
    split at values <;> omega
  exact same ▸ inS

theorem wellFormed_lower (wellFormed : WellFormed s) : WellFormed (lower s) := by
  refine wellFormed.map (fun u => ?_) fun u => ?_
  · simp only [isHigh, lowerUnit_toNat, decide_eq_decide]
    split <;> omega
  · simp only [isLow, lowerUnit_toNat, decide_eq_decide]
    split <;> omega

/-! ## The list -/

theorem wellFormed_splitOn (high : isHigh u = false) (low : isLow u = false) :
    ∀ (n : Nat) {s : WString}, s.length ≤ n → WellFormed s →
      ∀ part ∈ s.splitOn u, WellFormed part ∧ u ∉ part
  | n, s, bound, wellFormed => by
    intro part member
    by_cases inside : u ∈ s
    · obtain ⟨front, back, shape, fresh⟩ := List.eq_append_cons_of_mem inside
      obtain ⟨wfFront, wfBack⟩ := wellFormed.split high low front back shape
      rw [shape, List.splitOn_append_cons_self_of_not_mem fresh, List.mem_cons] at member
      rcases member with rfl | later
      · exact ⟨wfFront, fresh⟩
      · cases n with
        | zero => simp [shape] at bound
        | succ n =>
          refine wellFormed_splitOn high low n ?_ wfBack part later
          simp only [shape, List.length_append, List.length_cons] at bound
          omega
    · rw [List.splitOn_eq_singleton inside, List.mem_singleton] at member
      exact member ▸ ⟨wellFormed, inside⟩

theorem blank_plain (blank : isBlank u = true) : isHigh u = false ∧ isLow u = false := by
  simp only [isBlank, Bool.or_eq_true, beq_iff_eq] at blank
  rcases blank with (rfl | rfl) | rfl <;> decide

theorem wellFormed_dropWhile (wellFormed : WellFormed s) :
    WellFormed (s.dropWhile isBlank) := by
  induction s with
  | nil => exact wellFormed
  | cons u s ih =>
    rw [List.dropWhile_cons]
    split
    next blank => exact ih (wellFormed.split (blank_plain blank).1 (blank_plain blank).2 [] s rfl).2
    next => exact wellFormed

theorem wellFormed_rdropWhile (wellFormed : WellFormed s) :
    WellFormed (s.rdropWhile isBlank) := by
  induction s using List.reverseRecOn with
  | nil => exact wellFormed
  | append_singleton s u ih =>
    rw [List.rdropWhile_concat]
    split
    next blank => exact ih (wellFormed.split (blank_plain blank).1 (blank_plain blank).2 s [] rfl).1
    next => exact wellFormed

theorem mem_trim (member : u ∈ trim s) : u ∈ s :=
  (List.dropWhile_sublist _).subset ((List.rdropWhile_prefix _ _).subset member)

/-- What every entry of a list is. -/
structure Entry (entry : WString) : Prop where
  nonempty : entry ≠ []
  oneLine : 10 ∉ entry
  wellFormed : WellFormed entry

/-- **Every listed entry is a well-formed line, and none is listed twice.** -/
theorem listed_entry {bytes : Bytes} {listed : List WString}
    (loaded : loadIncludedPaths bytes = .ok listed) :
    listed.Nodup ∧ ∀ entry ∈ listed, Entry entry := by
  unfold loadIncludedPaths at loaded
  split at loaded
  next => cases loaded
  split at loaded
  next => cases loaded
  next text read =>
    split at loaded
    next => cases loaded
    next =>
      obtain rfl := Except.ok.inj loaded
      refine ⟨List.nodup_dedup _, fun entry member => ?_⟩
      unfold parseIncludedText at member
      rw [List.mem_dedup, List.mem_map] at member
      obtain ⟨line, inLines, rfl⟩ := member
      rw [List.mem_filter, List.mem_map] at inLines
      obtain ⟨⟨part, inParts, rfl⟩, kept⟩ := inLines
      have nonempty : trim part ≠ [] := (of_decide_eq_true kept).1
      obtain ⟨wellFormed, fresh⟩ := wellFormed_splitOn (u := 10) (by decide) (by decide) _
        (Nat.le_refl _) (wellFormed_wideStrict read) part inParts
      refine ⟨?_, ?_, ?_⟩
      · simpa [lower] using nonempty
      · exact fun inside => fresh (mem_trim (mem_lower (by decide) inside))
      · exact wellFormed_lower (wellFormed_rdropWhile (wellFormed_dropWhile wellFormed))

/-! ## Final paths -/

/-- Holds neither a tab nor a line feed. -/
def Plain (s : WString) : Prop :=
  9 ∉ s ∧ 10 ∉ s

theorem Plain.mono {s t : WString} (plain : Plain t) (subset : ∀ u ∈ s, u ∈ t) : Plain s :=
  ⟨fun member => plain.1 (subset _ member), fun member => plain.2 (subset _ member)⟩

theorem Plain.append {s t : WString} (first : Plain s) (second : Plain t) : Plain (s ++ t) := by
  constructor
  · rw [List.mem_append]
    rintro (inside | inside)
    · exact first.1 inside
    · exact second.1 inside
  · rw [List.mem_append]
    rintro (inside | inside)
    · exact first.2 inside
    · exact second.2 inside

theorem Plain.lower (plain : Plain s) : Plain (lower s) :=
  ⟨fun member => plain.1 (mem_lower (by decide) member),
    fun member => plain.2 (mem_lower (by decide) member)⟩

theorem finalPath_plain (fs : FileSystem) (path : WString) (format : VolumeFormat) :
    Plain (finalPath fs path format) := by
  have name : Plain (fs.finalName format (cString path)) := fs.plain format _
  have stripped : Plain (withoutPrefix (fs.finalName format (cString path))) := by
    unfold withoutPrefix
    split
    · refine Plain.append ?_ (name.mono fun u => List.mem_of_mem_drop)
      unfold Plain
      decide
    · split
      · exact name.mono fun u => List.mem_of_mem_drop
      · exact name
  have result : Plain (if format = .dos then withoutPrefix (fs.finalName format (cString path))
      else fs.finalName format (cString path)) := by
    split
    · exact stripped
    · exact name
  unfold finalPath
  by_cases trailing : 1 < (if format = .dos then withoutPrefix (fs.finalName format (cString path))
      else fs.finalName format (cString path)).length ∧ (if format = .dos then
        withoutPrefix (fs.finalName format (cString path))
      else fs.finalName format (cString path)).getLast? = some 92
  · rw [if_pos trailing]
    exact result.mono fun u => List.mem_of_mem_dropLast
  · rw [if_neg trailing]
    exact result

theorem resolveFrom_plain (fs : FileSystem) (format : VolumeFormat) :
    ∀ (fuel : Nat) {existing remainder : WString}, Plain existing → Plain remainder →
      Plain (resolveFrom fs format fuel existing remainder) := by
  have none : Plain [] := by
    unfold Plain
    simp
  intro fuel
  induction fuel with
  | zero => exact fun _ _ => none
  | succ fuel ih =>
    intro existing remainder plainExisting plainRemainder
    unfold resolveFrom
    dsimp only
    split
    · exact none
    generalize (if existing.length = 2 ∧ existing.getLast? = some 58 then existing ++ [92] else existing) =
      candidate
    split
    · split
      · exact none
      · exact (finalPath_plain fs candidate format).append plainRemainder
    · exact none
    · split
      · exact none
      · split
        · exact none
        · refine ih (plainExisting.mono fun u => List.mem_of_mem_take) (Plain.append ?_ plainRemainder)
          exact plainExisting.mono fun u => List.mem_of_mem_drop

theorem resolvePath_plain (fs : FileSystem) (format : VolumeFormat) {entry : WString}
    (plain : Plain entry) : Plain (resolvePath fs entry format) := by
  refine resolveFrom_plain fs format _ plain ?_
  unfold Plain
  simp

/-- An entry that resolves holds no tab that the calls see. -/
theorem Machine.Resolves.tabFree {machine : Machine} {entry : WString} (resolves : machine.Resolves entry)
    (seen : 9 ∈ entry → 0 ∉ entry ∧ 58 ∉ entry.drop 2) : 9 ∉ entry := by
  intro tab
  obtain ⟨noNul, noStream⟩ := seen tab
  refine resolves.1 ?_
  show resolveFrom machine.fs .dos (entry.length + 1) entry [] = []
  have refused : ∀ rest : WString, 0 ∉ rest ∧ 58 ∉ rest →
      machine.fs.attributes (cString (entry ++ rest)) = .refused := by
    intro rest plain
    have whole : cString (entry ++ rest) = entry ++ rest := List.takeWhile_eq_self_iff.mpr (by grind)
    rw [whole]
    refine machine.fs.tab _ (List.mem_append_left _ tab) ?_
    rw [List.drop_append]
    grind
  have asked : ∀ c : WString, c = entry ++ [92] ∨ c = entry ++ [] →
      machine.fs.attributes (cString c) = .refused := by
    rintro c (rfl | rfl) <;> exact refused _ (by decide)
  rw [resolveFrom, if_neg (List.ne_nil_of_mem tab)]
  dsimp only
  rw [asked _ (by split_ifs <;> simp)]

/-! ## Units in memory -/

theorem units_memory (s : WString) : units (memory s) = s := by
  induction s with
  | nil => rfl
  | cons u s ih =>
    show (u.toUInt8.toUInt16 ||| (u >>> 8).toUInt8.toUInt16 <<< 8) :: units (memory s) = u :: s
    congr 1
    apply UInt16.toNat_inj.mp
    have bound := u.toNat_lt
    have low : u.toNat % 256 < 2 ^ 8 := by omega
    have high : u.toNat / 2 ^ 8 % 256 * 2 ^ 8 + u.toNat % 256 = u.toNat := by omega
    show u.toNat % 256 ||| (u.toNat >>> 8 % 256) <<< 8 % 2 ^ 16 = u.toNat
    have small : (u.toNat / 2 ^ 8 % 256) <<< 8 < 2 ^ 16 := by
      omega
    rw [Nat.shiftRight_eq_div_pow, Nat.mod_eq_of_lt small, Nat.or_comm,
      ← Nat.shiftLeft_add_eq_or_of_lt low, Nat.shiftLeft_eq]
    exact high

theorem memory_length (s : WString) : (memory s).length = 2 * s.length := by
  induction s with
  | nil => rfl
  | cons u s ih =>
    show (memory s).length + 2 = _
    rw [ih, List.length_cons]
    omega

/-! ## The record -/

theorem hexDigit_digitChar {n : Nat} (small : n < 16) :
    hexDigit (UInt8.ofNat n.digitChar.toNat) = some (UInt8.ofNat n) := by
  revert n
  decide

theorem hexBytes_cons (b : UInt8) (bytes : Bytes) :
    ascii (hexBytes (b :: bytes)) = UInt8.ofNat (b.toNat / 16).digitChar.toNat ::
      UInt8.ofNat (b.toNat % 16).digitChar.toNat :: ascii (hexBytes bytes) := by
  have bound := b.toNat_lt
  have high : b.toNat / 16 % 16 = b.toNat / 16 := by omega
  simp [hexBytes, hexFixed, ascii, high]

theorem parseHex_hexBytes (bytes : Bytes) : parseHex (ascii (hexBytes bytes)) = some bytes := by
  induction bytes with
  | nil => rfl
  | cons b bytes ih =>
    have bound := b.toNat_lt
    have value : UInt8.ofNat (b.toNat / 16) * 16 + UInt8.ofNat (b.toNat % 16) = b := by
      apply UInt8.toNat_inj.mp
      show (b.toNat / 16 % 256 * 16 % 256 + b.toNat % 16 % 256) % 256 = b.toNat
      omega
    rw [hexBytes_cons, parseHex, hexDigit_digitChar (by omega), hexDigit_digitChar (by omega), ih]
    simp only [value]

/-- The digits hold none of the separators. -/
theorem hexBytes_separators {bytes : Bytes} {c : UInt8} (member : c ∈ ascii (hexBytes bytes)) :
    c ≠ 9 ∧ c ≠ 10 ∧ c ≠ 44 := by
  obtain ⟨digit, inHex, rfl⟩ := List.mem_map.mp member
  exact (isHex_of_mem_hexBytes inHex).all (p := fun digit => UInt8.ofNat digit.toNat ≠ 9 ∧
    UInt8.ofNat digit.toNat ≠ 10 ∧ UInt8.ofNat digit.toNat ≠ 44) (by decide)

theorem hexBytes_ne_nil {bytes : Bytes} (nonempty : bytes ≠ []) : ascii (hexBytes bytes) ≠ [] := by
  cases bytes with
  | nil => exact absurd rfl nonempty
  | cons b bytes => simp [hexBytes_cons]

theorem mem_intercalate {A : Type} {separator c : A} {parts : List (List A)}
    (member : c ∈ [separator].intercalate parts) : c = separator ∨ ∃ part ∈ parts, c ∈ part := by
  induction parts with
  | nil => simp at member
  | cons part parts ih =>
    cases parts with
    | nil => exact .inr ⟨part, List.mem_cons_self, by simpa using member⟩
    | cons part' parts =>
      rw [List.intercalate_cons_cons, List.mem_append, List.mem_append] at member
      rcases member with (here | between) | later
      · exact .inr ⟨part, List.mem_cons_self, here⟩
      · exact .inl (List.mem_singleton.mp between)
      · rcases ih later with isSeparator | ⟨other, inParts, inside⟩
        · exact .inl isSeparator
        · exact .inr ⟨other, List.mem_cons_of_mem _ inParts, inside⟩

theorem mem_idsText {ids : List Bytes} {c : UInt8} (member : c ∈ idsText ids) :
    c = 44 ∨ ∃ id ∈ ids, c ∈ ascii (hexBytes id) := by
  rcases mem_intercalate member with isComma | ⟨part, inParts, inside⟩
  · exact .inl isComma
  · obtain ⟨id, inIds, rfl⟩ := List.mem_map.mp inParts
    exact .inr ⟨id, inIds, inside⟩

theorem idsText_plain (ids : List Bytes) : 9 ∉ idsText ids ∧ 10 ∉ idsText ids := by
  constructor
  · intro member
    rcases mem_idsText member with isComma | ⟨id, -, inside⟩
    · exact absurd isComma (by decide)
    · exact (hexBytes_separators inside).1 rfl
  · intro member
    rcases mem_idsText member with isComma | ⟨id, -, inside⟩
    · exact absurd isComma (by decide)
    · exact (hexBytes_separators inside).2.1 rfl

theorem splitOn_idsText {ids : List Bytes} (nonempty : ids ≠ []) :
    (idsText ids).splitOn 44 = ids.map fun id => ascii (hexBytes id) := by
  refine List.splitOn_intercalate 44 ?_ (by simpa using nonempty)
  intro part member
  obtain ⟨id, -, rfl⟩ := List.mem_map.mp member
  exact fun inside => (hexBytes_separators inside).2.2 rfl

theorem parse_ids {ids : List Bytes} (nonempty : ∀ id ∈ ids, id ≠ []) :
    (ids.map fun id => ascii (hexBytes id)).mapM parseId = some ids := by
  induction ids with
  | nil => rfl
  | cons id ids ih =>
    have first : parseId (ascii (hexBytes id)) = some id := by
      rw [parseId, if_neg (hexBytes_ne_nil (nonempty id List.mem_cons_self)), parseHex_hexBytes]
    rw [List.map_cons, List.mapM_cons, first, ih fun id member => nonempty id (List.mem_cons_of_mem _ member)]
    rfl

/-- The identifiers are determined by their text. -/
theorem idsText_inj {ids ids' : List Bytes} (nonempty : ids ≠ []) (nonempty' : ids' ≠ [])
    (same : idsText ids = idsText ids') : ids = ids' := by
  have pieces := congrArg (List.splitOn 44) same
  rw [splitOn_idsText nonempty, splitOn_idsText nonempty'] at pieces
  refine List.map_injective_iff.mpr ?_ pieces
  intro id id' equal
  have parsed := congrArg parseHex equal
  rw [parseHex_hexBytes, parseHex_hexBytes] at parsed
  exact Option.some.inj parsed

/-- A row that can be written and read back. -/
structure Row.Writable (row : Row) : Prop where
  entry : row.entry ≠ []
  entryPlain : Plain row.entry
  path : row.path ≠ []
  pathPlain : Plain row.path
  ids : row.ids ≠ []
  idNonempty : ∀ id ∈ row.ids, id ≠ []

def Row.line (row : Row) : Bytes :=
  utf8 row.entry ++ 9 :: (utf8 row.path ++ 9 :: idsText row.ids)

theorem utf8_plain (plain : Plain s) : 9 ∉ utf8 s ∧ 10 ∉ utf8 s :=
  ⟨fun member => plain.1 (mem_of_mem_utf8 (by decide) member),
    fun member => plain.2 (mem_of_mem_utf8 (by decide) member)⟩

theorem parseRow_line {row : Row} (writable : row.Writable) :
    parseRow row.line = some ⟨wide (utf8 row.entry), wide (utf8 row.path), row.ids⟩ := by
  have pieces : row.line.splitOn 9 = [utf8 row.entry, utf8 row.path, idsText row.ids] := by
    rw [Row.line, List.splitOn_append_cons_self_of_not_mem (utf8_plain writable.entryPlain).1,
      List.splitOn_append_cons_self_of_not_mem (utf8_plain writable.pathPlain).1,
      List.splitOn_eq_singleton (idsText_plain _).1]
  rw [parseRow, pieces]
  dsimp only
  rw [if_neg (not_or.mpr ⟨utf8_ne_nil writable.entry, utf8_ne_nil writable.path⟩),
    splitOn_idsText writable.ids, parse_ids writable.idNonempty]
  rfl

theorem Row.line_oneLine {row : Row} (writable : row.Writable) : 10 ∉ row.line := by
  simp only [Row.line, List.mem_append, List.mem_cons, not_or]
  exact ⟨(utf8_plain writable.entryPlain).2, by decide, (utf8_plain writable.pathPlain).2, by decide,
    (idsText_plain _).2⟩

theorem splitOn_lines {A : Type} [DecidableEq A] {feed : A} (lines : List (List A))
    (oneLine : ∀ line ∈ lines, feed ∉ line) :
    (lines.flatMap fun line => line ++ [feed]).splitOn feed = lines ++ [[]] := by
  induction lines with
  | nil => rfl
  | cons line lines ih =>
    rw [List.flatMap_cons, List.append_assoc, List.singleton_append,
      List.splitOn_append_cons_self_of_not_mem (oneLine line List.mem_cons_self),
      ih fun line member => oneLine line (List.mem_cons_of_mem _ member), List.cons_append]

variable {rows : List Row}

theorem parse_rows (writable : ∀ row ∈ rows, row.Writable) :
    (rows.map Row.line).mapM parseRow =
      some (rows.map fun row => ⟨wide (utf8 row.entry), wide (utf8 row.path), row.ids⟩) := by
  induction rows with
  | nil => rfl
  | cons row rows ih =>
    rw [List.map_cons, List.mapM_cons, parseRow_line (writable row List.mem_cons_self),
      ih fun row member => writable row (List.mem_cons_of_mem _ member)]
    rfl

/-- **A record of writable rows is read back row by row.** -/
theorem parseIdentities_rows (writable : ∀ row ∈ rows, row.Writable) :
    parseIdentities (kIdentityHeader ++ (rows.map Row.line).flatMap fun line => line ++ [10]) =
      (rows.map fun row => (⟨wide (utf8 row.entry), wide (utf8 row.path), row.ids⟩ : Row)).foldl
        (fun identities row => addRow row identities) [] := by
  have ends : (kIdentityHeader ++ (rows.map Row.line).flatMap fun line => line ++ [10]).getLast? =
      some 10 := by
    cases rows using List.reverseRecOn with
    | nil => decide +kernel
    | append_singleton rows row => simp [List.getLast?_append]
  have headed : kIdentityHeader <+:
      kIdentityHeader ++ (rows.map Row.line).flatMap fun line => line ++ [10] :=
    List.prefix_append _ _
  have lines := splitOn_lines (rows.map Row.line) fun line member => by
    obtain ⟨row, inRows, rfl⟩ := List.mem_map.mp member
    exact Row.line_oneLine (writable row inRows)
  unfold parseIdentities
  rw [if_neg (not_or.mpr ⟨not_not.mpr headed, not_not.mpr ends⟩), List.drop_left, lines,
    List.dropLast_concat, parse_rows writable]

/-! ## Looking an entry up -/

/-- Every identifier of the entry's groups comes from one of the rows that name it. -/
def FromRows (rows : List Row) (identities : Identities) : Prop :=
  ∀ pair ∈ identities, ∀ group ∈ pair.2.groups, ∀ id ∈ group.ids,
    ∃ row ∈ rows, row.entry = pair.1 ∧ id ∈ row.ids

theorem FromRows.addRow {row : Row} (inRows : row ∈ rows) :
    ∀ {identities : Identities}, FromRows rows identities → FromRows rows (addRow row identities) := by
  have own : ∀ pair : WString × ResolvedIdentity,
      pair = (row.entry, ⟨.retained, row.path, row.ids, []⟩) → ∀ group ∈ pair.2.groups,
        ∀ id ∈ group.ids, ∃ row ∈ rows, row.entry = pair.1 ∧ id ∈ row.ids := by
    rintro pair rfl group inGroups id inIds
    rw [ResolvedIdentity.groups, List.mem_singleton] at inGroups
    subst inGroups
    exact ⟨row, inRows, rfl, inIds⟩
  intro identities
  induction identities with
  | nil =>
    intro _ pair member
    exact own pair (List.mem_singleton.mp member)
  | cons first rest ih =>
    obtain ⟨entry, identity⟩ := first
    intro fromRows
    unfold Wfp.addRow
    split
    next same =>
      intro pair member
      rcases List.mem_cons.mp member with rfl | later
      · intro group inGroups id inIds
        simp only [ResolvedIdentity.groups, List.mem_cons, List.mem_append] at inGroups
        rcases inGroups with isFirst | inOthers | isNew
        · exact fromRows (entry, identity) List.mem_cons_self group
            (by simp [ResolvedIdentity.groups, isFirst]) id inIds
        · exact fromRows (entry, identity) List.mem_cons_self group
            (by simp [ResolvedIdentity.groups, inOthers]) id inIds
        · simp only [List.not_mem_nil, or_false] at isNew
          subst isNew
          exact ⟨row, inRows, same, inIds⟩
      · exact fromRows pair (List.mem_cons_of_mem _ later)
    next =>
      split
      next =>
        intro pair member
        rcases List.mem_cons.mp member with isNew | later
        · exact own pair isNew
        · exact fromRows pair later
      next =>
        intro pair member
        rcases List.mem_cons.mp member with rfl | later
        · exact fromRows _ List.mem_cons_self
        · exact ih (fun pair member => fromRows pair (List.mem_cons_of_mem _ member)) pair later

theorem fromRows_foldl {all rows : List Row} (subset : ∀ row ∈ rows, row ∈ all) :
    ∀ {identities : Identities}, FromRows all identities →
      FromRows all (rows.foldl (fun identities row => addRow row identities) identities) := by
  induction rows with
  | nil => exact fun fromRows => fromRows
  | cons row rows ih =>
    intro identities fromRows
    exact ih (fun row member => subset row (List.mem_cons_of_mem _ member))
      (fromRows.addRow (subset row List.mem_cons_self))

/-- An entry that is found carries identifiers of its own rows only. -/
theorem find_addRows {entry : WString} {identity : ResolvedIdentity}
    (found : Identities.find (rows.foldl (fun identities row => addRow row identities) []) entry =
      some identity) :
    ∀ group ∈ identity.groups, ∀ id ∈ group.ids, ∃ row ∈ rows, row.entry = entry ∧ id ∈ row.ids := by
  obtain ⟨pair, isFound, rfl⟩ := Option.map_eq_some_iff.mp found
  have key : pair.1 = entry := by simpa using List.find?_some isFound
  have start : FromRows rows [] := by
    intro pair member
    cases member
  intro group inGroups id inIds
  obtain ⟨row, inRows, names, inRow⟩ :=
    fromRows_foldl (fun row member => member) start pair (List.mem_of_find?_eq_some isFound) group
      inGroups id inIds
  exact ⟨row, inRows, names.trans key, inRow⟩

end ProgramSplit.Windows.Wfp
