/-
# Dns.Questions — which packets hold a question, and which questions share a key

A `Query` is the grammar of what `parseQuestion` accepts: a header that announces one question, a
name as labels without compression, a type and a class.  A name is compared label by label, and a
query event names the same thing as a text.

* `scanQuestion_eq` — the source's loop over offsets reads the same question as `parseQuestion`.
* `parseQuestion_isSome_iff` — **accepted are exactly the queries.**
* `makeKey_inj` — a key determines the normalised name and the type, although a name may hold `#`.
* `questions_exact` — acceptance, keys of two packets, and keys of a packet and an event.
-/
import Mathlib.Data.Bool.AllAny
import Mathlib.Data.Vector.Basic
import ProgramSplit.Dns.Wire
import ProgramSplit.Lib.Digits

namespace ProgramSplit.Dns

set_option autoImplicit false

open Lib.Digits

/-! ## The loop over offsets -/

/-- A dot unless the name is empty. -/
def separated (name : WString) : WString :=
  if name = [] then name else name ++ [0x2e]

/-- The loop of the source: at most one turn for each byte. -/
def scanLabels (packet : List UInt8) : (turns offset : Nat) → (name : WString) → Option (WString × Nat)
  | 0, offset, name => some (name, offset)
  | turns + 1, offset, name =>
    match packet[offset]? with
    | none => some (name, offset)
    | some length =>
      if length = 0 then some (name, offset + 1)
      else if length &&& 0xc0 ≠ 0 ∨ packet.length < offset + 1 + length.toNat then none
      else scanLabels packet turns (offset + 1 + length.toNat)
        (separated name ++ ((packet.drop (offset + 1)).take length.toNat).map wide)

/-- `parseQuestion`, by offsets. -/
def scanQuestion (packet : List UInt8) : Option Question :=
  if packet.length < 17 ∨ packet[4]? ≠ some 0 ∨ packet[5]? ≠ some 1 then none
  else
    match scanLabels packet packet.length 12 [] with
    | none => none
    | some (name, offset) =>
      if name = [] ∨ 253 < name.length ∨ packet.length < offset + 4 then none
      else
        match packet[offset]?, packet[offset + 1]? with
        | some high, some low => some { name := normalizeName name, type := wide high <<< 8 ||| wide low }
        | _, _ => none

/-- The bytes of one label, read one by one. -/
theorem readLabels_left (left : Nat) : ∀ (rest : List UInt8) (name : WString), left ≤ rest.length →
    readLabels rest left name = readLabels (rest.drop left) 0 (name ++ (rest.take left).map wide) := by
  induction left with
  | zero =>
    intro rest name _
    simp
  | succ left ih =>
    intro rest name fits
    cases rest with
    | nil => cases fits
    | cons byte rest =>
      rw [readLabels, ih rest _ (Nat.le_of_succ_le_succ fits)]
      simp

theorem readLabels_short (left : Nat) : ∀ (rest : List UInt8) (name : WString), rest.length < left →
    readLabels rest left name = none := by
  induction left with
  | zero => exact fun _ _ short => absurd short (Nat.not_lt_zero _)
  | succ left ih =>
    intro rest name short
    cases rest with
    | nil => rfl
    | cons byte rest =>
      rw [readLabels]
      exact ih rest _ (Nat.lt_of_succ_lt_succ short)

/-- One turn of the loop over labels. -/
theorem readLabels_cons {length : UInt8} (nonzero : length ≠ 0) (rest : List UInt8) (name : WString) :
    readLabels (length :: rest) 0 name =
      if length &&& 0xc0 ≠ 0 ∨ rest.length < length.toNat then none
      else readLabels (rest.drop length.toNat) 0 (separated name ++ (rest.take length.toNat).map wide) := by
  rw [readLabels]
  · by_cases reserved : length &&& 0xc0 ≠ 0
    · rw [if_pos reserved, if_pos (.inl reserved)]
    · rw [if_neg reserved]
      by_cases short : rest.length < length.toNat
      · rw [readLabels_short _ _ _ short, if_pos (.inr short)]
      · rw [if_neg (not_or.mpr ⟨reserved, short⟩), readLabels_left _ _ _ (Nat.not_lt.mp short)]
        rfl
  · exact nonzero

/-- **Both loops read the same labels.** -/
theorem scanLabels_eq (packet : List UInt8) :
    ∀ (turns offset : Nat) (name : WString), offset ≤ packet.length →
    packet.length ≤ offset + turns →
      (scanLabels packet turns offset name).map (fun result => (result.1, packet.drop result.2)) =
          readLabels (packet.drop offset) 0 name ∧
        ∀ result ∈ scanLabels packet turns offset name, result.2 ≤ packet.length := by
  intro turns
  induction turns with
  | zero =>
    intro offset name bound enough
    have done : packet.drop offset = [] := List.drop_eq_nil_of_le (by omega)
    rw [scanLabels, done]
    refine ⟨by simp [done, readLabels], fun result member => ?_⟩
    rw [Option.mem_some.mp member |>.symm]
    exact bound
  | succ turns ih =>
    intro offset name bound enough
    rw [scanLabels]
    cases read : packet[offset]? with
    | none =>
      have done : packet.drop offset = [] := List.drop_eq_nil_of_le (List.getElem?_eq_none_iff.mp read)
      refine ⟨by simp [done, readLabels], fun result member => ?_⟩
      rw [Option.mem_some.mp member |>.symm]
      exact bound
    | some length =>
      have inside : offset < packet.length := (List.getElem?_eq_some_iff.mp read).1
      have shape : packet.drop offset = length :: packet.drop (offset + 1) := by
        rw [List.drop_eq_getElem_cons inside, (List.getElem?_eq_some_iff.mp read).2]
      dsimp only
      rw [shape]
      by_cases zero : length = 0
      · subst zero
        refine ⟨rfl, fun result member => ?_⟩
        rw [Option.mem_some.mp member |>.symm]
        exact inside
      · rw [if_neg zero, readLabels_cons zero, List.length_drop, List.drop_drop]
        have same : (length &&& 0xc0 ≠ 0 ∨ packet.length < offset + 1 + length.toNat) ↔
            (length &&& 0xc0 ≠ 0 ∨ packet.length - (offset + 1) < length.toNat) :=
          or_congr Iff.rfl (by omega)
        by_cases bad : length &&& 0xc0 ≠ 0 ∨ packet.length < offset + 1 + length.toNat
        · rw [if_pos bad, if_pos (same.mp bad)]
          exact ⟨rfl, nofun⟩
        · rw [if_neg bad, if_neg fun other => bad (same.mpr other)]
          rw [not_or, Nat.not_lt] at bad
          exact ih _ _ bad.2 (by omega)

/-- **The source's loop reads the same question.** -/
theorem scanQuestion_eq (packet : List UInt8) : scanQuestion packet = parseQuestion packet := by
  unfold scanQuestion parseQuestion
  by_cases refused : packet.length < 17 ∨ packet[4]? ≠ some 0 ∨ packet[5]? ≠ some 1
  · rw [if_pos refused, if_pos refused]
  obtain ⟨same, bounded⟩ := scanLabels_eq packet packet.length 12 [] (by omega) (by omega)
  rw [← same]
  cases scanned : scanLabels packet packet.length 12 [] with
  | none => rfl
  | some result =>
    obtain ⟨name, offset⟩ := result
    dsimp only [Option.map_some]
    have length : (packet.drop offset).length = packet.length - offset := List.length_drop
    have high : packet[offset]? = (packet.drop offset)[0]? := by simp
    have low : packet[offset + 1]? = (packet.drop offset)[1]? := by simp
    have room : packet.length < offset + 4 ↔ (packet.drop offset).length < 4 := by omega
    rw [high, low]
    simp only [room]
    generalize packet.drop offset = rest
    match rest with
    | [] => simp
    | [_] => simp
    | [_, _] => simp
    | [_, _, _] => simp
    | _ :: _ :: _ :: _ :: tail =>
      have fits : ¬ tail.length + 1 + 1 + 1 + 1 < 4 := by omega
      simp [fits]

/-! ## The grammar of a query -/

/-- A label as it stands in a packet. -/
def spellLabel (label : List UInt8) : List UInt8 :=
  UInt8.ofNat label.length :: label

def labelText (label : List UInt8) : WString :=
  label.map wide

/-- The labels with dots between them. -/
def dotted : List (List UInt8) → WString
  | [] => []
  | first :: others => spaced 0x2e (labelText first) (others.map labelText)

/-- A packet that asks one question, its name without compression. -/
structure Query where
  header : List.Vector UInt8 12
  labels : List (List UInt8)
  typeHigh : UInt8
  typeLow : UInt8
  cls : List.Vector UInt8 2
  trailing : List UInt8
  /-- The header announces one question. -/
  announced : header.get 4 = 0 ∧ header.get 5 = 1
  nonempty : labels ≠ []
  sizes : ∀ label ∈ labels, 0 < label.length ∧ label.length < 64
  short : (dotted labels).length ≤ 253

def Query.bytes (query : Query) : List UInt8 :=
  query.header.toList ++ (query.labels.flatMap spellLabel ++
    0 :: query.typeHigh :: query.typeLow :: (query.cls.toList ++ query.trailing))

def Query.type (query : Query) : UInt16 :=
  wide query.typeHigh <<< 8 ||| wide query.typeLow

/-- A length byte below 64 is neither a pointer nor reserved. -/
theorem plain_length (length : UInt8) : length &&& 0xc0 = 0 ↔ length.toNat < 64 := by
  have table : ∀ n < 256, UInt8.ofNat n &&& 0xc0 = 0 ↔ n < 64 := by
    decide +kernel
  have row := table length.toNat length.toNat_lt
  rwa [UInt8.ofNat_toNat] at row

/-- The name that the loop has built behind `name`. -/
def joined (name : WString) (labels : List (List UInt8)) : WString :=
  labels.foldl (fun name label => separated name ++ labelText label) name

theorem joined_behind (labels : List (List UInt8)) : ∀ {name : WString}, name ≠ [] →
    joined name labels = name ++ (labels.map labelText).flatMap (0x2e :: ·) := by
  induction labels with
  | nil =>
    intro name _
    simp [joined]
  | cons label labels ih =>
    intro name nonempty
    have step : joined name (label :: labels) = joined (separated name ++ labelText label) labels := rfl
    rw [step, ih (by simp [separated, nonempty]), separated, if_neg nonempty]
    simp

theorem joined_eq_dotted {labels : List (List UInt8)} (sizes : ∀ label ∈ labels, 0 < label.length) :
    joined [] labels = dotted labels := by
  cases labels with
  | nil => rfl
  | cons first others =>
    have first : labelText first ≠ [] := by
      have := sizes first List.mem_cons_self
      simpa [labelText] using List.length_pos_iff.mp this
    exact joined_behind others first

/-- Spelled labels are read, up to the root or the end of the packet. -/
theorem readLabels_spelled (labels : List (List UInt8)) : ∀ (name : WString) (rest : List UInt8),
    (∀ label ∈ labels, 0 < label.length ∧ label.length < 64) →
      readLabels (labels.flatMap spellLabel ++ rest) 0 name = readLabels rest 0 (joined name labels) := by
  induction labels with
  | nil => exact fun _ _ _ => rfl
  | cons label labels ih =>
    intro name rest sizes
    obtain ⟨positive, small⟩ := sizes label List.mem_cons_self
    have value : (UInt8.ofNat label.length).toNat = label.length := by
      rw [UInt8.toNat_ofNat', Nat.mod_eq_of_lt (by omega)]
    have nonzero : UInt8.ofNat label.length ≠ 0 := by
      intro zero
      rw [zero] at value
      exact absurd value (by simpa using positive.ne)
    have plain : UInt8.ofNat label.length &&& 0xc0 = 0 := (plain_length _).mpr (by omega)
    rw [List.flatMap_cons, spellLabel, List.cons_append, List.cons_append, List.append_assoc,
      readLabels_cons nonzero, value, if_neg (by simp [plain]), List.drop_left, List.take_left,
      ih _ _ fun label member => sizes label (List.mem_cons_of_mem _ member)]
    rfl

/-- **What the loop has read**: labels, and the root behind them unless the packet has ended. -/
theorem labels_of_readLabels : ∀ (n : Nat) (bytes : List UInt8) (name name' : WString) (rest : List UInt8),
    bytes.length ≤ n → readLabels bytes 0 name = some (name', rest) →
      ∃ labels, (∀ label ∈ labels, 0 < label.length ∧ label.length < 64) ∧ name' = joined name labels ∧
        (bytes = labels.flatMap spellLabel ++ 0 :: rest ∨ rest = []) := by
  intro n
  induction n with
  | zero =>
    intro bytes name name' rest bound read
    obtain rfl := List.length_eq_zero_iff.mp (Nat.le_zero.mp bound)
    obtain ⟨rfl, rfl⟩ := read
    exact ⟨[], by simp, rfl, .inr rfl⟩
  | succ n ih =>
    intro bytes name name' rest bound read
    cases bytes with
    | nil =>
      obtain ⟨rfl, rfl⟩ := read
      exact ⟨[], by simp, rfl, .inr rfl⟩
    | cons length tail =>
      by_cases zero : length = 0
      · subst zero
        obtain ⟨rfl, rfl⟩ := read
        exact ⟨[], by simp, rfl, .inl rfl⟩
      rw [readLabels_cons zero] at read
      split at read
      next => cases read
      next good =>
        rw [not_or, not_not, Nat.not_lt] at good
        have size : (tail.take length.toNat).length = length.toNat := by
          rw [List.length_take]
          omega
        have positive : 0 < length.toNat := Nat.pos_of_ne_zero fun isZero => zero (UInt8.toNat_inj.mp isZero)
        have small := (plain_length length).mp good.1
        simp only [List.length_cons] at bound
        obtain ⟨labels, sizes, built, shape⟩ := ih _ _ _ _ (by rw [List.length_drop]; omega) read
        refine ⟨tail.take length.toNat :: labels, ?_, built, shape.imp_left fun shape => ?_⟩
        · intro label member
          rcases List.mem_cons.mp member with rfl | later
          · omega
          · exact sizes label later
        · have spelled : spellLabel (tail.take length.toNat) = length :: tail.take length.toNat := by
            rw [spellLabel, size, UInt8.ofNat_toNat]
          rw [List.flatMap_cons, spelled, List.append_assoc, ← shape, List.cons_append, List.take_append_drop]

/-- A query is accepted, with its normalised name and its type. -/
theorem Query.parse (query : Query) :
    parseQuestion query.bytes = some ⟨normalizeName (dotted query.labels), query.type⟩ := by
  have read : readLabels (query.bytes.drop 12) 0 [] =
      some (dotted query.labels, query.typeHigh :: query.typeLow :: (query.cls.toList ++
        query.trailing)) := by
    have behind : query.bytes.drop 12 = query.labels.flatMap spellLabel ++
        0 :: query.typeHigh :: query.typeLow :: (query.cls.toList ++ query.trailing) := by
      rw [Query.bytes, List.drop_append_of_le_length (by simp), List.drop_eq_nil_of_le (by simp),
        List.nil_append]
    rw [behind, readLabels_spelled _ _ _ query.sizes, joined_eq_dotted fun label member =>
      (query.sizes label member).1]
    rfl
  have four : query.bytes[4]? = some 0 ∧ query.bytes[5]? = some 1 := by
    obtain ⟨announcedHigh, announcedLow⟩ := query.announced
    rw [Query.bytes]
    match query.header, announcedHigh, announcedLow with
    | ⟨[_, _, _, _, _, _, _, _, _, _, _, _], _⟩, zero, one => exact ⟨congrArg some zero, congrArg some one⟩
  have some : dotted query.labels ≠ [] := by
    obtain ⟨first, others, shape⟩ := List.exists_cons_of_ne_nil query.nonempty
    have positive := (query.sizes first (by rw [shape]; exact List.mem_cons_self)).1
    rw [shape]
    intro none
    have noFirst := (List.append_eq_nil_iff.mp none).1
    exact absurd (List.map_eq_nil_iff.mp noFirst) (List.length_pos_iff.mp positive)
  have long : ¬ query.bytes.length < 17 := by
    obtain ⟨first, others, shape⟩ := List.exists_cons_of_ne_nil query.nonempty
    simp only [Query.bytes, shape, List.flatMap_cons, spellLabel, List.length_append, List.length_cons,
      List.Vector.toList_length]
    omega
  unfold parseQuestion
  rw [if_neg (by simp [long, four]), read]
  match query.cls with
  | ⟨[_, _], _⟩ => exact if_neg (not_or.mpr ⟨some, Nat.not_lt.mpr query.short⟩)

/-- **Accepted are exactly the queries.** -/
theorem parseQuestion_isSome_iff (packet : List UInt8) :
    (parseQuestion packet).isSome = true ↔ ∃ query : Query, query.bytes = packet := by
  constructor
  · intro accepted
    unfold parseQuestion at accepted
    split at accepted
    next => cases accepted
    next good =>
      rw [not_or, not_or, not_not, not_not, Nat.not_lt] at good
      obtain ⟨long, four, five⟩ := good
      obtain ⟨header, back, rfl⟩ : ∃ (header : List.Vector UInt8 12) (back : List UInt8),
          header.toList ++ back = packet :=
        ⟨⟨packet.take 12, by rw [List.length_take]; omega⟩, packet.drop 12, List.take_append_drop _ _⟩
      have announced : header.get 4 = 0 ∧ header.get 5 = 1 := by
        match header, four, five with
        | ⟨[_, _, _, _, _, _, _, _, _, _, _, _], _⟩, four, five =>
          exact ⟨Option.some.inj four, Option.some.inj five⟩
      have behind : (header.toList ++ back).drop 12 = back := by
        rw [List.drop_append_of_le_length (by simp), List.drop_eq_nil_of_le (by simp), List.nil_append]
      rw [behind] at accepted
      split at accepted
      next name high low c₀ c₁ trailing read =>
        split at accepted
        next => cases accepted
        next named =>
          rw [not_or, Nat.not_lt] at named
          obtain ⟨labels, sizes, rfl, shape | ended⟩ := labels_of_readLabels _ _ _ _ _ (Nat.le_refl _) read
          · rw [joined_eq_dotted fun label member => (sizes label member).1] at named
            have some : labels ≠ [] := by
              rintro rfl
              exact named.1 rfl
            refine ⟨⟨header, labels, high, low, ⟨[c₀, c₁], rfl⟩, trailing, announced, some, sizes,
              named.2⟩, ?_⟩
            rw [shape]
            rfl
          · cases ended
      next => cases accepted
  · rintro ⟨query, rfl⟩
    rw [query.parse]
    rfl

/-! ## Names -/

/-- ASCII whitespace. -/
def isSpace (b : UInt8) : Bool :=
  b == 0x20 || (0x09 ≤ b && b ≤ 0x0d)

/-- ASCII without dot or whitespace. -/
def CleanLabel (label : List UInt8) : Prop :=
  ∀ b ∈ label, b < 0x80 ∧ b ≠ 0x2e ∧ isSpace b = false

/-- Label by label, ignoring case. -/
def SameName (labels labels' : List (List UInt8)) : Prop :=
  labels.map (fun label => lower (labelText label)) = labels'.map fun label => lower (labelText label)

/-- A text that a name may be: without blanks, and without a dot at its end. -/
structure NameText (text : WString) : Prop where
  noBlank : ∀ c ∈ text, isBlank c = false
  noDot : text.getLast? ≠ some 0x2e

theorem towlower_toNat (c : UInt16) :
    (towlower c).toNat = if 0x41 ≤ c.toNat ∧ c.toNat ≤ 0x5a then c.toNat + 0x20 else c.toNat := by
  have range : (0x41 ≤ c ∧ c ≤ 0x5a) ↔ (0x41 ≤ c.toNat ∧ c.toNat ≤ 0x5a) := by
    exact Iff.rfl
  unfold towlower
  by_cases upper : 0x41 ≤ c.toNat ∧ c.toNat ≤ 0x5a
  · rw [if_pos (range.mpr upper), if_pos upper, UInt16.toNat_add]
    show (c.toNat + 32) % 65536 = _
    omega
  · rw [if_neg fun other => upper (range.mp other), if_neg upper]

theorem towlower_towlower (c : UInt16) : towlower (towlower c) = towlower c := by
  apply UInt16.toNat_inj.mp
  rw [towlower_toNat, towlower_toNat c]
  by_cases upper : 0x41 ≤ c.toNat ∧ c.toNat ≤ 0x5a
  · rw [if_pos upper, if_neg (by omega)]
  · rw [if_neg upper, if_neg upper]

/-- Lowering gives a character below the letters only for itself. -/
theorem towlower_eq {c d : UInt16} (small : d.toNat < 0x41) : towlower c = d ↔ c = d := by
  rw [← UInt16.toNat_inj, ← UInt16.toNat_inj, towlower_toNat]
  split <;> omega

theorem lower_lower (text : WString) : lower (lower text) = lower text := by
  unfold lower
  rw [List.map_map]
  exact List.map_congr_left fun c _ => towlower_towlower c

theorem trim_noBlank {text : WString} (noBlank : ∀ c ∈ text, isBlank c = false) : trim text = text := by
  have front : text.dropWhile isBlank = text := by
    cases text with
    | nil => rfl
    | cons c text => rw [List.dropWhile_cons, if_neg (by simp [noBlank c List.mem_cons_self])]
  rw [trim, front, List.rdropWhile_eq_self_iff]
  intro nonempty
  simp [noBlank _ (List.getLast_mem nonempty)]

theorem NameText.lower {text : WString} (nameText : NameText text) : NameText (lower text) := by
  constructor
  · intro c member
    obtain ⟨d, inText, rfl⟩ := List.mem_map.mp member
    have blank := nameText.noBlank d inText
    simp only [isBlank, Bool.or_eq_false_iff, beq_eq_false_iff_ne] at blank ⊢
    exact ⟨⟨fun bad => blank.1.1 ((towlower_eq (by decide)).mp bad),
      fun bad => blank.1.2 ((towlower_eq (by decide)).mp bad)⟩,
      fun bad => blank.2 ((towlower_eq (by decide)).mp bad)⟩
  · intro ends
    rw [Dns.lower, List.getLast?_map, Option.map_eq_some_iff] at ends
    obtain ⟨c, last, isDot⟩ := ends
    exact nameText.noDot (last.trans (congrArg some ((towlower_eq (by decide)).mp isDot)))

/-- **Trailing dots and the case go**, and nothing else. -/
theorem normalizeName_text {text : WString} (nameText : NameText text) (dots : Nat) :
    normalizeName (text ++ List.replicate dots 0x2e) = lower text := by
  have noBlank : ∀ c ∈ text ++ List.replicate dots 0x2e, isBlank c = false := by
    intro c member
    rcases List.mem_append.mp member with inText | isDot
    · exact nameText.noBlank c inText
    · rw [(List.mem_replicate.mp isDot).2]
      rfl
  have lowered : lower (text ++ List.replicate dots 0x2e) = lower text ++ List.replicate dots 0x2e := by
    rw [lower, List.map_append, List.map_replicate]
    rfl
  rw [normalizeName, trim_noBlank noBlank, lowered]
  clear noBlank lowered
  induction dots with
  | zero =>
    rw [List.replicate_zero, List.append_nil, List.rdropWhile_eq_self_iff]
    intro nonempty isDot
    refine nameText.lower.noDot ?_
    rw [List.getLast?_eq_some_getLast nonempty, beq_iff_eq.mp isDot]
  | succ dots ih =>
    have dot : isDot 0x2e = true := rfl
    rw [List.replicate_succ', ← List.append_assoc, List.rdropWhile_concat, if_pos dot]
    exact ih

/-! ## Clean labels -/

theorem CleanLabel.text {label : List UInt8} (clean : CleanLabel label) :
    ∀ c ∈ labelText label, isBlank c = false ∧ c ≠ 0x2e := by
  have table : ∀ n < 256, UInt8.ofNat n ≠ 0x2e ∧ isSpace (UInt8.ofNat n) = false →
      isBlank (wide (UInt8.ofNat n)) = false ∧ wide (UInt8.ofNat n) ≠ 0x2e := by
    decide +kernel
  intro c member
  obtain ⟨b, inLabel, rfl⟩ := List.mem_map.mp member
  have row := table b.toNat b.toNat_lt
  rw [UInt8.ofNat_toNat] at row
  exact row (clean b inLabel).2

theorem mem_dotted {labels : List (List UInt8)} {c : UInt16} (member : c ∈ dotted labels) :
    c = 0x2e ∨ ∃ label ∈ labels, c ∈ labelText label := by
  cases labels with
  | nil => cases member
  | cons first others =>
    rcases List.mem_append.mp member with inFirst | later
    · exact .inr ⟨first, List.mem_cons_self, inFirst⟩
    · obtain ⟨text, inTexts, inside⟩ := List.mem_flatMap.mp later
      obtain ⟨label, inOthers, rfl⟩ := List.mem_map.mp inTexts
      rcases List.mem_cons.mp inside with isDot | inLabel
      · exact .inl isDot
      · exact .inr ⟨label, List.mem_cons_of_mem _ inOthers, inLabel⟩

/-- The text ends as its last label does. -/
theorem dotted_last {labels : List (List UInt8)} (sizes : ∀ label ∈ labels, 0 < label.length)
    (nonempty : labels ≠ []) :
    ∃ label ∈ labels, (dotted labels).getLast? = (labelText label).getLast? ∧ labelText label ≠ [] := by
  have text {label : List UInt8} (member : label ∈ labels) : labelText label ≠ [] := by
    simpa [labelText] using List.length_pos_iff.mp (sizes label member)
  cases labels with
  | nil => exact absurd rfl nonempty
  | cons first others =>
    cases others using List.reverseRecOn with
    | nil => exact ⟨first, List.mem_cons_self, by simp [dotted, spaced], text List.mem_cons_self⟩
    | append_singleton front last =>
      have member : last ∈ first :: (front ++ [last]) := by simp
      refine ⟨last, member, ?_, text member⟩
      rw [dotted, spaced, List.map_append, List.flatMap_append, ← List.append_assoc]
      simp only [List.map_cons, List.map_nil, List.flatMap_cons, List.flatMap_nil, List.append_nil]
      rw [List.getLast?_append_of_ne_nil _ (List.cons_ne_nil _ _), ← List.singleton_append,
        List.getLast?_append_of_ne_nil _ (text member)]

/-- The names of queries with clean labels are such texts. -/
theorem Query.nameText (query : Query) (clean : ∀ label ∈ query.labels, CleanLabel label) :
    NameText (dotted query.labels) := by
  constructor
  · intro c member
    rcases mem_dotted member with rfl | ⟨label, inLabels, inside⟩
    · rfl
    · exact ((clean label inLabels).text c inside).1
  · obtain ⟨label, inLabels, last, -⟩ :=
      dotted_last (fun label member => (query.sizes label member).1) query.nonempty
    rw [last]
    intro ends
    exact ((clean label inLabels).text _ (List.mem_of_getLast? ends)).2 rfl

/-- Names are the same when their texts are. -/
theorem sameName_iff {labels labels' : List (List UInt8)} (nonempty : labels ≠ []) (nonempty' : labels' ≠ [])
    (clean : ∀ label ∈ labels, CleanLabel label) (clean' : ∀ label ∈ labels', CleanLabel label) :
    lower (dotted labels) = lower (dotted labels') ↔ SameName labels labels' := by
  have lowered (first : List UInt8) (others : List (List UInt8)) : lower (dotted (first :: others)) =
      spaced 0x2e (lower (labelText first)) (others.map fun label => lower (labelText label)) := by
    unfold dotted spaced
    rw [lower, List.map_append, List.map_flatMap, List.flatMap_map, List.flatMap_map]
    rfl
  have plain {label : List UInt8} (clean : CleanLabel label) : 0x2e ∉ lower (labelText label) := by
    intro member
    obtain ⟨c, inText, isDot⟩ := List.mem_map.mp member
    exact (clean.text c inText).2 ((towlower_eq (by decide)).mp isDot)
  have words {labels : List (List UInt8)} (clean : ∀ label ∈ labels, CleanLabel label) :
      ∀ word ∈ labels.map (fun label => lower (labelText label)), 0x2e ∉ word := by
    intro word member
    obtain ⟨label, inLabels, rfl⟩ := List.mem_map.mp member
    exact plain (clean label inLabels)
  obtain ⟨first, others, rfl⟩ := List.exists_cons_of_ne_nil nonempty
  obtain ⟨first', others', rfl⟩ := List.exists_cons_of_ne_nil nonempty'
  rw [lowered, lowered, SameName, List.map_cons, List.map_cons, List.cons.injEq]
  constructor
  · exact spaced_inj (words clean) (words clean')
  · rintro ⟨sameFirst, sameOthers⟩
    rw [sameFirst, sameOthers]

/-! ## Keys -/

theorem digit_bounds {n : Nat} {c : Char} (member : c ∈ decimal n) : 48 ≤ c.toNat ∧ c.toNat ≤ 57 := by
  have digit := isDigit_of_mem_decimal member
  simp only [Char.isDigit, Bool.and_eq_true, decide_eq_true_eq] at digit
  exact digit

theorem digit_toNat {n : Nat} {c : Char} (member : c ∈ decimal n) :
    (UInt16.ofNat c.toNat).toNat = c.toNat := by
  have bounds := digit_bounds member
  rw [UInt16.toNat_ofNat', Nat.mod_eq_of_lt (by omega)]

theorem toWString_inj {m n : Nat} (same : toWString m = toWString n) : m = n := by
  have back (k : Nat) : (toWString k).map (fun c => Char.ofNat c.toNat) = decimal k := by
    unfold toWString
    rw [List.map_map]
    conv_rhs => rw [← List.map_id (decimal k)]
    refine List.map_congr_left fun c member => ?_
    show Char.ofNat (UInt16.ofNat c.toNat).toNat = c
    rw [digit_toNat member, Char.ofNat_toNat]
  exact decimal_inj ((back m).symm.trans ((congrArg _ same).trans (back n)))

/-- No digit is the separator. -/
theorem hash_not_mem (n : Nat) : 0x23 ∉ toWString n := by
  intro member
  obtain ⟨c, inDigits, isHash⟩ := List.mem_map.mp member
  have bounds := digit_bounds inDigits
  have value := digit_toNat inDigits
  rw [isHash] at value
  have hash : (0x23 : UInt16).toNat = 35 := rfl
  omega

/-- **A key determines the normalised name and the type**: behind the last `#` stand digits alone. -/
theorem makeKey_inj {name name' : WString} {type type' : UInt16} :
    makeKey name type = makeKey name' type' ↔ normalizeName name = normalizeName name' ∧ type = type' := by
  constructor
  · intro same
    have reversed := congrArg List.reverse same
    simp only [makeKey, List.reverse_append, List.reverse_cons, List.append_assoc,
      List.singleton_append] at reversed
    obtain ⟨types, names⟩ := append_separator_inj (fun member => hash_not_mem _ (List.mem_reverse.mp member))
      (fun member => hash_not_mem _ (List.mem_reverse.mp member)) reversed
    exact ⟨List.reverse_injective names, UInt16.toNat_inj.mp (toWString_inj (List.reverse_injective types))⟩
  · rintro ⟨names, rfl⟩
    rw [makeKey, makeKey, names]

/-- The key of an accepted query. -/
theorem Query.key_name (query : Query) (clean : ∀ label ∈ query.labels, CleanLabel label) :
    normalizeName (normalizeName (dotted query.labels)) = lower (dotted query.labels) := by
  have text := query.nameText clean
  have once : normalizeName (dotted query.labels) = lower (dotted query.labels) := by
    simpa using normalizeName_text text 0
  have twice : normalizeName (lower (dotted query.labels)) = lower (lower (dotted query.labels)) := by
    simpa using normalizeName_text text.lower 0
  rw [once, twice, lower_lower]

/-! ## Main result -/

/-- **Questions and keys are exact.**  A packet is accepted exactly when it is a query.  For queries
whose labels are ASCII without dot or whitespace, two packets share a key exactly when their names
are equal label by label, ignoring case, and their types are equal; a packet and an event share one
exactly when the event's text, without its trailing dots, is the packet's name, ignoring case, and
their types are equal. -/
theorem questions_exact :
    (∀ packet, (parseQuestion packet).isSome = true ↔ ∃ query : Query, query.bytes = packet) ∧
    (∀ (query query' : Query) (question question' : Question), (∀ label ∈ query.labels, CleanLabel label) →
      (∀ label ∈ query'.labels, CleanLabel label) → parseQuestion query.bytes = some question →
        parseQuestion query'.bytes = some question' →
          (makeKey question.name question.type = makeKey question'.name question'.type ↔
            SameName query.labels query'.labels ∧ query.type = query'.type)) ∧
    (∀ (query : Query) (question : Question) (text : WString) (dots : Nat) (type : UInt16),
      (∀ label ∈ query.labels, CleanLabel label) → NameText text → parseQuestion query.bytes = some question →
        (makeKey question.name question.type = makeKey (text ++ List.replicate dots 0x2e) type ↔
          lower (dotted query.labels) = lower text ∧ query.type = type)) := by
  refine ⟨parseQuestion_isSome_iff, ?_, ?_⟩
  · intro query query' question question' clean clean' read read'
    obtain rfl := Option.some.inj (query.parse.symm.trans read)
    obtain rfl := Option.some.inj (query'.parse.symm.trans read')
    rw [makeKey_inj, query.key_name clean, query'.key_name clean',
      sameName_iff query.nonempty query'.nonempty clean clean']
  · intro query question text dots type clean nameText read
    obtain rfl := Option.some.inj (query.parse.symm.trans read)
    rw [makeKey_inj, query.key_name clean, normalizeName_text nameText]

def sampleHeader : List.Vector UInt8 12 := ⟨[0, 7, 1, 0, 0, 1, 0, 0, 0, 0, 0, 0], rfl⟩

theorem sampleHeader_announced : sampleHeader.get 4 = 0 ∧ sampleHeader.get 5 = 1 := ⟨rfl, rfl⟩

/-- A query for `aB.c`, type 1. -/
def sampleQuery : Query where
  header := sampleHeader
  labels := [[0x61, 0x42], [0x63]]
  typeHigh := 0
  typeLow := 1
  cls := ⟨[0, 1], rfl⟩
  trailing := []
  announced := sampleHeader_announced
  nonempty := by simp
  sizes := by decide
  short := by decide

/-- The event `Ab.C..` of type 1 has its key, and the event `Ab.C..` of type 28 has not. -/
theorem questions_exact_sample :
    makeKey (normalizeName (dotted sampleQuery.labels)) sampleQuery.type =
        makeKey ([0x41, 0x62, 0x2e, 0x43] ++ List.replicate 2 0x2e) 1 ∧
      makeKey (normalizeName (dotted sampleQuery.labels)) sampleQuery.type ≠
        makeKey ([0x41, 0x62, 0x2e, 0x43] ++ List.replicate 2 0x2e) 28 := by
  have clean : ∀ label ∈ sampleQuery.labels, CleanLabel label := by
    intro label mem
    simp only [sampleQuery, List.mem_cons, List.not_mem_nil, or_false] at mem
    rcases mem with rfl | rfl <;> exact List.all_iff_forall_prop.mp (by decide)
  have text : NameText [0x41, 0x62, 0x2e, 0x43] := ⟨List.all_iff_forall_prop.mp (by decide), by decide⟩
  refine ⟨?_, fun same => ?_⟩
  · exact (questions_exact.2.2 sampleQuery _ _ 2 1 clean text sampleQuery.parse).mpr ⟨by decide, rfl⟩
  · exact absurd ((questions_exact.2.2 sampleQuery _ _ 2 28 clean text sampleQuery.parse).mp same).2
      (by decide)

end ProgramSplit.Dns
