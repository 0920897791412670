/-
# Dns.Response — the lifetimes of a response's records

`read16`, `skipDnsName` and `zeroResponseTtls` of `dns-wire.h`, on the bytes of the packet.  Every access is
checked: a read or write outside the packet is a `Fault`, and so is a loop that has not ended after one turn
for each byte.  Over them stands the grammar of a response: a `Message` is a header, the announced questions
and records, and whatever follows.

* `skipDnsName_spec`, `zeroRecord_spec` — what one name and one record do, accepted or not.
* `Message.bytes_injective` — a packet spells one message at most.
* `zeroResponseTtls_exact` — **no fault; accepted are exactly the messages; only lifetimes change.**
-/
import Mathlib.Data.Vector.Basic
import Mathlib.Tactic.Common

namespace ProgramSplit.Dns.Response

set_option autoImplicit false

/-! ## The code -/

inductive Fault
  | outside
  | endless
  deriving DecidableEq, Repr

/-- `packet[offset]` -/
def byteAt (packet : List UInt8) (offset : Nat) : Except Fault UInt8 :=
  match packet[offset]? with
  | some byte => .ok byte
  | none => .error .outside

def read16 (packet : List UInt8) (offset : Nat) : Except Fault Nat := do
  let high ← byteAt packet offset
  let low ← byteAt packet (offset + 1)
  return high.toNat <<< 8 ||| low.toNat

/-- `std::fill(packet.begin() + first, packet.begin() + last, 0)` -/
def fillZero (packet : List UInt8) (first last : Nat) : Except Fault (List UInt8) :=
  if first ≤ last ∧ last ≤ packet.length then
    .ok (packet.take first ++ List.replicate (last - first) 0 ++ packet.drop last)
  else .error .outside

/-- The offset behind the name, and whether there was one. -/
def skipDnsName (packet : List UInt8) : (turns offset : Nat) → Except Fault (Bool × Nat)
  | 0, _ => .error .endless
  | turns + 1, offset =>
    if packet.length ≤ offset then .ok (false, offset)
    else
      match byteAt packet offset with
      | .error fault => .error fault
      | .ok length =>
        if length = 0 then .ok (true, offset + 1)
        else if length &&& 0xc0 = 0xc0 then
          if packet.length ≤ offset + 1 then .ok (false, offset + 1) else .ok (true, offset + 2)
        else if length &&& 0xc0 ≠ 0 ∨ packet.length < offset + 1 + length.toNat then .ok (false, offset + 1)
        else skipDnsName packet turns (offset + 1 + length.toNat)

/-- One turn of the loop over the questions: the offset behind the question, if there is one. -/
def skipQuestion (packet : List UInt8) (offset : Nat) : Except Fault (Option Nat) := do
  let (named, offset) ← skipDnsName packet (packet.length + 1) offset
  if named = false ∨ packet.length < offset + 4 then return none
  return some (offset + 4)

def skipQuestions (packet : List UInt8) : (questions offset : Nat) → Except Fault (Option Nat)
  | 0, offset => .ok (some offset)
  | questions + 1, offset =>
    match skipQuestion packet offset with
    | .error fault => .error fault
    | .ok none => .ok none
    | .ok (some offset) => skipQuestions packet questions offset

def kOpt : Nat := 41

/-- The fixed fields of a record and its data, behind the name. -/
def zeroFields (packet : List UInt8) (offset : Nat) : Except Fault (Option Nat × List UInt8) := do
  let type ← read16 packet offset
  let packet ← if type ≠ kOpt then fillZero packet (offset + 4) (offset + 8) else .ok packet
  let dataLength ← read16 packet (offset + 8)
  if packet.length < offset + 10 + dataLength then return (none, packet)
  return (some (offset + 10 + dataLength), packet)

/-- One turn of the loop over the records. -/
def zeroRecord (packet : List UInt8) (offset : Nat) : Except Fault (Option Nat × List UInt8) := do
  let (named, offset) ← skipDnsName packet (packet.length + 1) offset
  if named = false ∨ packet.length < offset + 10 then return (none, packet)
  zeroFields packet offset

def zeroRecords : (records : Nat) → (packet : List UInt8) → (offset : Nat) → Except Fault (Bool × List UInt8)
  | 0, packet, _ => .ok (true, packet)
  | records + 1, packet, offset =>
    match zeroRecord packet offset with
    | .error fault => .error fault
    | .ok (none, packet) => .ok (false, packet)
    | .ok (some offset, packet) => zeroRecords records packet offset

/-- Whether the packet was accepted, and the packet afterwards. -/
def zeroResponseTtls (packet : List UInt8) : Except Fault (Bool × List UInt8) :=
  if packet.length < 12 then .ok (false, packet)
  else do
    let questions ← read16 packet 4
    let records := (← read16 packet 6) + (← read16 packet 8) + (← read16 packet 10)
    match ← skipQuestions packet questions 12 with
    | none => return (false, packet)
    | some offset => zeroRecords records packet offset

/-! ## The grammar -/

/-- Labels up to the root or to a compression pointer. -/
inductive IsName : List UInt8 → Prop
  | root : IsName [0]
  | pointer {high : UInt8} (low : UInt8) (marked : high &&& 0xc0 = 0xc0) : IsName [high, low]
  | label {length : UInt8} {body rest : List UInt8} (nonzero : length ≠ 0) (plain : length &&& 0xc0 = 0)
      (size : body.length = length.toNat) (named : IsName rest) : IsName (length :: (body ++ rest))

/-- The number of two bytes in network order. -/
def number (high low : UInt8) : Nat :=
  high.toNat * 256 + low.toNat

structure Question where
  name : List UInt8
  fields : List.Vector UInt8 4
  named : IsName name

def Question.bytes (question : Question) : List UInt8 :=
  question.name ++ question.fields.toList

/-- A record: name, type, class, lifetime, and data with its length. -/
structure Record where
  name : List UInt8
  typeHigh : UInt8
  typeLow : UInt8
  cls : List.Vector UInt8 2
  ttl : List.Vector UInt8 4
  lengthHigh : UInt8
  lengthLow : UInt8
  data : List UInt8
  named : IsName name
  size : data.length = number lengthHigh lengthLow

def Record.type (record : Record) : Nat :=
  number record.typeHigh record.typeLow

def Record.fixed (record : Record) : List UInt8 :=
  record.typeHigh :: record.typeLow ::
    (record.cls.toList ++ (record.ttl.toList ++ [record.lengthHigh, record.lengthLow]))

def Record.bytes (record : Record) : List UInt8 :=
  record.name ++ (record.fixed ++ record.data)

/-- The record without its lifetime, unless it is an OPT record. -/
def Record.zeroed (record : Record) : Record :=
  if record.type = kOpt then record else { record with ttl := List.Vector.replicate 4 0 }

structure Message where
  header : List.Vector UInt8 12
  questions : List Question
  records : List Record
  trailing : List UInt8
  announcedQuestions : questions.length = number (header.get 4) (header.get 5)
  announcedRecords : records.length = number (header.get 6) (header.get 7) + number (header.get 8)
    (header.get 9) +
    number (header.get 10) (header.get 11)

def Message.bytes (message : Message) : List UInt8 :=
  message.header.toList ++ (message.questions.flatMap Question.bytes ++
    (message.records.flatMap Record.bytes ++ message.trailing))

def Message.zeroed (message : Message) : Message :=
  { message with
    records := message.records.map Record.zeroed
    announcedRecords := by rw [List.length_map, message.announcedRecords] }

/-- The place is a byte of the lifetime of a record that is not an OPT record. -/
def InTtl : (records : List Record) → (offset place : Nat) → Prop
  | [], _, _ => False
  | record :: records, offset, place =>
    (record.type ≠ kOpt ∧ offset + record.name.length + 4 ≤ place ∧ place < offset + record.name.length + 8) ∨
      InTtl records (offset + record.bytes.length) place

def Message.ttlByte (message : Message) (place : Nat) : Prop :=
  InTtl message.records (12 + (message.questions.flatMap Question.bytes).length) place

/-! ## Names -/

/-- A name stands at the beginning. -/
def HasName (bytes : List UInt8) : Prop :=
  ∃ name rest, bytes = name ++ rest ∧ IsName name

variable (front : List UInt8)

theorem byteAt_append (byte : UInt8) (rest : List UInt8) :
    byteAt (front ++ byte :: rest) front.length = .ok byte := by
  simp [byteAt]

/-- One turn of the loop over labels. -/
theorem skipDnsName_cons (turns : Nat) (length : UInt8) (tail : List UInt8) :
    skipDnsName (front ++ length :: tail) (turns + 1) front.length =
      if length = 0 then .ok (true, front.length + 1)
      else if length &&& 0xc0 = 0xc0 then
        if tail = [] then .ok (false, front.length + 1) else .ok (true, front.length + 2)
      else if length &&& 0xc0 ≠ 0 ∨ tail.length < length.toNat then .ok (false, front.length + 1)
      else skipDnsName (front ++ length :: tail) turns (front.length + 1 + length.toNat) := by
  have single : (front ++ length :: tail).length ≤ front.length + 1 ↔ tail = [] := by
    simp
  have short : (front ++ length :: tail).length < front.length + 1 + length.toNat ↔
      tail.length < length.toNat := by
    simp only [List.length_append, List.length_cons]
    omega
  rw [skipDnsName, if_neg (by simp), byteAt_append]
  simp only [single, short]

/-- Behind a label the loop goes on as if the packet's front ended there. -/
theorem skipDnsName_behind (turns : Nat) {length : UInt8} {body : List UInt8}
    (size : body.length = length.toNat)
    (rest : List UInt8) : skipDnsName (front ++ length :: (body ++ rest)) turns
    (front.length + 1 + length.toNat) =
      skipDnsName ((front ++ length :: body) ++ rest) turns (front ++ length :: body).length := by
  rw [List.append_assoc, List.cons_append, List.length_append, List.length_cons, size,
    Nat.add_assoc, Nat.add_comm 1]

/-- A name is found where it stands. -/
theorem IsName.skipped {name : List UInt8} (named : IsName name) : ∀ (turns : Nat) (front rest : List UInt8),
    name.length ≤ turns →
      skipDnsName (front ++ (name ++ rest)) turns front.length = .ok (true, front.length + name.length) := by
  induction named with
  | root =>
    intro turns front rest bound
    obtain ⟨turns, rfl⟩ := Nat.exists_eq_succ_of_ne_zero (Nat.ne_of_gt bound)
    exact (skipDnsName_cons front turns 0 rest).trans (if_pos rfl)
  | pointer low marked =>
    intro turns front rest bound
    obtain ⟨turns, rfl⟩ := Nat.exists_eq_succ_of_ne_zero (Nat.ne_of_gt (Nat.zero_lt_of_lt bound))
    refine (skipDnsName_cons front turns _ (low :: rest)).trans ?_
    rw [if_neg (fun zero => absurd (zero ▸ marked) (by decide)), if_pos marked, if_neg (List.cons_ne_nil _ _)]
    rfl
  | @label length body name nonzero plain size named ih =>
    intro turns front rest bound
    simp only [List.length_cons, List.length_append] at bound
    obtain ⟨turns, rfl⟩ := Nat.exists_eq_succ_of_ne_zero (Nat.ne_of_gt (Nat.zero_lt_of_lt bound))
    have fits : ¬ (length &&& 0xc0 ≠ 0 ∨ (body ++ (name ++ rest)).length < length.toNat) := by
      rw [not_or, not_not, List.length_append]
      exact ⟨plain, by omega⟩
    rw [List.cons_append, List.append_assoc, skipDnsName_cons, if_neg nonzero, if_neg (by rw [plain]; decide),
      if_neg fits, skipDnsName_behind front turns size, ih turns _ rest (by omega)]
    simp only [List.length_append, List.length_cons]
    congr 2
    omega

/-- A name is known from what it begins. -/
theorem IsName.unique {first second rest rest' : List UInt8} (named : IsName first) (other : IsName second)
    (same : first ++ rest = second ++ rest') : first = second ∧ rest = rest' := by
  have found := named.skipped (first.length + second.length) [] rest (Nat.le_add_right _ _)
  rw [same, other.skipped _ [] rest' (Nat.le_add_left _ _)] at found
  simp only [Except.ok.injEq, Prod.mk.injEq, true_and, List.length_nil, Nat.zero_add] at found
  exact List.append_inj same found.symm

/-- **What the loop over labels finds**: the name that stands there, or that none does. -/
theorem skipDnsName_spec : ∀ (turns : Nat) (front back : List UInt8), back.length < turns →
    (∃ name rest, back = name ++ rest ∧ IsName name ∧
        skipDnsName (front ++ back) turns front.length = .ok (true, front.length + name.length)) ∨
      (¬ HasName back ∧ ∃ next, skipDnsName (front ++ back) turns front.length = .ok (false, next)) := by
  have fails {turns next : Nat} {front back : List UInt8} (bound : back.length < turns)
      (found : skipDnsName (front ++ back) turns front.length = .ok (false, next)) :
      ¬ HasName back ∧ ∃ next, skipDnsName (front ++ back) turns front.length = .ok (false, next) := by
    -- a name would have been found
    refine ⟨?_, next, found⟩
    rintro ⟨name, rest, rfl, named⟩
    rw [List.length_append] at bound
    rw [named.skipped turns front rest (by omega)] at found
    cases found
  intro turns
  induction turns with
  | zero => exact fun _ back bound => absurd bound (Nat.not_lt_zero _)
  | succ turns ih =>
    intro front back bound
    cases back with
    | nil => exact .inr (fails bound (if_pos (by simp)))
    | cons length tail =>
      have turn := skipDnsName_cons front turns length tail
      split_ifs at turn with zero marked single bad
      · subst zero
        exact .inl ⟨[0], tail, rfl, .root, turn⟩
      · exact .inr (fails bound turn)
      · obtain ⟨low, rest, rfl⟩ := List.exists_cons_of_ne_nil single
        exact .inl ⟨[length, low], rest, rfl, .pointer low marked, turn⟩
      · exact .inr (fails bound turn)
      · -- a label: what follows it decides
        rw [not_or, not_not, Nat.not_lt] at bad
        have size : (tail.take length.toNat).length = length.toNat := List.length_take_of_le bad.2
        have behind := skipDnsName_behind front turns size (tail.drop length.toNat)
        rw [List.take_append_drop] at behind
        rw [behind] at turn
        have shorter : (tail.drop length.toNat).length < turns := by
          rw [List.length_drop]
          simp only [List.length_cons] at bound
          omega
        rcases ih (front ++ length :: tail.take length.toNat) _ shorter with
          ⟨name, rest, split, named, found⟩ | ⟨-, next, found⟩
        · refine .inl ⟨length :: (tail.take length.toNat ++ name), rest, ?_, .label zero bad.1 size named, ?_⟩
          · rw [List.cons_append, List.append_assoc, ← split, List.take_append_drop]
          · rw [turn, found]
            simp only [List.length_append, List.length_cons]
            congr 2
            omega
        · exact .inr (fails bound (turn.trans found))

/-! ## Questions and records -/

theorem shift_or (high low : UInt8) : high.toNat <<< 8 ||| low.toNat = number high low := by
  rw [← Nat.shiftLeft_add_eq_or_of_lt low.toNat_lt, Nat.shiftLeft_eq]
  rfl

theorem read16_append (high low : UInt8) (rest : List UInt8) :
    read16 (front ++ high :: low :: rest) front.length = .ok (number high low) := by
  have second : byteAt (front ++ high :: low :: rest) (front.length + 1) = .ok low := by
    simpa using byteAt_append (front ++ [high]) low rest
  rw [read16, byteAt_append, second, ← shift_or]
  rfl

theorem skipQuestion_spec (front back : List UInt8) :
    (∃ (question : Question) (rest : List UInt8), back = question.bytes ++ rest ∧
        skipQuestion (front ++ back) front.length = .ok (some (front.length + question.bytes.length))) ∨
      ((¬ ∃ (question : Question) (rest : List UInt8), back = question.bytes ++ rest) ∧
        skipQuestion (front ++ back) front.length = .ok none) := by
  unfold skipQuestion
  have turns : back.length < (front ++ back).length + 1 := by
    rw [List.length_append]
    omega
  rcases skipDnsName_spec _ front back turns with ⟨name, rest, rfl, named, found⟩ | ⟨none, next, found⟩
  · rw [found]
    dsimp only [bind, Except.bind]
    by_cases short : rest.length < 4
    · refine .inr ⟨?_, if_pos (.inr ?_)⟩
      · rintro ⟨question, others, shape⟩
        rw [Question.bytes, List.append_assoc] at shape
        obtain ⟨-, rfl⟩ := named.unique question.named shape
        rw [List.length_append, List.Vector.toList_length] at short
        omega
      · simp only [List.length_append]
        omega
    · match rest, short with
      | a :: b :: c :: d :: others, _ =>
        refine .inl ⟨⟨name, ⟨[a, b, c, d], rfl⟩, named⟩,
          others, by simp [Question.bytes, List.Vector.toList], ?_⟩
        simp [Question.bytes, List.Vector.toList, Nat.add_assoc]
        rfl
      | [], short => exact absurd (by simp) short
      | [_], short => exact absurd (by simp) short
      | [_, _], short => exact absurd (by simp) short
      | [_, _, _], short => exact absurd (by simp) short
  · refine .inr ⟨?_, by rw [found]; dsimp only [bind, Except.bind]; exact if_pos (.inl rfl)⟩
    rintro ⟨question, rest, rfl⟩
    exact none ⟨question.name, question.fields.toList ++ rest, by simp [Question.bytes], question.named⟩

theorem fillZero_append (ttl : List.Vector UInt8 4) (rest : List UInt8) :
    fillZero (front ++ (ttl.toList ++ rest)) front.length (front.length + 4) =
      .ok (front ++ ((List.Vector.replicate 4 0).toList ++ rest)) := by
  have zeros : (List.Vector.replicate 4 (0 : UInt8)).toList = List.replicate 4 0 := rfl
  unfold fillZero
  simp [List.drop_append]

/-- The ten bytes between the name of a record and its data. -/
def spellFields (t₀ t₁ : UInt8) (cls : List.Vector UInt8 2) (ttl : List.Vector UInt8 4) (high low : UInt8) :
    List UInt8 :=
  t₀ :: t₁ :: (cls.toList ++ (ttl.toList ++ [high, low]))

section Fields

variable {t₀ t₁ high low : UInt8} {cls : List.Vector UInt8 2} {ttl : List.Vector UInt8 4}

theorem spellFields_length : (spellFields t₀ t₁ cls ttl high low).length = 10 := by
  simp [spellFields]

theorem spellFields_inj {t₀' t₁' high' low' : UInt8} {cls' : List.Vector UInt8 2} {ttl' : List.Vector UInt8 4}
    (same : spellFields t₀ t₁ cls ttl high low = spellFields t₀' t₁' cls' ttl' high' low') :
    t₀ = t₀' ∧ t₁ = t₁' ∧ cls = cls' ∧ ttl = ttl' ∧ high = high' ∧ low = low' := by
  simp only [spellFields, List.cons.injEq] at same
  obtain ⟨rfl, rfl, fields⟩ := same
  obtain ⟨sameCls, fields⟩ := List.append_inj fields (by simp)
  obtain ⟨sameTtl, sameLength⟩ := List.append_inj fields (by simp)
  simp only [List.cons.injEq, and_true] at sameLength
  exact ⟨rfl, rfl, List.Vector.eq _ _ sameCls, List.Vector.eq _ _ sameTtl, sameLength⟩

/-- Ten bytes at least are the fixed fields of a record. -/
theorem exists_spellFields {bytes : List UInt8} (long : 10 ≤ bytes.length) :
    ∃ t₀ t₁ cls ttl high low tail, bytes = spellFields t₀ t₁ cls ttl high low ++ tail := by
  match bytes, long with
  | t₀ :: t₁ :: c₀ :: c₁ :: l₀ :: l₁ :: l₂ :: l₃ :: high :: low :: tail, _ =>
    exact ⟨t₀, t₁, ⟨[c₀, c₁], rfl⟩, ⟨[l₀, l₁, l₂, l₃], rfl⟩, high, low, tail, rfl⟩

/-- The fixed fields behind a name: the lifetime goes, unless the type is OPT, and the data has to fit. -/
theorem zeroFields_append (tail : List UInt8) :
    zeroFields (front ++ (spellFields t₀ t₁ cls ttl high low ++ tail)) front.length =
      let left := if number t₀ t₁ = kOpt then ttl else List.Vector.replicate 4 0
      let packet := front ++ (spellFields t₀ t₁ cls left high low ++ tail)
      if tail.length < number high low then .ok (none, packet)
      else .ok (some (front.length + 10 + number high low), packet) := by
  have type : read16 (front ++ (spellFields t₀ t₁ cls ttl high low ++ tail)) front.length =
      .ok (number t₀ t₁) :=
    read16_append front t₀ t₁ _
  have read (ttl : List.Vector UInt8 4) :
      read16 (front ++ (spellFields t₀ t₁ cls ttl high low ++ tail))
        (front.length + 8) = .ok (number high low) := by
    simpa [spellFields] using read16_append (front ++ t₀ :: t₁ :: (cls.toList ++ ttl.toList)) high low tail
  have filled : fillZero (front ++ (spellFields t₀ t₁ cls ttl high low ++ tail)) (front.length + 4)
      (front.length + 8) = .ok (front ++ (spellFields t₀ t₁ cls (.replicate 4 0) high low ++ tail)) := by
    simpa [spellFields] using fillZero_append (front ++ t₀ :: t₁ :: cls.toList) ttl (high :: low :: tail)
  have room (ttl : List.Vector UInt8 4) : (front ++ (spellFields t₀ t₁ cls ttl high low ++ tail)).length <
      front.length + 10 + number high low ↔ tail.length < number high low := by
    rw [List.length_append, List.length_append, spellFields_length]
    omega
  unfold zeroFields
  rw [type]
  dsimp only [bind, Except.bind]
  by_cases opt : number t₀ t₁ = kOpt
  · rw [if_neg (not_not.mpr opt), if_pos opt, read]
    simp only [room]
    rfl
  · rw [if_pos opt, if_neg opt, filled]
    dsimp only
    rw [read]
    simp only [room]
    rfl

end Fields

theorem Question.unique {first second : Question} {rest rest' : List UInt8}
    (same : first.bytes ++ rest = second.bytes ++ rest') : first = second ∧ rest = rest' := by
  obtain ⟨name, fields, named⟩ := first
  obtain ⟨name', fields', named'⟩ := second
  simp only [Question.bytes, List.append_assoc] at same
  obtain ⟨rfl, behind⟩ := named.unique named' same
  obtain ⟨fieldsSame, rfl⟩ := List.append_inj behind (by simp)
  obtain rfl := List.Vector.eq _ _ fieldsSame
  exact ⟨rfl, rfl⟩

variable (record : Record)

theorem Record.fixed_length : record.fixed.length = 10 :=
  spellFields_length

theorem Record.unique {first second : Record} {rest rest' : List UInt8}
    (same : first.bytes ++ rest = second.bytes ++ rest') : first = second ∧ rest = rest' := by
  simp only [Record.bytes, List.append_assoc] at same
  obtain ⟨sameName, behind⟩ := first.named.unique second.named same
  obtain ⟨sameFixed, behind⟩ := List.append_inj behind (by rw [Record.fixed_length, Record.fixed_length])
  obtain ⟨name, t₀, t₁, cls, ttl, high, low, data, named, size⟩ := first
  obtain ⟨name', t₀', t₁', cls', ttl', high', low', data', named', size'⟩ := second
  obtain ⟨rfl, rfl, rfl, rfl, rfl, rfl⟩ := spellFields_inj sameFixed
  obtain ⟨sameData, rfl⟩ := List.append_inj behind (size.trans size'.symm)
  subst sameName sameData
  exact ⟨rfl, rfl⟩

/-- The bytes of a record without its lifetime. -/
theorem Record.zeroed_bytes : record.zeroed.bytes = record.name ++
    (spellFields record.typeHigh record.typeLow record.cls
    (if record.type = kOpt then record.ttl
      else .replicate 4 0) record.lengthHigh record.lengthLow ++ record.data) := by
  unfold Record.zeroed
  split <;> rfl

theorem Record.zeroed_length : record.zeroed.bytes.length = record.bytes.length := by
  unfold Record.zeroed
  split
  · rfl
  · simp only [Record.bytes, List.length_append, Record.fixed_length]

theorem Record.zeroed_zeroed : record.zeroed.zeroed = record.zeroed := by
  by_cases opt : record.type = kOpt
  · simp [Record.zeroed, opt]
  · have kept : ({ record with ttl := List.Vector.replicate 4 0 } : Record).type ≠ kOpt := opt
    rw [Record.zeroed, Record.zeroed, if_neg opt, if_neg kept]

/-- **What one turn over the records does.** -/
theorem zeroRecord_spec (front back : List UInt8) :
    (∃ (record : Record) (rest : List UInt8), back = record.bytes ++ rest ∧
        zeroRecord (front ++ back) front.length =
          .ok (some (front.length + record.bytes.length), front ++ (record.zeroed.bytes ++ rest))) ∨
      ((¬ ∃ (record : Record) (rest : List UInt8), back = record.bytes ++ rest) ∧
        ∃ packet, zeroRecord (front ++ back) front.length = .ok (none, packet)) := by
  unfold zeroRecord
  have turns : back.length < (front ++ back).length + 1 := by
    rw [List.length_append]
    omega
  rcases skipDnsName_spec _ front back turns with ⟨name, rest, rfl, named, found⟩ | ⟨none, next, found⟩
  · rw [found]
    dsimp only [bind, Except.bind]
    -- what stands behind the name of a record that begins here
    have behind : ∀ {record : Record} {others : List UInt8}, name ++ rest = record.bytes ++ others →
        rest = record.fixed ++ (record.data ++ others) := by
      intro record others shape
      rw [Record.bytes, List.append_assoc, List.append_assoc] at shape
      exact (named.unique record.named shape).2
    by_cases short : rest.length < 10
    · refine .inr ⟨?_, _, if_pos (.inr ?_)⟩
      · rintro ⟨record, others, shape⟩
        rw [behind shape, List.length_append, Record.fixed_length] at short
        omega
      · simp only [List.length_append]
        omega
    · obtain ⟨t₀, t₁, cls, ttl, high, low, tail, rfl⟩ := exists_spellFields (Nat.not_lt.mp short)
      have room : ¬ (true = false ∨ (front ++ (name ++ (spellFields t₀ t₁ cls ttl high low ++ tail))).length <
          front.length + name.length + 10) := by
        simp only [List.length_append, spellFields_length, Bool.true_eq_false, false_or]
        omega
      have step := @zeroFields_append (front ++ name) t₀ t₁ high low cls ttl tail
      rw [List.append_assoc, List.length_append] at step
      rw [if_neg room, step]
      by_cases fits : tail.length < number high low
      · refine .inr ⟨?_, _, if_pos fits⟩
        rintro ⟨record, others, shape⟩
        have fields := List.append_inj (behind shape) (by rw [spellFields_length, Record.fixed_length])
        obtain ⟨-, -, -, -, rfl, rfl⟩ := spellFields_inj fields.1
        rw [fields.2, List.length_append, record.size] at fits
        omega
      · have size : (tail.take (number high low)).length = number high low :=
          List.length_take_of_le (Nat.not_lt.mp fits)
        let record : Record := ⟨name, t₀, t₁, cls, ttl, high, low, tail.take (number high low), named, size⟩
        have bytes : record.bytes = name ++
          (spellFields t₀ t₁ cls ttl high low ++ tail.take (number high low)) := rfl
        refine .inl ⟨record, tail.drop (number high low), ?_, ?_⟩
        · rw [bytes]
          simp
        · have place : front.length + name.length + 10 + number high low =
              front.length + record.bytes.length := by
            simp only [bytes, List.length_append, spellFields_length, size]
            omega
          have zeroed := record.zeroed_bytes
          dsimp only [record] at zeroed
          rw [if_neg fits, place, zeroed]
          simp only [List.append_assoc, List.take_append_drop]
          rfl
  · refine .inr ⟨?_, front ++ back, by rw [found]; dsimp only [bind, Except.bind]; exact if_pos (.inl rfl)⟩
    rintro ⟨record, rest, rfl⟩
    exact none ⟨record.name, record.fixed ++ record.data ++ rest, by simp [Record.bytes], record.named⟩

/-! ## The loops -/

/-- So many items stand at the beginning. -/
def Holds {Item : Type} (spell : Item → List UInt8) (count : Nat) (bytes : List UInt8) : Prop :=
  ∃ (items : List Item) (rest : List UInt8), items.length = count ∧ bytes = items.flatMap spell ++ rest

/-- Behind an item that is known from its spelling, the others have to follow. -/
theorem Holds.behind {Item : Type} {spell : Item → List UInt8} {count : Nat} {item : Item} {rest : List UInt8}
    (unique : ∀ {other : Item} {rest' : List UInt8}, spell item ++ rest = spell other ++ rest' →
      item = other ∧ rest = rest')
    (holds : Holds spell (count + 1) (spell item ++ rest)) : Holds spell count rest := by
  obtain ⟨items, trailing, length, shape⟩ := holds
  cases items with
  | nil => cases length
  | cons first items =>
    rw [List.flatMap_cons, List.append_assoc] at shape
    exact ⟨items, trailing, Nat.succ.inj length, (unique shape).2⟩

theorem Holds.first {Item : Type} {spell : Item → List UInt8} {count : Nat} {bytes : List UInt8}
    (holds : Holds spell (count + 1) bytes) :
    ∃ (item : Item) (rest : List UInt8), bytes = spell item ++ rest := by
  obtain ⟨items, trailing, length, shape⟩ := holds
  cases items with
  | nil => cases length
  | cons first items => exact ⟨first, items.flatMap spell ++
      trailing, by rw [shape, List.flatMap_cons, List.append_assoc]⟩

/-- So many items are known from what they begin. -/
theorem items_unique {Item : Type} {spell : Item → List UInt8}
    (unique : ∀ {first second : Item} {rest rest' : List UInt8}, spell first ++ rest = spell second ++ rest' →
      first = second ∧ rest = rest') :
    ∀ {items items' : List Item} {rest rest' : List UInt8}, items.length = items'.length →
      items.flatMap spell ++ rest = items'.flatMap spell ++ rest' → items = items' ∧ rest = rest' := by
  intro items
  induction items with
  | nil =>
    intro items' rest rest' length same
    obtain rfl := List.length_eq_zero_iff.mp length.symm
    exact ⟨rfl, same⟩
  | cons item items ih =>
    intro items' rest rest' length same
    cases items' with
    | nil => cases length
    | cons item' items' =>
      rw [List.flatMap_cons, List.flatMap_cons, List.append_assoc, List.append_assoc] at same
      obtain ⟨rfl, behind⟩ := unique same
      obtain ⟨rfl, rfl⟩ := ih (Nat.succ.inj length) behind
      exact ⟨rfl, rfl⟩

/-- **The loop over the questions.** -/
theorem skipQuestions_spec : ∀ (count : Nat) (front back : List UInt8),
    (∃ (questions : List Question) (rest : List UInt8), questions.length = count ∧
        back = questions.flatMap Question.bytes ++ rest ∧ skipQuestions (front ++ back) count front.length =
          .ok (some (front.length + (questions.flatMap Question.bytes).length))) ∨
      (¬ Holds Question.bytes count back ∧ skipQuestions (front ++ back) count front.length = .ok none) := by
  intro count
  induction count with
  | zero => exact fun front back => .inl ⟨[], back, rfl, rfl, rfl⟩
  | succ count ih =>
    intro front back
    rw [skipQuestions]
    rcases skipQuestion_spec front back with ⟨question, rest, rfl, found⟩ | ⟨none, found⟩
    · rw [found, ← List.append_assoc, ← List.length_append]
      dsimp only
      rcases ih (front ++ question.bytes) rest with ⟨questions, trailing, length, rfl, later⟩ | ⟨none, later⟩
      · refine .inl ⟨question :: questions, trailing, congrArg Nat.succ length, ?_, ?_⟩
        · rw [List.flatMap_cons, List.append_assoc]
        · rw [later, List.flatMap_cons, List.length_append, List.length_append, Nat.add_assoc]
      · exact .inr ⟨fun holds => none (holds.behind fun same => Question.unique same), later⟩
    · rw [found]
      exact .inr ⟨fun holds => none holds.first, rfl⟩

/-- **The loop over the records.** -/
theorem zeroRecords_spec : ∀ (count : Nat) (front back : List UInt8),
    (∃ (records : List Record) (rest : List UInt8), records.length = count ∧
        back = records.flatMap Record.bytes ++ rest ∧ zeroRecords count (front ++ back) front.length =
          .ok (true, front ++ ((records.map Record.zeroed).flatMap Record.bytes ++ rest))) ∨
      (¬ Holds Record.bytes count back ∧ ∃ packet, zeroRecords count (front ++ back) front.length =
        .ok (false, packet)) := by
  intro count
  induction count with
  | zero => exact fun front back => .inl ⟨[], back, rfl, rfl, rfl⟩
  | succ count ih =>
    intro front back
    rw [zeroRecords]
    rcases zeroRecord_spec front back with ⟨record, rest, rfl, found⟩ | ⟨none, packet, found⟩
    · -- the record has been rewritten in place, and the next one begins where it began before
      have place : front.length + record.bytes.length = (front ++ record.zeroed.bytes).length := by
        rw [List.length_append, record.zeroed_length]
      rw [found, ← List.append_assoc front record.zeroed.bytes, place]
      dsimp only
      rcases ih (front ++ record.zeroed.bytes) rest with ⟨records, trailing, length, rfl,
        later⟩ | ⟨none, packet, later⟩
      · refine .inl ⟨record :: records, trailing, congrArg Nat.succ length, ?_, ?_⟩
        · rw [List.flatMap_cons, List.append_assoc]
        · rw [later, List.map_cons, List.flatMap_cons, List.append_assoc, List.append_assoc]
      · exact .inr ⟨fun holds => none (holds.behind fun same => Record.unique same), packet, later⟩
    · rw [found]
      exact .inr ⟨fun holds => none holds.first, packet, rfl⟩

/-! ## The whole packet -/

/-- The announced numbers, as the header spells them. -/
theorem read16_header (header : List.Vector UInt8 12) (back : List UInt8) :
    read16 (header.toList ++ back) 4 = .ok (number (header.get 4) (header.get 5)) ∧
      read16 (header.toList ++ back) 6 = .ok (number (header.get 6) (header.get 7)) ∧
        read16 (header.toList ++ back) 8 = .ok (number (header.get 8) (header.get 9)) ∧
          read16 (header.toList ++ back) 10 = .ok (number (header.get 10) (header.get 11)) := by
  match header with
  | ⟨[b₀, b₁, b₂, b₃, b₄, b₅, b₆, b₇, b₈, b₉, b₁₀, b₁₁], _⟩ =>
    exact ⟨read16_append [b₀, b₁, b₂, b₃] b₄ b₅ _, read16_append [b₀, b₁, b₂, b₃, b₄, b₅] b₆ b₇ _,
      read16_append [b₀, b₁, b₂, b₃, b₄, b₅, b₆, b₇] b₈ b₉ _,
      read16_append [b₀, b₁, b₂, b₃, b₄, b₅, b₆, b₇, b₈, b₉] b₁₀ b₁₁ _⟩

/-- **A message is accepted and loses its lifetimes; what is no message is refused.** -/
theorem zeroResponseTtls_spec (packet : List UInt8) :
    (∃ message : Message, message.bytes = packet ∧
      zeroResponseTtls packet = .ok (true, message.zeroed.bytes)) ∨
      ((¬ ∃ message : Message, message.bytes = packet) ∧ ∃ output, zeroResponseTtls packet =
        .ok (false, output)) := by
  unfold zeroResponseTtls
  by_cases short : packet.length < 12
  · refine .inr ⟨?_, packet, if_pos short⟩
    rintro ⟨message, rfl⟩
    simp only [Message.bytes, List.length_append, List.Vector.toList_length] at short
    omega
  obtain ⟨header, back, rfl⟩ : ∃ (header : List.Vector UInt8 12) (back : List UInt8),
      header.toList ++ back = packet :=
    ⟨⟨packet.take 12, by rw [List.length_take]; omega⟩, packet.drop 12, List.take_append_drop _ _⟩
  have headerUnique : ∀ {message : Message}, message.bytes = header.toList ++ back → message.header = header ∧
      message.questions.flatMap Question.bytes ++
        (message.records.flatMap Record.bytes ++ message.trailing) = back := by
    intro message same
    obtain ⟨sameHeader, behind⟩ := List.append_inj same (by simp)
    exact ⟨List.Vector.eq _ _ sameHeader, behind⟩
  obtain ⟨four, six, eight, ten⟩ := read16_header header back
  rw [if_neg short, four, six, eight, ten]
  dsimp only [bind, Except.bind]
  have twelve : header.toList.length = 12 := header.toList_length
  have questionsRead := skipQuestions_spec (number (header.get 4) (header.get 5)) header.toList back
  rw [twelve] at questionsRead
  rcases questionsRead with ⟨questions, behind, announced, rfl, found⟩ | ⟨none, found⟩
  · rw [found]
    dsimp only
    have place : 12 + (questions.flatMap Question.bytes).length =
        (header.toList ++ questions.flatMap Question.bytes).length := by
      rw [List.length_append, twelve]
    rw [← List.append_assoc, place]
    rcases zeroRecords_spec (number (header.get 6) (header.get 7) + number (header.get 8) (header.get 9) +
        number (header.get 10) (header.get
          11)) (header.toList ++ questions.flatMap Question.bytes) behind with
      ⟨records, trailing, announcedRecords, rfl, result⟩ | ⟨none, output, result⟩
    · refine .inl ⟨⟨header, questions, records, trailing, announced, announcedRecords⟩, ?_, ?_⟩
      · rw [Message.bytes, List.append_assoc]
      · rw [result, Message.bytes, List.append_assoc]
        rfl
    · refine .inr ⟨?_, output, result⟩
      rintro ⟨message, same⟩
      rw [List.append_assoc] at same
      obtain ⟨rfl, behindHeader⟩ := headerUnique same
      obtain ⟨-, rfl⟩ := items_unique Question.unique
        (message.announcedQuestions.trans announced.symm) behindHeader
      exact none ⟨message.records, message.trailing, message.announcedRecords, rfl⟩
  · rw [found]
    refine .inr ⟨?_, _, rfl⟩
    rintro ⟨message, same⟩
    obtain ⟨rfl, behindHeader⟩ := headerUnique same
    exact none ⟨message.questions, _, message.announcedQuestions, behindHeader.symm⟩

/-- A packet spells one message at most. -/
theorem Message.bytes_injective : Function.Injective Message.bytes := by
  intro first second same
  obtain ⟨sameHeader, behind⟩ := List.append_inj same (by simp)
  obtain ⟨header, questions, records, trailing, announcedQuestions, announcedRecords⟩ := first
  obtain ⟨header', questions', records', trailing', announcedQuestions', announcedRecords'⟩ := second
  obtain rfl := List.Vector.eq _ _ sameHeader
  obtain ⟨rfl, behind⟩ := items_unique Question.unique
    (announcedQuestions.trans announcedQuestions'.symm) behind
  obtain ⟨rfl, rfl⟩ := items_unique Record.unique (announcedRecords.trans announcedRecords'.symm) behind
  rfl

/-! ## Which bytes change -/

/-- The bytes of one record without its lifetime. -/
theorem Record.zeroed_byte (place : Nat) :
    record.zeroed.bytes[place]? =
      if record.type ≠ kOpt ∧ record.name.length + 4 ≤ place ∧ place < record.name.length + 8 then some 0
      else record.bytes[place]? := by
  by_cases opt : record.type = kOpt
  · rw [if_neg fun bad => bad.1 opt, Record.zeroed, if_pos opt]
  · obtain ⟨name, t₀, t₁, cls, ttl, high, low, data, named, size⟩ := record
    match cls, ttl with
    | ⟨[c₀, c₁], _⟩, ⟨[l₀, l₁, l₂, l₃], _⟩ =>
      rw [Record.zeroed, if_neg opt]
      show (name ++ (t₀ :: t₁ :: c₀ :: c₁ :: 0 :: 0 :: 0 :: 0 :: high :: low :: data))[place]? =
        if _ then _ else (name ++ (t₀ :: t₁ :: c₀ :: c₁ :: l₀ :: l₁ :: l₂ :: l₃ :: high :: low :: data))[place]?
      by_cases before : place < name.length
      · rw [if_neg (by dsimp only; omega), List.getElem?_append_left before, List.getElem?_append_left before]
      · obtain ⟨behind, rfl⟩ := Nat.exists_eq_add_of_le (Nat.not_lt.mp before)
        rw [List.getElem?_append_right (by omega), List.getElem?_append_right (by omega),
          Nat.add_sub_cancel_left]
        match behind with
        | 0 | 1 | 2 | 3 => rw [if_neg (by dsimp only; omega)]; rfl
        | 4 | 5 | 6 | 7 => rw [if_pos ⟨opt, by dsimp only; omega⟩]; rfl
        | n + 8 => rw [if_neg (by dsimp only; omega)]; rfl

theorem zeroed_records_length (records : List Record) :
    ((records.map Record.zeroed).flatMap Record.bytes).length = (records.flatMap Record.bytes).length := by
  induction records with
  | nil => rfl
  | cons record records ih =>
    rw [List.map_cons, List.flatMap_cons, List.flatMap_cons, List.length_append, List.length_append, ih,
      record.zeroed_length]

/-- The same at the record's place in the packet. -/
theorem Record.zeroed_byte_at (front back : List UInt8) (place : Nat) :
    (front ++ (record.zeroed.bytes ++ back))[place]? =
      if record.type ≠ kOpt ∧ front.length + record.name.length + 4 ≤ place ∧
          place < front.length + record.name.length + 8 then some 0
      else (front ++ (record.bytes ++ back))[place]? := by
  have long : record.name.length + 10 ≤ record.bytes.length := by
    rw [Record.bytes, List.length_append, List.length_append, record.fixed_length]
    omega
  by_cases before : place < front.length
  · rw [if_neg (by omega), List.getElem?_append_left before, List.getElem?_append_left before]
  · obtain ⟨behind, rfl⟩ := Nat.exists_eq_add_of_le (Nat.not_lt.mp before)
    have shift (bytes : List UInt8) : (front ++ bytes)[front.length + behind]? = bytes[behind]? := by
      rw [List.getElem?_append_right (by omega), Nat.add_sub_cancel_left]
    rw [shift, shift]
    by_cases inside : behind < record.bytes.length
    · rw [List.getElem?_append_left (by rw [record.zeroed_length]; exact inside),
        List.getElem?_append_left inside, record.zeroed_byte behind]
      have same : (record.type ≠ kOpt ∧ record.name.length + 4 ≤ behind ∧ behind < record.name.length + 8) ↔
          (record.type ≠ kOpt ∧ front.length + record.name.length + 4 ≤ front.length + behind ∧
            front.length + behind < front.length + record.name.length + 8) := by
        omega
      exact if_congr same rfl rfl
    · rw [if_neg (by omega), List.getElem?_append_right (by rw [record.zeroed_length]; omega),
        List.getElem?_append_right (by omega), record.zeroed_length]

/-- The bytes of the records without their lifetimes, at their places in the packet. -/
theorem zeroed_records_byte (place : Nat) (trailing : List UInt8) :
    ∀ (records : List Record) (front : List UInt8), (InTtl records front.length place →
      (front ++ ((records.map Record.zeroed).flatMap Record.bytes ++ trailing))[place]? = some 0) ∧
    (¬ InTtl records front.length place →
      (front ++ ((records.map Record.zeroed).flatMap Record.bytes ++ trailing))[place]? =
        (front ++ (records.flatMap Record.bytes ++ trailing))[place]?) := by
  intro records
  induction records with
  | nil =>
    intro front
    exact ⟨False.elim, fun _ => rfl⟩
  | cons record records ih =>
    intro front
    rw [List.map_cons, List.flatMap_cons, List.flatMap_cons, List.append_assoc, List.append_assoc]
    have here := record.zeroed_byte_at front ((records.map Record.zeroed).flatMap Record.bytes ++
      trailing) place
    obtain ⟨later, others⟩ := ih (front ++ record.bytes)
    simp only [List.length_append, List.append_assoc] at later others
    by_cases own : record.type ≠ kOpt ∧ front.length + record.name.length + 4 ≤ place ∧
        place < front.length + record.name.length + 8
    · rw [if_pos own] at here
      exact ⟨fun _ => here, fun outside => absurd (.inl own) outside⟩
    · rw [if_neg own] at here
      rw [here]
      exact ⟨fun inside => later (inside.resolve_left own), fun outside => others fun inside =>
        outside (.inr inside)⟩

theorem Message.zeroed_length (message : Message) : message.zeroed.bytes.length = message.bytes.length := by
  have records := zeroed_records_length message.records
  simp only [Message.bytes, Message.zeroed, List.length_append, records]

theorem Message.zeroed_zeroed (message : Message) : message.zeroed.zeroed = message.zeroed := by
  have same : (message.records.map Record.zeroed).map Record.zeroed = message.records.map Record.zeroed := by
    rw [List.map_map]
    exact List.map_congr_left fun record _ => record.zeroed_zeroed
  simp only [Message.zeroed, same]

theorem Message.zeroed_byte (message : Message) (place : Nat) :
    (message.ttlByte place → message.zeroed.bytes[place]? = some 0) ∧
      (¬ message.ttlByte place → message.zeroed.bytes[place]? = message.bytes[place]?) := by
  have bytes := zeroed_records_byte place message.trailing message.records
    (message.header.toList ++ message.questions.flatMap Question.bytes)
  rw [List.length_append, List.Vector.toList_length, List.append_assoc, List.append_assoc] at bytes
  exact bytes

/-! ## Main result -/

/-- **Lifetimes are zeroed and nothing else.**  Every packet is answered without a fault, accepted
exactly when it spells a message; an accepted packet keeps its length and every byte outside the
lifetimes of records that are not OPT records, those lifetimes are zero, and a second pass changes
nothing. -/
theorem zeroResponseTtls_exact (packet : List UInt8) :
    ∃ accepted output, zeroResponseTtls packet = .ok (accepted, output) ∧
      (accepted = true ↔ ∃ message : Message, message.bytes = packet) ∧
      ∀ message : Message, message.bytes = packet →
        output.length = packet.length ∧
        (∀ place, message.ttlByte place → output[place]? = some 0) ∧
        (∀ place, ¬ message.ttlByte place → output[place]? = packet[place]?) ∧
        zeroResponseTtls output = .ok (true, output) := by
  rcases zeroResponseTtls_spec packet with ⟨message, rfl, result⟩ | ⟨none, output, result⟩
  · refine ⟨true, message.zeroed.bytes, result, iff_of_true rfl ⟨message, rfl⟩, fun other same => ?_⟩
    obtain rfl := Message.bytes_injective same
    refine ⟨other.zeroed_length, fun place => (other.zeroed_byte place).1,
      fun place => (other.zeroed_byte place).2, ?_⟩
    rcases zeroResponseTtls_spec other.zeroed.bytes with ⟨again, same, result⟩ | ⟨none, -⟩
    · obtain rfl := Message.bytes_injective same
      rw [result, other.zeroed_zeroed]
    · exact absurd ⟨other.zeroed, rfl⟩ none
  · exact ⟨false, output, result, iff_of_false Bool.false_ne_true none, fun message same =>
      absurd ⟨message, same⟩ none⟩

/-- A response with one address record and an OPT record: the first lifetime goes, the second stays. -/
example : zeroResponseTtls ([0, 7, 0x80, 0, 0, 1, 0, 1, 0, 0, 0, 1] ++ [1, 0x61, 0, 0, 1, 0, 1] ++
      [0xc0, 12, 0, 1, 0, 1, 0, 0, 1, 0x2c, 0, 4, 10, 0, 0, 1] ++ [0, 0, 41, 4, 0xd0, 0, 0, 0x80, 0, 0, 0]) =
    .ok (true, [0, 7, 0x80, 0, 0, 1, 0, 1, 0, 0, 0, 1] ++ [1, 0x61, 0, 0, 1, 0, 1] ++
      [0xc0, 12, 0, 1, 0, 1, 0, 0, 0, 0, 0, 4, 10, 0, 0, 1] ++ [0, 0, 41, 4, 0xd0, 0, 0, 0x80, 0, 0, 0]) := by
  decide +kernel

end ProgramSplit.Dns.Response
