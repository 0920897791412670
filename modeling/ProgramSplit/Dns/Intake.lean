/-
# Dns.Intake — from a delivered query event to the hints

`DnsTrace::processEvent` of `dns-dispatcher.cpp` for a DNS Client query event: it
reads the two properties (`eventProperty`), cuts the name at its terminator, and
passes name and type to `Hints::add`. An event that fails a shape check is left out
without a word to the hints.

* `processEvent_passed_iff` — the event reaches `Hints::add` exactly when its
  properties are `Intact`.
* `processEvent_attributed_iff` — attribution is recorded under the key `take`
  computes for a packet of the event's name and type, or direct routing is refused
  for a lifetime, in every state: exactly when the event is `Intact` and its
  normalised name is normal (`take` normalises the packet's name twice).
-/
import ProgramSplit.Dns.Hints
import ProgramSplit.Dns.Wire

namespace ProgramSplit.Dns

set_option autoImplicit false

/-- A DNS Client query event as TDH gives it: the bytes of the two properties, none
where TDH fails. -/
structure QueryEvent where
  name : Option (List UInt8)
  type : Option (List UInt8)
  deriving DecidableEq, Repr

/-- The largest property `eventProperty` reads. -/
def maxProperty : Nat := 4096

def eventProperty : Option (List UInt8) → List UInt8
  | none => []
  | some value => if maxProperty < value.length then [] else value

/-- `memcpy` into wide characters: little-endian pairs. -/
def units : List UInt8 → WString
  | low :: high :: rest => (wide high <<< 8 ||| wide low) :: units rest
  | _ => []

/-- `memcpy` of at most two bytes into a zeroed `uint16_t`. -/
def typeOf : List UInt8 → UInt16
  | [] => 0
  | [low] => wide low
  | low :: high :: _ => wide high <<< 8 ||| wide low

/-- The event's QueryName, up to its terminator if it has one. -/
def QueryEvent.queryName (e : QueryEvent) : WString :=
  (units (e.name.getD [])).takeWhile (· != 0)

/-- The event's QueryType. -/
def QueryEvent.queryType (e : QueryEvent) : UInt16 :=
  typeOf (e.type.getD [])

/-- What `processEvent` passes to `Hints::add`, if it does. -/
def QueryEvent.passed (e : QueryEvent) : Option (WString × UInt16) :=
  let nameData := eventProperty e.name
  let typeData := eventProperty e.type
  if nameData.length < 2 ∨ typeData = [] then none
  else if nameData.length % 2 ≠ 0 then none
  else
    let name := units nameData
    match name.findIdx? (· == 0) with
    | none => none
    | some terminator =>
      if 253 < terminator then none else some (name.take terminator, typeOf typeData)

/-- `processEvent` on a query event of a process whose image is `path` (empty when the
process could not be identified). -/
def Hints.processEvent (h : Hints) (e : QueryEvent) (path : WString) (now : Nat) : Hints :=
  match e.passed with
  | none => h
  | some (name, type) => (h.addResolved name type (h.classify path) now).1

/-! ## The shape checks -/

/-- The properties of an event that reaches the hints. -/
structure QueryEvent.Intact (e : QueryEvent) : Prop where
  name : ∃ bytes, e.name = some bytes ∧ bytes.length ≤ maxProperty ∧ bytes.length % 2 = 0 ∧
    ∃ i, i ≤ 253 ∧ (units bytes)[i]? = some 0
  type : ∃ bytes, e.type = some bytes ∧ bytes ≠ [] ∧ bytes.length ≤ maxProperty

theorem eventProperty_of_le {bytes : List UInt8} (small : bytes.length ≤ maxProperty) :
    eventProperty (some bytes) = bytes := by
  simp [eventProperty, Nat.not_lt.mpr small]

/-- A property that was read is the event's own. -/
theorem eventProperty_ne_nil {value : Option (List UInt8)} (read : eventProperty value ≠ []) :
    ∃ bytes, value = some bytes ∧ bytes.length ≤ maxProperty ∧ eventProperty value = bytes := by
  cases value with
  | none => exact absurd rfl read
  | some bytes =>
    by_cases small : bytes.length ≤ maxProperty
    · exact ⟨bytes, rfl, small, eventProperty_of_le small⟩
    · simp [eventProperty, Nat.not_le.mp small] at read

theorem units_length : ∀ bytes : List UInt8, (units bytes).length = bytes.length / 2
  | [] => rfl
  | [_] => by simp [units]
  | _ :: _ :: rest => by
    simp only [units, List.length_cons, units_length rest]
    omega

/-- Cutting at the first terminator is reading up to it. -/
theorem take_findIdx {name : WString} {terminator : Nat}
    (found : name.findIdx? (· == 0) = some terminator) :
    name.take terminator = name.takeWhile (· != 0) := by
  induction name generalizing terminator with
  | nil => simp at found
  | cons c rest ih =>
    rw [List.findIdx?_cons] at found
    by_cases zero : c = 0
    · subst zero
      simp at found
      subst found
      simp
    · simp only [beq_iff_eq, zero, if_false, Option.map_eq_some_iff] at found
      obtain ⟨i, found, rfl⟩ := found
      simp [zero, ih found]

theorem QueryEvent.Intact.passed {e : QueryEvent} (intact : e.Intact) :
    e.passed = some (e.queryName, e.queryType) := by
  obtain ⟨⟨name, hname, small, even, i, near, zero⟩, ⟨type, htype, some_, smallType⟩⟩ := intact
  have bound := (List.getElem?_eq_some_iff.mp zero).1
  have length := units_length name
  have found : ∃ terminator, (units name).findIdx? (· == 0) = some terminator ∧ terminator ≤ i := by
    cases at_ : (units name).findIdx? (· == 0) with
    | none =>
      rw [List.findIdx?_eq_none_iff] at at_
      have := at_ 0 (List.mem_of_getElem? zero)
      simp at this
    | some terminator =>
      refine ⟨terminator, rfl, ?_⟩
      by_contra later
      obtain ⟨_, _, before⟩ := List.findIdx?_eq_some_iff_getElem.mp at_
      have := before i (Nat.not_le.mp later)
      rw [List.getElem?_eq_getElem bound] at zero
      simp only [Option.some.injEq] at zero
      simp [zero] at this
  obtain ⟨terminator, found, le⟩ := found
  unfold QueryEvent.passed
  simp only [hname, htype, eventProperty_of_le small, eventProperty_of_le smallType]
  rw [if_neg (by simp only [some_, or_false]; omega), if_neg (by omega), found]
  simp only
  rw [if_neg (by omega), take_findIdx found]
  simp [QueryEvent.queryName, QueryEvent.queryType, hname, htype]

/-- **The event reaches `Hints::add` exactly when its properties are intact.** -/
theorem processEvent_passed_iff (e : QueryEvent) : e.passed ≠ none ↔ e.Intact := by
  constructor
  · intro passed
    unfold QueryEvent.passed at passed
    simp only at passed
    split_ifs at passed with short odd
    · exact absurd rfl passed
    · exact absurd rfl passed
    · rw [not_or, Nat.not_lt] at short
      obtain ⟨name, hname, small, readName⟩ :=
        eventProperty_ne_nil (List.ne_nil_of_length_pos (Nat.lt_of_lt_of_le Nat.two_pos short.1))
      obtain ⟨type, htype, smallType, readType⟩ := eventProperty_ne_nil short.2
      rw [readName] at passed odd
      rw [readType] at short
      refine ⟨⟨name, hname, small, by omega, ?_⟩, ⟨type, htype, short.2, smallType⟩⟩
      split at passed
      · exact absurd rfl passed
      · rename_i terminator found
        split_ifs at passed with far
        · exact absurd rfl passed
        · obtain ⟨bound, zero, _⟩ := List.findIdx?_eq_some_iff_getElem.mp found
          exact ⟨terminator, by omega, by simpa [List.getElem?_eq_getElem bound] using zero⟩
  · intro intact
    rw [intact.passed]
    simp

/-! ## Attribution -/

/-- The entry is the event's: it has its generation, lives for its lifetime and holds its evidence. -/
def Pending.Holds (p : Pending) (evidence : Evidence) (generation now : Nat) : Prop :=
  p.generation = generation ∧ now + lifetime ≤ p.expires ∧ (evidence = .selected → p.tunnel = true) ∧
    (evidence = .unlisted → p.direct = true) ∧ (evidence = .unknown → now + lifetime ≤ p.unknownUntil)

/-- The key has an entry with the attribution of an event that `h` classifies, or direct routing is refused
for a lifetime. -/
def Attributed (h : Hints) (path : WString) (h' : Hints) (key : WString) (now : Nat) : Prop :=
  (∃ p, h'.entry key = some p ∧ p.Holds (h.classify path) (h.generations + 1) now) ∨
    now + lifetime ≤ h'.overloadedUntil ∨ now + lifetime ≤ h'.directBlockedUntil

theorem Pending.add_holds (p : Pending) (window : Nat) (evidence : Evidence) (generation now : Nat) :
    (p.add window evidence generation now).Holds evidence generation now := by
  refine ⟨rfl, le_max_right _ _, ?_, ?_, ?_⟩ <;> rintro rfl <;> simp [Pending.add]

/-- A name that reaches the hints is one `addResolved` records. -/
theorem QueryEvent.passed_length {e : QueryEvent} {name : WString} {type : UInt16}
    (passed : e.passed = some (name, type)) : name.length ≤ Hints.maxName := by
  unfold QueryEvent.passed at passed
  simp only at passed
  split_ifs at passed
  split at passed
  · cases passed
  · split_ifs at passed with far
    cases passed
    simp only [List.length_take, Hints.maxName]
    omega

/-- Hints as the constructor leaves them. -/
def Hints.fresh : Hints := { included := ∅, reuseWindow := defaultReuseWindow }

/-- Fresh hints record every name that is short enough. -/
theorem Hints.fresh_addResolved {name : WString} (short : name.length ≤ Hints.maxName)
    (type : UInt16) (evidence : Evidence) (now : Nat) :
    (Hints.fresh.addResolved name type evidence now).2 = true := by
  have empty : (Hints.fresh.expire now).hints.entries = [] := by
    unfold Hints.expire
    split <;> rfl
  unfold Hints.addResolved
  rw [if_neg]
  simp only [empty, List.length_nil, Hints.kMaxHints]
  omega

/-- With fresh hints nothing else than recording can attribute. -/
theorem attributed_fresh {e : QueryEvent} {path key : WString}
    (attributed : Attributed Hints.fresh path (Hints.fresh.processEvent e path 0) key 0) :
    ∃ name type, e.passed = some (name, type) ∧ key = makeKey name type := by
  have never : ¬ (0 : Nat) + lifetime ≤ 0 := by decide
  unfold Hints.processEvent at attributed
  split at attributed
  · rcases attributed with ⟨p, found, _⟩ | blocked | blocked
    · cases found
    · exact absurd blocked never
    · exact absurd blocked never
  · rename_i name type passed
    refine ⟨name, type, passed, ?_⟩
    have spec := Hints.addResolved_spec Hints.fresh name type (Hints.fresh.classify path) 0
    rw [if_pos (Hints.fresh_addResolved (QueryEvent.passed_length passed) _ _ _)] at spec
    rcases attributed with ⟨p, found, _⟩ | blocked | blocked
    · by_contra other
      rcases spec.others key other with kept | ⟨_, old, _⟩
      · rw [kept] at found
        cases found
      · cases old
    · exact absurd (blocked.trans spec.overloadedUntil.le) never
    · exact absurd (blocked.trans spec.directBlockedUntil.le) never

/-- **Which query events are attributed.** For an event whose normalised name and
whose type an accepted packet carries: whatever the state of the hints, the process
and the time, attribution is recorded under the key `take` computes for the packet
or direct routing is refused for a lifetime, exactly when the event's properties are
intact and normalising its normalised name changes nothing. -/
theorem processEvent_attributed_iff (e : QueryEvent) (packet : List UInt8) (question : Question)
    (_accepted : parseQuestion packet = some question)
    (named : question.name = normalizeName e.queryName) (typed : question.type = e.queryType) :
    (∀ h path now, Attributed h path (h.processEvent e path now) (makeKey question.name question.type) now) ↔
      e.Intact ∧ normalizeName (normalizeName e.queryName) = normalizeName e.queryName := by
  constructor
  · intro attributed
    obtain ⟨name, type, passed, same⟩ := attributed_fresh (attributed Hints.fresh [] 0)
    have intact := (processEvent_passed_iff e).mp (by simp [passed])
    rw [intact.passed] at passed
    cases passed
    rw [typed, makeKey_eq_iff, named] at same
    exact ⟨intact, same⟩
  · rintro ⟨intact, normal⟩ h path now
    have spec := Hints.addResolved_spec h e.queryName e.queryType (h.classify path) now
    have key : makeKey question.name question.type = makeKey e.queryName e.queryType := by
      rw [typed, makeKey_eq_iff, named, normal]
    simp only [Attributed, Hints.processEvent, intact.passed, key]
    split at spec
    · exact Or.inl ⟨_, spec.own, Pending.add_holds _ _ _ _ _⟩
    · exact Or.inr (Or.inl spec.overloadedUntil.ge)

/-! ## Poles -/

/-- UTF-16LE bytes of a terminated string. -/
def terminated (name : WString) : List UInt8 :=
  (name ++ [0]).flatMap fun c : UInt16 => [UInt8.ofNat (c.toNat % 256), UInt8.ofNat (c.toNat / 256)]

/-- A query packet for the given labels and type 1. -/
def queryPacket (labels : List (List UInt8)) : List UInt8 :=
  [0, 0, 1, 0, 0, 1, 0, 0, 0, 0, 0, 0] ++
    labels.flatMap (fun label => UInt8.ofNat label.length :: label) ++ [0, 0, 1, 0, 1]

/-- The labels of a name of 253 characters, the longest `parseQuestion` accepts. -/
def longLabels : List (List UInt8) :=
  [List.replicate 63 0x61, List.replicate 63 0x61, List.replicate 63 0x61, List.replicate 61 0x61]

def longName : WString :=
  (List.intercalate [0x2e] longLabels).map wide

/-- The query for `a`. -/
def plainQuery : QueryEvent := ⟨some (terminated [0x61]), some [1, 0, 0, 0]⟩

/-- The query for the longest name, written with its trailing dot: the terminator
stands at 254. -/
def trailingDotQuery : QueryEvent := ⟨some (terminated (longName ++ [0x2e])), some [1, 0, 0, 0]⟩

theorem trailingDotQuery_passed : trailingDotQuery.passed = none := by
  decide +kernel

/-- The query for `a` by an unidentified process is recorded. -/
theorem processEvent_attributed_plain :
    Attributed Hints.fresh [] (Hints.fresh.processEvent plainQuery [] 0) (makeKey [0x61] 1) 0 :=
  (processEvent_attributed_iff plainQuery (queryPacket [[0x61]]) ⟨[0x61], 1⟩ (by decide +kernel)
    (by decide +kernel) (by decide +kernel)).mpr
      ⟨(processEvent_passed_iff _).mp (by decide +kernel), by decide +kernel⟩ Hints.fresh [] 0

/-- The longest name a packet can carry, written with its trailing dot in the event:
`processEvent` returns, and neither attribution nor a refusal follows. -/
theorem processEvent_ignores_trailing_dot :
    ∃ (e : QueryEvent) (packet : List UInt8) (question : Question),
      parseQuestion packet = some question ∧ question.name = normalizeName e.queryName ∧
        question.type = e.queryType ∧
        ∃ (h : Hints) (path : WString) (now : Nat),
          ¬ Attributed h path (h.processEvent e path now) (makeKey question.name question.type) now := by
  refine ⟨trailingDotQuery, queryPacket longLabels, ⟨longName, 1⟩, by decide +kernel,
    by decide +kernel, by decide +kernel, Hints.fresh, [], 0, fun attributed => ?_⟩
  obtain ⟨name, type, passed, _⟩ := attributed_fresh attributed
  rw [trailingDotQuery_passed] at passed
  cases passed

end ProgramSplit.Dns
