/-
# Dns.Hints — the attribution hints, one locked section at a time

`class Hints` of `dns-attribution.h`. Every definition below is one critical
section of the class (or a part of one): it takes the time the section read from
the steady clock and returns the state it left. `take` releases the lock inside
`barrier`, so it is two sections, `takeFast` before and `takeFinal` after.

Each section rewrites at most the entry of its own key through a function on
`Pending` (`add`, `decide`, `complete`), and drops entries of other keys only by
`expire` and `lostEvents`. The lemmas of the last section say so once, for every
key, and are all a proof about the hints needs to know of the map.
-/
import Mathlib.Data.Finset.Basic
import ProgramSplit.Lib.FiniteMap
import ProgramSplit.Dns.Names

namespace ProgramSplit.Dns

open Lib

set_option autoImplicit false

/-- Times are `steady_clock` time points, in nanoseconds since the clock's epoch. -/
def second : Nat := 1000000000

/-- How long an attribution event counts: `std::chrono::seconds(10)`. -/
def lifetime : Nat := 10 * second

/-- The reuse window `Hints`' constructor takes unless told otherwise: 3000 ms. -/
def defaultReuseWindow : Nat := 3 * second

/-- `Hints::Decision`. -/
inductive Decision
  | pending
  | direct
  | tunnel
  deriving DecidableEq, Repr

/-- What one query event says about its process: an included path, a known path
that is not included, or no path at all. -/
inductive Evidence
  | selected
  | unlisted
  | unknown
  deriving DecidableEq, Repr

/-- The path of a query event, empty if there is none, and the included set it is compared with. -/
structure Source where
  path : WString
  included : Finset WString
  deriving DecidableEq

namespace Source

variable (source : Source)

def Selected : Prop := source.path ≠ [] ∧ lower source.path ∈ source.included

def Unlisted : Prop := source.path ≠ [] ∧ lower source.path ∉ source.included

def Unknown : Prop := source.path = []

/-- What `addResolved` makes of a path before it takes the lock. -/
def evidence : Evidence :=
  if source.path = [] then .unknown
  else if lower source.path ∈ source.included then .selected
  else .unlisted

variable {source}

theorem evidence_selected : source.evidence = .selected ↔ source.Selected := by
  unfold evidence Selected
  split_ifs <;> simp_all

theorem evidence_unlisted : source.evidence = .unlisted ↔ source.Unlisted := by
  unfold evidence Unlisted
  split_ifs <;> simp_all

theorem evidence_unknown : source.evidence = .unknown ↔ source.Unknown := by
  unfold evidence Unknown
  split_ifs <;> simp_all

end Source

/-- `Hints::Pending`: the evidence and the decision of one key. -/
structure Pending where
  tunnel : Bool := false
  /-- A selected application's own event, not evidence carried over by `retire`. -/
  selected : Bool := false
  selectedAnswered : Bool := false
  generation : Nat := 0
  direct : Bool := false
  unknownUntil : Nat := 0
  answered : Bool := false
  decision : Decision := .pending
  expires : Nat := 0
  answeredAt : Nat := 0
  selectedAnsweredAt : Nat := 0
  deriving DecidableEq, Repr

namespace Pending

/-- `Hints::retire`. -/
def retire (reuseWindow : Nat) (pending : Pending) (now : Nat) : Pending :=
  let unclaimedTunnel := pending.tunnel && pending.decision != .tunnel
  let recentSelected :=
    pending.selectedAnswered && now - pending.selectedAnsweredAt < reuseWindow
  { tunnel := unclaimedTunnel || recentSelected
    selected := unclaimedTunnel && pending.selected
    selectedAnswered := recentSelected
    selectedAnsweredAt := pending.selectedAnsweredAt
    unknownUntil := pending.unknownUntil
    generation := pending.generation
    expires := pending.expires }

/-- What `addResolved` keeps of an entry before it adds the new event. -/
def renew (reuseWindow : Nat) (pending : Pending) (now : Nat) : Pending :=
  if pending.expires ≤ now then {}
  else if pending.answered then pending.retire reuseWindow now
  else pending

/-- The entry after one event. -/
def add (reuseWindow : Nat) (pending : Pending) (evidence : Evidence) (generation : Nat)
    (now : Nat) : Pending :=
  let kept := pending.renew reuseWindow now
  { kept with
    generation := generation
    selected := kept.selected || evidence == .selected
    tunnel := kept.tunnel || evidence == .selected
    direct := kept.direct || evidence == .unlisted
    unknownUntil := if evidence = .unknown then now + lifetime else kept.unknownUntil
    expires := max kept.expires (now + lifetime) }

/-- What `decide` makes of a live entry: the entry it leaves (none when it erases
it), the route, and whether an answered route is reused. -/
structure Decided where
  entry : Option Pending
  route : Option Bool := none
  reused : Bool := false
  deriving DecidableEq, Repr

/-- `decide` on an answered entry whose reusable route has ended: `retired` is what
`retire` kept of it. -/
def lapse (retired : Pending) (now : Nat) : Decided :=
  if retired.tunnel = false ∧ retired.unknownUntil ≤ now then { entry := none }
  else if retired.tunnel then
    { entry := some { retired with decision := .tunnel }, route := some true }
  else { entry := some retired }

/-- `Hints::decide` after the entry has been found and has not expired. -/
def decide (reuseWindow : Nat) (pending : Pending) (directAllowed : Bool) (now : Nat) : Decided :=
  if pending.answered then
    if pending.tunnel && pending.decision != .tunnel then
      { entry := some { pending with answered := false, decision := .tunnel }, route := some true }
    else if pending.decision = .pending ∨ reuseWindow ≤ now - pending.answeredAt then
      (pending.retire reuseWindow now).lapse now
    else if pending.decision = .tunnel ∨ directAllowed then
      { entry := some pending, route := some (pending.decision == .tunnel), reused := true }
    else { entry := some pending }
  else if pending.tunnel ∨ pending.decision = .tunnel then
    { entry := some { pending with decision := .tunnel }, route := some true }
  else if directAllowed ∧ (pending.direct ∨ pending.decision = .direct) then
    { entry := some { pending with decision := .direct }, route := some false }
  else { entry := some pending }

/-- The part of `complete` that credits a selected tunnel exchange, whatever
generation the exchange was decided on. -/
def credit (reuseWindow : Nat) (pending : Pending) (now : Nat) : Pending :=
  if pending.decision = .tunnel ∧ pending.selected then
    { pending with
      selectedAnswered := true
      selectedAnsweredAt := now
      expires := max pending.expires (now + reuseWindow) }
  else pending

/-- `Hints::complete` on the entry; no generation is `kLatestGeneration`. -/
def complete (reuseWindow : Nat) (pending : Pending) (generation : Option Nat) (now : Nat) :
    Pending :=
  let credited := pending.credit reuseWindow now
  match generation with
  | some g =>
    if g = pending.generation then { credited with answered := true, answeredAt := now }
    else credited
  | none => { credited with answered := true, answeredAt := now }

end Pending

/-- The barrier's counters, kept under the same lock. -/
structure Progress where
  sequence : Nat := 0
  processed : Nat := 0
  checked : Nat := 0
  deriving DecidableEq, Repr

/-- `class Hints`. -/
structure Hints where
  included : Finset WString
  reuseWindow : Nat
  nextExpiry : Nat := 0
  overloadedUntil : Nat := 0
  directBlockedUntil : Nat := 0
  generations : Nat := 0
  hints : FiniteMap WString Pending := ∅
  progress : Progress := {}

namespace Hints

def kMaxHints : Nat := 4096

/-- The longest name `addResolved` records. -/
def maxName : Nat := 253

variable (h : Hints) (key : WString)

def setIncluded (included : Finset WString) : Hints :=
  { h with included }

def classify (path : WString) : Evidence := Source.evidence ⟨path, h.included⟩

/-- The entry of a key, if the map has one. -/
def entry : Option Pending :=
  h.hints.lookup key

def expire (now : Nat) : Hints :=
  if now < h.nextExpiry then h
  else { h with
    nextExpiry := now + second
    hints := FiniteMap.eraseIf (fun pending => Nat.ble pending.expires now) h.hints }

/-- The locked section of `addResolved`; false when the event was dropped. -/
def addResolved (name : WString) (type : UInt16) (evidence : Evidence) (now : Nat) :
    Hints × Bool :=
  let key := makeKey name type
  let h := h.expire now
  if maxName < name.length ∨ (kMaxHints ≤ h.hints.entries.length ∧ h.entry key = none) then
    ({ h with overloadedUntil := now + lifetime }, false)
  else
    let generation := h.generations + 1
    let pending := ((h.entry key).getD {}).add h.reuseWindow evidence generation now
    ({ h with generations := generation, hints := h.hints.insert key pending }, true)

def lostEvents (now : Nat) : Hints :=
  { h with
    hints := FiniteMap.eraseIf (fun p => !p.tunnel && Nat.ble p.unknownUntil now) h.hints
    directBlockedUntil := now + lifetime }

/-- Write an entry back, or erase it. -/
def store : Option Pending → Hints
  | some pending => { h with hints := h.hints.insert key pending }
  | none => { h with hints := h.hints.erase key }

def decide (allowDirect : Bool) (now : Nat) :
    Hints × Option Bool × Bool :=
  let h := h.expire now
  match h.entry key with
  | none => (h, none, false)
  | some pending =>
    if pending.expires ≤ now then (h.store key none, none, false)
    else
      let directAllowed :=
        allowDirect && Nat.ble h.directBlockedUntil now && Nat.ble pending.unknownUntil now
      let d := pending.decide h.reuseWindow directAllowed now
      (h.store key d.entry, d.route, d.reused)

/-- How a section of `take` ends: refused, routed with the generation of the
evidence, or (first section only) waiting for the barrier. -/
inductive Taken
  | refused
  | routed (tunnel : Bool) (generation : Nat) (reused : Bool)
  | waiting
  deriving DecidableEq, Repr

/-- The lambda `decided` of `take`: the route with the entry's generation. -/
def routedAt (tunnel reused : Bool) : Taken :=
  match h.entry key with
  | some pending => .routed tunnel pending.generation reused
  -- `hints_.at` would throw here; a routed key always has its entry (`decide_route_entry`)
  | none => .refused

/-- `take` up to the barrier: `checked` is the clock at the overload test, `now`
the clock `decide` reads. -/
def takeFast (checked now : Nat) : Hints × Taken :=
  if checked < h.overloadedUntil then (h, .refused)
  else
    let (h, route, reused) := h.decide key false now
    if route = some true then (h, h.routedAt key true reused) else (h, .waiting)

/-- `take` after the barrier returned `passed`. -/
def takeFinal (passed : Bool) (checked now : Nat) : Hints × Taken :=
  if !passed ∨ checked < h.overloadedUntil then (h, .refused)
  else
    match h.decide key true now with
    | (h, some tunnel, reused) => (h, h.routedAt key tunnel reused)
    | (h, none, _) => (h, .refused)

/-- `directAnswerUnsafe` after the barrier returned `passed`. -/
def directAnswerUnsafe (passed : Bool) (now : Nat) : Bool :=
  if !passed then true
  else if now < h.directBlockedUntil ∨ now < h.overloadedUntil then true
  else
    match h.entry key with
    | some pending => pending.tunnel || now < pending.unknownUntil
    | none => false

def complete (generation : Option Nat) (now : Nat) : Hints :=
  match h.entry key with
  | some pending => h.store key (some (pending.complete h.reuseWindow generation now))
  | none => h

/-! ## What a section does to the entry of a key -/

/-- An entry that stayed as it was, or had expired and was dropped. -/
def Swept (now : Nat) (old new : Option Pending) : Prop :=
  new = old ∨ ∃ pending, old = some pending ∧ pending.expires ≤ now ∧ new = none

theorem Swept.refl (now : Nat) (old : Option Pending) : Swept now old old :=
  Or.inl rfl

theorem expire_entry (now : Nat) (key : WString) :
    Swept now (h.entry key) ((h.expire now).entry key) := by
  unfold expire entry
  split
  · exact Swept.refl _ _
  · rw [FiniteMap.lookup_eraseIf]
    cases found : h.hints.lookup key with
    | none => exact Or.inl rfl
    | some pending =>
      by_cases expired : pending.expires ≤ now
      · exact Or.inr ⟨pending, rfl, expired, by simp [Option.filter, expired]⟩
      · exact Or.inl (by simp [Option.filter, Nat.not_le.mp expired])

@[simp] theorem expire_reuseWindow (now : Nat) :
    (h.expire now).reuseWindow = h.reuseWindow := by
  unfold expire; split <;> rfl

@[simp] theorem expire_generations (now : Nat) :
    (h.expire now).generations = h.generations := by
  unfold expire; split <;> rfl

@[simp] theorem expire_directBlockedUntil (now : Nat) :
    (h.expire now).directBlockedUntil = h.directBlockedUntil := by
  unfold expire; split <;> rfl

@[simp] theorem expire_overloadedUntil (now : Nat) :
    (h.expire now).overloadedUntil = h.overloadedUntil := by
  unfold expire; split <;> rfl

variable (e : Option Pending)

@[simp] theorem store_reuseWindow :
    (h.store key e).reuseWindow = h.reuseWindow := by cases e <;> rfl

@[simp] theorem store_generations :
    (h.store key e).generations = h.generations := by cases e <;> rfl

@[simp] theorem store_directBlockedUntil :
    (h.store key e).directBlockedUntil = h.directBlockedUntil := by cases e <;> rfl

@[simp] theorem store_overloadedUntil :
    (h.store key e).overloadedUntil = h.overloadedUntil := by cases e <;> rfl

theorem store_entry (key k : WString) (e : Option Pending) :
    (h.store key e).entry k = if k = key then e else h.entry k := by
  cases e with
  | none => exact FiniteMap.lookup_erase_of k key h.hints
  | some pending => exact FiniteMap.lookup_insert_of k key pending h.hints

/-- A swept entry and the entry it came from renew to the same evidence: an
expired entry counts for nothing either way. -/
theorem Swept.add_eq {now : Nat} {old new : Option Pending} (swept : Swept now old new)
    (window : Nat) (evidence : Evidence) (generation : Nat) :
    (new.getD {}).add window evidence generation now =
      (old.getD {}).add window evidence generation now := by
  rcases swept with rfl | ⟨pending, rfl, expired, rfl⟩
  · rfl
  · simp [Pending.add, Pending.renew, expired]

/-- What recording an event leaves of the hints. -/
structure Recorded (h : Hints) (key : WString) (evidence : Evidence) (now : Nat) (h' : Hints) :
    Prop where
  reuseWindow : h'.reuseWindow = h.reuseWindow
  directBlockedUntil : h'.directBlockedUntil = h.directBlockedUntil
  overloadedUntil : h'.overloadedUntil = h.overloadedUntil
  generations : h'.generations = h.generations + 1
  own : h'.entry key =
    some (((h.entry key).getD {}).add h.reuseWindow evidence (h.generations + 1) now)
  others : ∀ k, k ≠ key → Swept now (h.entry k) (h'.entry k)

/-- What dropping an event leaves of the hints. -/
structure Dropped (h : Hints) (now : Nat) (h' : Hints) : Prop where
  reuseWindow : h'.reuseWindow = h.reuseWindow
  directBlockedUntil : h'.directBlockedUntil = h.directBlockedUntil
  overloadedUntil : h'.overloadedUntil = now + lifetime
  generations : h'.generations = h.generations
  entries : ∀ k, Swept now (h.entry k) (h'.entry k)

theorem addResolved_spec (name : WString) (type : UInt16) (evidence : Evidence)
    (now : Nat) :
    if (h.addResolved name type evidence now).2 then
      Recorded h (makeKey name type) evidence now (h.addResolved name type evidence now).1
    else Dropped h now (h.addResolved name type evidence now).1 := by
  by_cases full : maxName < name.length ∨
      (kMaxHints ≤ (h.expire now).hints.entries.length ∧
        (h.expire now).entry (makeKey name type) = none)
  · rw [show h.addResolved name type evidence now =
      ({ h.expire now with overloadedUntil := now + lifetime }, false) from if_pos full]
    exact ⟨by simp, by simp, rfl, by simp, fun k => expire_entry h now k⟩
  · rw [show h.addResolved name type evidence now = ((_ : Hints), true) from if_neg full]
    refine ⟨by simp, by simp, by simp, by simp, ?_, fun k other => ?_⟩
    · rw [← (expire_entry h now _).add_eq]
      simp [entry]
    · simpa [entry, AList.lookup_insert_ne other] using expire_entry h now k

/-- What `lostEvents` does to an entry: only those without tunnel evidence and
past their quarantine go. -/
theorem lostEvents_entry (now : Nat) (key : WString) :
    (h.lostEvents now).entry key = h.entry key ∨
      ∃ p, h.entry key = some p ∧ p.tunnel = false ∧ p.unknownUntil ≤ now ∧
        (h.lostEvents now).entry key = none := by
  unfold lostEvents entry
  simp only [FiniteMap.lookup_eraseIf]
  cases found : h.hints.lookup key with
  | none => exact Or.inl rfl
  | some p =>
    by_cases gone : p.tunnel = false ∧ p.unknownUntil ≤ now
    · exact Or.inr ⟨p, rfl, gone.1, gone.2, by simp [Option.filter, gone]⟩
    · refine Or.inl ?_
      cases tunnel : p.tunnel with
      | true => simp [Option.filter, tunnel]
      | false =>
        have quarantined : now < p.unknownUntil := by
          simpa [tunnel] using gone
        simp [Option.filter, tunnel, quarantined]

/-- Whether `decide` may answer with a direct route for this entry. -/
def directAllowed (h : Hints) (pending : Pending) (allowDirect : Bool) (now : Nat) : Bool :=
  allowDirect && Nat.ble h.directBlockedUntil now && Nat.ble pending.unknownUntil now

/-- What `decide` leaves of the hints, and where its route comes from. -/
structure Consulted (h : Hints) (key : WString) (allowDirect : Bool) (now : Nat) (h' : Hints)
    (route : Option Bool) : Prop where
  reuseWindow : h'.reuseWindow = h.reuseWindow
  directBlockedUntil : h'.directBlockedUntil = h.directBlockedUntil
  overloadedUntil : h'.overloadedUntil = h.overloadedUntil
  generations : h'.generations = h.generations
  others : ∀ k, k ≠ key → Swept now (h.entry k) (h'.entry k)
  own : (route = none ∧ Swept now (h.entry key) (h'.entry key)) ∨
    ∃ p, h.entry key = some p ∧ now < p.expires ∧
      h'.entry key = (p.decide h.reuseWindow (h.directAllowed p allowDirect now) now).entry ∧
      route = (p.decide h.reuseWindow (h.directAllowed p allowDirect now) now).route

variable {p : Pending}

/-- An unexpired entry after `expire` is the entry there was before. -/
theorem Swept.live {now : Nat} {old : Option Pending}
    (swept : Swept now old (some p)) : old = some p := by
  rcases swept with same | ⟨_, _, _, gone⟩
  · exact same.symm
  · cases gone

variable (allowDirect : Bool)

theorem decide_absent {h : Hints} {key : WString} {now : Nat}
    (found : (h.expire now).entry key = none) :
    h.decide key allowDirect now = (h.expire now, none, false) := by
  simp only [decide, found]

theorem decide_expired {h : Hints} {key : WString} {now : Nat}
    (found : (h.expire now).entry key = some p) (expired : p.expires ≤ now) :
    h.decide key allowDirect now = ((h.expire now).store key none, none, false) := by
  simp only [decide, found, expired, if_true]

theorem decide_live {h : Hints} {key : WString} {now : Nat}
    (found : (h.expire now).entry key = some p) (live : now < p.expires) :
    h.decide key allowDirect now =
      let d := p.decide h.reuseWindow (h.directAllowed p allowDirect now) now
      ((h.expire now).store key d.entry, d.route, d.reused) := by
  simp only [decide, found, Nat.not_le.mpr live, if_false, directAllowed, expire_reuseWindow,
    expire_directBlockedUntil]

theorem decide_spec (now : Nat) :
    Consulted h key allowDirect now (h.decide key allowDirect now).1
      (h.decide key allowDirect now).2.1 := by
  have swept := expire_entry h now
  cases found : (h.expire now).entry key with
  | none =>
    rw [decide_absent allowDirect found]
    exact ⟨by simp, by simp, by simp, by simp, fun k _ => swept k, Or.inl ⟨rfl, swept key⟩⟩
  | some p =>
    have before : h.entry key = some p := (found ▸ swept key).live
    by_cases expired : p.expires ≤ now
    · rw [decide_expired allowDirect found expired]
      refine ⟨by simp, by simp, by simp, by simp, fun k other => ?_, Or.inl ⟨rfl, ?_⟩⟩
      · rw [store_entry, if_neg other]
        exact swept k
      · rw [store_entry, if_pos rfl]
        exact Or.inr ⟨p, before, expired, rfl⟩
    · rw [decide_live allowDirect found (Nat.not_le.mp expired)]
      refine ⟨by simp, by simp, by simp, by simp, fun k other => ?_, Or.inr ⟨p, before, ?_⟩⟩
      · rw [store_entry, if_neg other]
        exact swept k
      · exact ⟨Nat.not_le.mp expired, by rw [store_entry, if_pos rfl], rfl⟩

/-- A route always comes with an entry, so `hints_.at` in `take` finds it. -/
theorem decide_route_entry {w : Nat} {allowed : Bool} {now : Nat} {tunnel : Bool}
    (routed : (p.decide w allowed now).route = some tunnel) :
    ∃ q, (p.decide w allowed now).entry = some q ∧ q.generation = p.generation := by
  unfold Pending.decide Pending.lapse at routed ⊢
  split_ifs at routed ⊢ <;> exact ⟨_, rfl, rfl⟩

theorem lapse_route (p : Pending) (now : Nat) : (p.lapse now).route ≠ some false := by
  unfold Pending.lapse
  split_ifs <;> simp

/-- A direct route is only given where direct routes are allowed. -/
theorem decide_direct_allowed {w now : Nat} {allowed : Bool}
    (routed : (p.decide w allowed now).route = some false) : allowed = true := by
  unfold Pending.decide at routed
  split_ifs at routed with answered newer ended reuse tunnel direct
  · cases routed
  · exact absurd routed (lapse_route _ _)
  · refine reuse.resolve_left fun claimed => ?_
    simp [claimed] at routed
  · cases routed
  · exact direct.1

theorem Consulted.routedAt {h h' : Hints} {key : WString} {allowDirect tunnel : Bool} {now : Nat}
    (consulted : Consulted h key allowDirect now h' (some tunnel)) (reused : Bool) :
    ∃ q, h'.entry key = some q ∧ h'.routedAt key tunnel reused = .routed tunnel q.generation reused := by
  rcases consulted.own with ⟨none_, _⟩ | ⟨p, _, _, left, routed⟩
  · cases none_
  · obtain ⟨q, kept, _⟩ := decide_route_entry routed.symm
    refine ⟨q, left.trans kept, ?_⟩
    simp only [Hints.routedAt, left.trans kept]

/-- The first section of `take`: it refuses and leaves the hints alone, or it
consults them without direct evidence. -/
theorem takeFast_spec (checked now : Nat) :
    h.takeFast key checked now = (h, .refused) ∨
      ∃ h' route, Consulted h key false now h' route ∧
        (h.takeFast key checked now = (h', .waiting) ∨
          ∃ q reused, route = some true ∧ h'.entry key = some q ∧
            h.takeFast key checked now = (h', .routed true q.generation reused)) := by
  unfold takeFast
  split
  · exact Or.inl rfl
  · have spec := decide_spec h key false now
    generalize h.decide key false now = result at spec ⊢
    obtain ⟨h', route, reused⟩ := result
    refine Or.inr ⟨h', route, spec, ?_⟩
    by_cases tunnel : route = some true
    · subst tunnel
      obtain ⟨q, found, routed⟩ := spec.routedAt reused
      exact Or.inr ⟨q, reused, rfl, found, by simp [routed]⟩
    · exact Or.inl (by simp [tunnel])

/-- The second section: it refuses, or the barrier had passed, the overload had
ended and the consulted evidence gave the route. -/
theorem takeFinal_spec (passed : Bool) (checked now : Nat) :
    h.takeFinal key passed checked now = (h, .refused) ∨
      h.overloadedUntil ≤ checked ∧ ∃ h' route, Consulted h key true now h' route ∧
        (h.takeFinal key passed checked now = (h', .refused) ∨
          ∃ tunnel q reused, route = some tunnel ∧ h'.entry key = some q ∧
            h.takeFinal key passed checked now = (h', .routed tunnel q.generation reused)) := by
  unfold takeFinal
  split
  · exact Or.inl rfl
  · rename_i open_
    have spec := decide_spec h key true now
    generalize h.decide key true now = result at spec ⊢
    obtain ⟨h', route, reused⟩ := result
    refine Or.inr ⟨by simp at open_; exact open_.2, h', route, spec, ?_⟩
    cases route with
    | none => exact Or.inl rfl
    | some tunnel =>
      obtain ⟨q, found, routed⟩ := spec.routedAt reused
      exact Or.inr ⟨tunnel, q, reused, rfl, found, by simp only [routed]⟩

theorem complete_entry (key k : WString) (generation : Option Nat) (now : Nat) :
    (h.complete key generation now).entry k =
      if k = key then (h.entry key).map (·.complete h.reuseWindow generation now)
      else h.entry k := by
  unfold complete
  split
  · rename_i p found
    rw [store_entry, found, Option.map_some]
  · rename_i found
    by_cases same : k = key
    · subst same; simp [found]
    · simp [same]

/-- Completing an exchange changes entries only. -/
theorem complete_fields (generation : Option Nat) (now : Nat) :
    (h.complete key generation now).reuseWindow = h.reuseWindow ∧
      (h.complete key generation now).directBlockedUntil = h.directBlockedUntil ∧
      (h.complete key generation now).overloadedUntil = h.overloadedUntil ∧
      (h.complete key generation now).generations = h.generations := by
  unfold complete
  split <;> simp

end Hints

end ProgramSplit.Dns
