/-
# Dns.AsyncLog — the queue of the asynchronous log

`AsyncLog` of `async-log.h`: writers copy a message, take the lock and put it into a ring
of 256 slots, or count a refusal; one thread takes messages out and passes them to the
sink, with the number of refusals since its last report in between; the destructor closes
the queue and gives the thread half a second.

Every access to the shared state is a step of its own, apart from what a lock section does
between its tests and its end. The sink does not throw.

* `Inv.order` — accepted messages are the delivered ones, the one in hand and the queued
  ones, in this order;
* `log_exact` — bounds, order, counts, and what a thread that ends early has delivered,
  in runs where the thread does not end over a message that came after its last look;
* `last_message_lost` — a run in which it does: the thread tests `stopping` after it has
  found the queue empty, and a message accepted in between stays in the queue.
-/
import ProgramSplit.Lib.Ring
import ProgramSplit.Lib.Run

namespace ProgramSplit.Dns.AsyncLog

open Lib

set_option autoImplicit false

abbrev Message := List UInt8

def maxMessages : Nat := 256
def maxBytes : Nat := 256 * 1024
def maxMessageBytes : Nat := 65536

/-! ## The threads -/

/-- Where a call of `write` is. -/
inductive Writer
  | idle
  | called (m : Message)
  /-- Past the first test, copying the message. -/
  | copying (m : Message)
  /-- With its copy, before the lock. -/
  | copied (m : Message)
  /-- Inside the lock and past the second test. -/
  | pushing (m : Message)
  /-- On the way to `drop`, inside the lock or not. -/
  | dropping (locked : Bool)
  /-- Before `SetEvent` and the return. -/
  | returning (ok locked : Bool)
  deriving DecidableEq, Repr

def Writer.locked : Writer → Bool
  | .pushing _ => true
  | .dropping locked => locked
  | .returning _ locked => locked
  | _ => false

def Writer.isPushing : Writer → Bool
  | .pushing _ => true
  | _ => false

/-- A refusal is counted and its call has not returned. -/
def Writer.counted : Writer → Nat
  | .returning false _ => 1
  | _ => 0

/-- Where the writer thread is, with the message it has taken out. -/
inductive Thread
  /-- Not created: no event or no thread. -/
  | absent
  | waiting
  /-- Before the test of the deadline. -/
  | checking
  /-- Before the lock. -/
  | locking
  /-- Before `dropped.load()`. -/
  | loading (hand : Option Message)
  /-- Before the report of the refusals. -/
  | reporting (hand : Option Message) (lost : Nat)
  /-- Before the delivery, or before the test of `stopping` if the queue was empty. -/
  | passing (hand : Option Message)
  | ended (at_ : Nat) (failed : Bool)
  deriving DecidableEq, Repr

def Thread.hand : Thread → List Message
  | .loading hand => hand.toList
  | .reporting hand _ => hand.toList
  | .passing hand => hand.toList
  | _ => []

/-- The refusals the thread is about to have reported. -/
def Thread.lost (reported : Nat) : Thread → Nat
  | .reporting _ lost => lost
  | _ => reported

/-- How far the destructor is: `accepting`, `stopAt` and `stopping` are set in turn. -/
inductive Closing
  | open_
  | refusing
  | timed
  | stopping
  | signalled
  deriving DecidableEq, Repr

/-- `State`, the threads, and the thread's local count of reported refusals. -/
structure State where
  ring : Ring Message maxMessages
  bytes : Nat
  /-- The writer inside the lock; the thread's own lock section is one step. -/
  owner : Option Nat
  accepting : Bool
  stopping : Bool
  /-- The auto-reset event. -/
  ready : Bool
  stopAt : Nat
  dropped : Nat
  clock : Nat
  writers : Nat → Writer
  thread : Thread
  reported : Nat
  closing : Closing

/-- After the constructor. -/
def State.created (started : Bool) : State where
  ring := .empty [] (by decide)
  bytes := 0
  owner := none
  accepting := started
  stopping := false
  ready := false
  stopAt := 0
  dropped := 0
  clock := 0
  writers _ := .idle
  thread := if started then .waiting else .absent
  reported := 0
  closing := .open_

def State.Initial (s : State) : Prop := ∃ started, s = .created started

def State.set (s : State) (i : Nat) (writer : Writer) : State :=
  { s with writers := Function.update s.writers i writer }

/-- A scheduling choice; `copy` and `report` say whether memory can be allocated. -/
inductive Action
  | tick (by_ : Nat)
  | call (i : Nat) (m : Message)
  | test (i : Nat)
  | copy (i : Nat) (allocated : Bool)
  | enter (i : Nat)
  | push (i : Nat)
  | drop (i : Nat)
  | return_ (i : Nat)
  | wake
  | check
  | take
  | load
  | report (allocated : Bool)
  | pass
  | close

/-- What a step did. -/
inductive Label
  | quiet
  | accepted (i : Nat) (m : Message)
  | counted (i : Nat)
  | returned (i : Nat) (ok : Bool)
  | sunk (m : Message)
  | loaded
  | reported (count : Nat)
  /-- The thread ends over an empty queue. -/
  | ended
  /-- The thread ends at the deadline. -/
  | expired
  /-- The thread ends by an exception. -/
  | failed
  deriving DecidableEq, Repr

/-- A step of a call of `write`. -/
def execWriter (s : State) (i : Nat) : Action → Option (State × Label)
  | .call _ m =>
    match s.writers i with
    | .idle => some (s.set i (.called m), .quiet)
    | _ => none
  | .test _ =>
    match s.writers i with
    | .called m =>
      if !s.accepting ∨ maxMessageBytes < m.length then some (s.set i (.dropping false), .quiet)
      else some (s.set i (.copying m), .quiet)
    | _ => none
  | .copy _ allocated =>
    match s.writers i with
    | .copying m => some (s.set i (if allocated then .copied m else .dropping false), .quiet)
    | _ => none
  | .enter _ =>
    match s.writers i, s.owner with
    | .copied m, none =>
      if !s.accepting ∨ s.ring.count = maxMessages ∨ maxBytes - s.bytes < m.length then
        some ({ s with owner := some i }.set i (.dropping true), .quiet)
      else some ({ s with owner := some i }.set i (.pushing m), .quiet)
    | _, _ => none
  | .push _ =>
    match s.writers i with
    | .pushing m =>
      some ({ s with
        ring := s.ring.push m
        bytes := s.bytes + m.length
        owner := none }.set i (.returning true false), .accepted i m)
    | _ => none
  | .drop _ =>
    match s.writers i with
    | .dropping locked =>
      some ({ s with dropped := s.dropped + 1 }.set i (.returning false locked), .counted i)
    | _ => none
  | .return_ _ =>
    match s.writers i with
    | .returning ok locked =>
      some ({ s with ready := true, owner := if locked then none else s.owner }.set i .idle,
        .returned i ok)
    | _ => none
  | _ => none

/-- A step of the writer thread. -/
def execThread (s : State) : Action → Option (State × Label)
  | .wake =>
    match s.thread with
    | .waiting => if s.ready then some ({ s with ready := false, thread := .checking }, .quiet) else none
    | _ => none
  | .check =>
    match s.thread with
    | .checking =>
      if s.stopping ∧ s.stopAt ≤ s.clock then some ({ s with thread := .ended s.clock false }, .expired)
      else some ({ s with thread := .locking }, .quiet)
    | _ => none
  | .take =>
    match s.thread, s.owner with
    | .locking, none =>
      if some_ : 0 < s.ring.count then
        let message := s.ring.slots s.ring.head
        some ({ s with
          ring := s.ring.pop [] some_
          bytes := s.bytes - message.length
          thread := .loading (some message) }, .quiet)
      else some ({ s with thread := .loading none }, .quiet)
    | _, _ => none
  | .load =>
    match s.thread with
    | .loading hand =>
      some ({ s with thread := if s.dropped ≠ s.reported then .reporting hand s.dropped
                               else .passing hand }, .loaded)
    | _ => none
  | .report allocated =>
    match s.thread with
    | .reporting hand lost =>
      if allocated then
        some ({ s with reported := lost, thread := .passing hand }, .reported (lost - s.reported))
      else some ({ s with accepting := false, thread := .ended s.clock true }, .failed)
    | _ => none
  | .pass =>
    match s.thread with
    | .passing (some message) => some ({ s with thread := .checking }, .sunk message)
    | .passing none =>
      if s.stopping then some ({ s with thread := .ended s.clock false }, .ended)
      else some ({ s with thread := .waiting }, .quiet)
    | _ => none
  | _ => none

/-- A step of the destructor; what it does after `SetEvent` changes no shared state. -/
def execClose (s : State) : Option (State × Label) :=
  match s.closing with
  | .open_ => some ({ s with accepting := false, closing := .refusing }, .quiet)
  | .refusing => some ({ s with stopAt := s.clock + 500, closing := .timed }, .quiet)
  | .timed => some ({ s with stopping := true, closing := .stopping }, .quiet)
  | .stopping => some ({ s with ready := true, closing := .signalled }, .quiet)
  | .signalled => none

def exec (s : State) (action : Action) : Option (State × Label) :=
  match action with
  | .tick by_ => some ({ s with clock := s.clock + by_ }, .quiet)
  | .call i _ | .test i | .copy i _ | .enter i | .push i | .drop i | .return_ i => execWriter s i action
  | .wake | .check | .take | .load | .report _ | .pass => execThread s action
  | .close => execClose s

abbrev Step : State → Label → State → Prop := Exec exec

abbrev Reaches : List Label → State → Prop := Run State.Initial Step

/-! ## What a run did -/

def Label.accepted? : Label → List Message
  | .accepted _ m => [m]
  | _ => []

def Label.sunk? : Label → List Message
  | .sunk m => [m]
  | _ => []

def Label.refusals (of : Option Nat) : Label → Nat
  | .counted i => if of = none ∨ of = some i then 1 else 0
  | _ => 0

def Label.falseReturns (of : Nat) : Label → Nat
  | .returned i false => if of = i then 1 else 0
  | _ => 0

def Label.reports : Label → Nat
  | .reported count => count
  | _ => 0

/-- The messages put into the queue, in order. -/
def acceptedMessages (labels : List Label) : List Message := labels.reverse.flatMap Label.accepted?

/-- The messages the sink has received, in order. -/
def sunkMessages (labels : List Label) : List Message := labels.reverse.flatMap Label.sunk?

/-- The refusals counted, of all calls or of one thread's. -/
def refusals (of : Option Nat) (labels : List Label) : Nat := (labels.map (Label.refusals of)).sum

/-- The calls of one thread that returned false. -/
def falseReturns (of : Nat) (labels : List Label) : Nat := (labels.map (Label.falseReturns of)).sum

/-- The sum of the numbers reported to the sink. -/
def reportedTotal (labels : List Label) : Nat := (labels.map Label.reports).sum

/-- The refusals counted before the thread last looked at them. -/
def lastLoad : List Label → Nat
  | [] => 0
  | .loaded :: earlier => refusals none earlier
  | _ :: earlier => lastLoad earlier

@[simp] theorem acceptedMessages_cons (l : Label) (labels : List Label) :
    acceptedMessages (l :: labels) = acceptedMessages labels ++ l.accepted? := by
  simp [acceptedMessages]

@[simp] theorem sunkMessages_cons (l : Label) (labels : List Label) :
    sunkMessages (l :: labels) = sunkMessages labels ++ l.sunk? := by
  simp [sunkMessages]

@[simp] theorem refusals_cons (of : Option Nat) (l : Label) (labels : List Label) :
    refusals of (l :: labels) = l.refusals of + refusals of labels := rfl

@[simp] theorem falseReturns_cons (of : Nat) (l : Label) (labels : List Label) :
    falseReturns of (l :: labels) = l.falseReturns of + falseReturns of labels := rfl

theorem lastLoad_le : ∀ labels : List Label, lastLoad labels ≤ refusals none labels
  | [] => le_rfl
  | l :: labels => by
    have more := lastLoad_le labels
    cases l <;> simp only [lastLoad, refusals_cons] <;> omega

/-! ## What a step does -/

/-- The steps, by what they do to the shared state. -/
inductive Effect (s : State) : Label → State → Prop
  | tick (by_ : Nat) : Effect s .quiet { s with clock := s.clock + by_ }
  /-- A writer moves on outside the lock. -/
  | private_ (i : Nat) (writer : Writer) (before : (s.writers i).locked = false ∧ (s.writers i).counted = 0)
      (after : writer.locked = false ∧ writer.counted = 0) : Effect s .quiet (s.set i writer)
  | refused (i : Nat) (m : Message) (at_ : s.writers i = .copied m) (free : s.owner = none) :
      Effect s .quiet ({ s with owner := some i }.set i (.dropping true))
  | admitted (i : Nat) (m : Message) (at_ : s.writers i = .copied m) (free : s.owner = none)
      (accepting : s.accepting = true) (room : s.ring.count ≠ maxMessages)
      (fits : m.length ≤ maxBytes - s.bytes) :
      Effect s .quiet ({ s with owner := some i }.set i (.pushing m))
  | pushed (i : Nat) (m : Message) (at_ : s.writers i = .pushing m) :
      Effect s (.accepted i m) ({ s with
        ring := s.ring.push m
        bytes := s.bytes + m.length
        owner := none }.set i (.returning true false))
  | counted (i : Nat) (locked : Bool) (at_ : s.writers i = .dropping locked) :
      Effect s (.counted i) ({ s with dropped := s.dropped + 1 }.set i (.returning false locked))
  | returned (i : Nat) (ok locked : Bool) (at_ : s.writers i = .returning ok locked) :
      Effect s (.returned i ok) ({ s with ready := true, owner := if locked then none else s.owner }.set i
        .idle)
  /-- The thread moves on with what it has. -/
  | turned (thread : Thread) (ready : Bool) (hand : thread.hand = s.thread.hand)
      (before : s.thread.lost s.reported = s.reported) (after : thread.lost s.reported = s.reported)
      (runs : ∀ at_ failed, thread ≠ .ended at_ failed) : Effect s .quiet { s with ready, thread }
  | expired (at_ : s.thread = .checking) (stopping : s.stopping = true) (late : s.stopAt ≤ s.clock) :
      Effect s .expired { s with thread := .ended s.clock false }
  | took (some_ : 0 < s.ring.count) (at_ : s.thread = .locking) (free : s.owner = none) :
      Effect s .quiet { s with
        ring := s.ring.pop [] some_
        bytes := s.bytes - (s.ring.slots s.ring.head).length
        thread := .loading (some (s.ring.slots s.ring.head)) }
  | loaded (hand : Option Message) (at_ : s.thread = .loading hand) :
      Effect s .loaded { s with
        thread := if s.dropped ≠ s.reported then .reporting hand s.dropped else .passing hand }
  | reported (hand : Option Message) (lost : Nat) (at_ : s.thread = .reporting hand lost) :
      Effect s (.reported (lost - s.reported)) { s with reported := lost, thread := .passing hand }
  | failed (hand : Option Message) (lost : Nat) (at_ : s.thread = .reporting hand lost) :
      Effect s .failed { s with accepting := false, thread := .ended s.clock true }
  | sunk (m : Message) (at_ : s.thread = .passing (some m)) :
      Effect s (.sunk m) { s with thread := .checking }
  | ended (at_ : s.thread = .passing none) (stopping : s.stopping = true) :
      Effect s .ended { s with thread := .ended s.clock false }
  /-- The destructor. -/
  | refusing (at_ : s.closing = .open_) :
      Effect s .quiet { s with accepting := false, closing := .refusing }
  | timed (at_ : s.closing = .refusing) :
      Effect s .quiet { s with stopAt := s.clock + 500, closing := .timed }
  | stopping (at_ : s.closing = .timed) :
      Effect s .quiet { s with stopping := true, closing := .stopping }
  | signalled (at_ : s.closing = .stopping) :
      Effect s .quiet { s with ready := true, closing := .signalled }

variable {labels : List Label} {s s' : State} {l : Label}

theorem execWriter_effect {i : Nat} {action : Action} (taken : execWriter s i action = some (s', l)) :
    Effect s l s' := by
  have outside {writer : Writer} (at_ : s.writers i = writer)
      (away : writer.locked = false ∧ writer.counted = 0) :
      (s.writers i).locked = false ∧ (s.writers i).counted = 0 := at_ ▸ away
  revert taken
  fun_cases execWriter s i action <;> intro taken <;> cases taken
  case case1 m at_ => exact .private_ i _ (outside at_ ⟨rfl, rfl⟩) ⟨rfl, rfl⟩
  case case3 m at_ _ => exact .private_ i _ (outside at_ ⟨rfl, rfl⟩) ⟨rfl, rfl⟩
  case case4 m at_ _ => exact .private_ i _ (outside at_ ⟨rfl, rfl⟩) ⟨rfl, rfl⟩
  case case6 allocated m at_ =>
    refine .private_ i _ (outside at_ ⟨rfl, rfl⟩) ?_
    cases allocated <;> exact ⟨rfl, rfl⟩
  case case8 m free at_ _ => exact .refused i m at_ free
  case case9 m free at_ passed =>
    simp only [Bool.not_eq_true', not_or, Bool.not_eq_false, not_lt] at passed
    exact .admitted i m at_ free passed.1 passed.2.1 passed.2.2
  case case11 m at_ => exact .pushed i m at_
  case case13 locked at_ => exact .counted i locked at_
  case case15 ok locked at_ => exact .returned i ok locked at_

theorem execThread_effect {action : Action} (taken : execThread s action = some (s', l)) :
    Effect s l s' := by
  revert taken
  fun_cases execThread s action <;> intro taken <;> cases taken
  case case1 at_ _ => exact .turned .checking false (at_ ▸ rfl) (at_ ▸ rfl) rfl nofun
  case case4 at_ passed => exact .expired at_ passed.1 passed.2
  case case5 at_ _ => exact .turned .locking s.ready (at_ ▸ rfl) (at_ ▸ rfl) rfl nofun
  case case7 free at_ some_ _ => exact .took some_ at_ free
  case case8 free at_ _ => exact .turned (.loading none) s.ready (at_ ▸ rfl) (at_ ▸ rfl) rfl nofun
  case case10 hand at_ => exact .loaded hand at_
  case case12 hand lost at_ => exact .reported hand lost at_
  case case13 hand lost at_ _ => exact .failed hand lost at_
  case case15 m at_ => exact .sunk m at_
  case case16 at_ stopping => exact .ended at_ stopping
  case case17 at_ _ => exact .turned .waiting s.ready (at_ ▸ rfl) (at_ ▸ rfl) rfl nofun

theorem Step.effect (taken : Step s l s') : Effect s l s' := by
  obtain ⟨action, taken⟩ := taken
  cases action with
  | tick by_ =>
    cases taken
    exact .tick by_
  | call | test | copy | enter | push | drop | return_ =>
    simp only [exec] at taken
    exact execWriter_effect taken
  | wake | check | take | load | report | pass =>
    simp only [exec] at taken
    exact execThread_effect taken
  | close =>
    simp only [exec, execClose] at taken
    split at taken
    · rename_i at_
      cases taken
      exact .refusing at_
    · rename_i at_
      cases taken
      exact .timed at_
    · rename_i at_
      cases taken
      exact .stopping at_
    · rename_i at_
      cases taken
      exact .signalled at_
    · cases taken

/-! ## The queue -/

/-- The lock and the bounds. -/
structure Bounded (s : State) : Prop where
  count : s.ring.count ≤ maxMessages
  bytes : s.bytes = (s.ring.toList.map List.length).sum
  bounded : s.bytes ≤ maxBytes
  held : ∀ i, (s.writers i).locked = true → s.owner = some i
  pushing : ∀ i m, s.writers i = .pushing m → s.ring.count < maxMessages ∧ s.bytes + m.length ≤ maxBytes

theorem Bounded.initial (s : State) (fresh : s.Initial) : Bounded s := by
  obtain ⟨started, rfl⟩ := fresh
  constructor
  · exact Nat.zero_le _
  · rfl
  · exact Nat.zero_le _
  · intro i locked
    simp [State.created, Writer.locked] at locked
  · intro i m at_
    simp [State.created] at at_

/-- A step outside the queue and the lock. -/
theorem Bounded.same (bounded : Bounded s) (ring : s'.ring = s.ring) (bytes : s'.bytes = s.bytes)
    (owner : s'.owner = s.owner) (writers : s'.writers = s.writers) : Bounded s' :=
  ⟨by rw [ring]; exact bounded.count, by rw [bytes, ring]; exact bounded.bytes,
    by rw [bytes]; exact bounded.bounded, by rw [owner, writers]; exact bounded.held,
    by rw [ring, bytes, writers]; exact bounded.pushing⟩

theorem set_writers (s : State) (i j : Nat) (writer : Writer) :
    (s.set i writer).writers j = if j = i then writer else s.writers j := by
  simp only [State.set, Function.update_apply]

/-- Only the owner of the lock is inside it. -/
theorem Bounded.alone (bounded : Bounded s) {i j : Nat} (locked : (s.writers j).locked = true)
    (owner : s.owner = none ∨ s.owner = some i ∧ j ≠ i) : False := by
  have mine := bounded.held j locked
  rcases owner with free | ⟨other, apart⟩
  · rw [free] at mine
    cases mine
  · rw [other] at mine
    exact apart (Option.some.inj mine).symm

theorem Bounded.no_pushing (bounded : Bounded s) (free : s.owner = none) (i : Nat) (m : Message) :
    s.writers i ≠ .pushing m :=
  fun at_ => bounded.alone (i := i) (by rw [at_]; rfl) (Or.inl free)

/-- One writer moves on, and the queue stays as it is. -/
theorem Bounded.move (bounded : Bounded s) {i : Nat} {writer : Writer} (ring : s'.ring = s.ring)
    (bytes : s'.bytes = s.bytes) (moved : s'.writers = (s.set i writer).writers)
    (own : writer.locked = true → s'.owner = some i)
    (others : ∀ j, j ≠ i → (s.writers j).locked = true → s'.owner = some j)
    (pushing : ∀ m, writer = .pushing m → s.ring.count < maxMessages ∧ s.bytes + m.length ≤ maxBytes) :
    Bounded s' := by
  refine ⟨by rw [ring]; exact bounded.count, by rw [bytes, ring]; exact bounded.bytes,
    by rw [bytes]; exact bounded.bounded, fun j locked => ?_, fun j m at_ => ?_⟩
  · rw [moved, set_writers] at locked
    split_ifs at locked with same
    · exact same ▸ own locked
    · exact others j same locked
  · rw [moved, set_writers] at at_
    rw [ring, bytes]
    split_ifs at at_
    · exact pushing m at_
    · exact bounded.pushing j m at_

theorem Bounded.step (bounded : Bounded s) (effect : Effect s l s') : Bounded s' := by
  cases effect with
  | private_ i writer before after =>
    refine bounded.move rfl rfl rfl (fun locked => ?_) (fun j _ => bounded.held j) fun m at_ => ?_
    · rw [after.1] at locked
      cases locked
    · rw [at_] at after
      cases after.1
  | refused i m at_ free =>
    exact bounded.move rfl rfl rfl (fun _ => rfl)
      (fun j _ locked => (bounded.alone (i := i) locked (Or.inl free)).elim) nofun
  | admitted i m at_ free accepting room fits =>
    refine bounded.move rfl rfl rfl (fun _ => rfl)
      (fun j _ locked => (bounded.alone (i := i) locked (Or.inl free)).elim) fun m' pushing => ?_
    cases pushing
    have small := bounded.bounded
    exact ⟨bounded.count.lt_of_ne room, by omega⟩
  | pushed i m at_ =>
    have owner := bounded.held i (by rw [at_]; rfl)
    have others : ∀ j, j ≠ i → (s.writers j).locked ≠ true :=
      fun j apart locked => bounded.alone locked (Or.inr ⟨owner, apart⟩)
    obtain ⟨room, fits⟩ := bounded.pushing i m at_
    refine ⟨room, ?_, fits, fun j locked => ?_, fun j m' pushing => ?_⟩
    · change s.bytes + m.length = ((s.ring.push m).toList.map List.length).sum
      rw [Ring.toList_push _ _ room, List.map_append, List.sum_append, ← bounded.bytes]
      simp
    · rw [set_writers] at locked
      split_ifs at locked with same
      · cases locked
      · exact absurd locked (others j same)
    · rw [set_writers] at pushing
      split_ifs at pushing with same
      exact absurd (by rw [pushing]; rfl) (others j same)
  | counted i locked at_ =>
    exact bounded.move rfl rfl rfl (fun held => bounded.held i (by rw [at_]; exact held))
      (fun j _ => bounded.held j) nofun
  | returned i ok locked at_ =>
    refine bounded.move rfl rfl rfl nofun (fun j apart held => ?_) nofun
    split_ifs with mine
    · -- the lock is returned by its owner, who is not this writer
      have owner := bounded.held i (by rw [at_]; exact mine)
      exact (bounded.alone held (Or.inr ⟨owner, apart⟩)).elim
    · exact bounded.held j held
  | took some_ at_ free =>
    have sizes : s.bytes = (s.ring.slots s.ring.head).length +
        ((s.ring.pop [] some_).toList.map List.length).sum := by
      rw [bounded.bytes, s.ring.toList_pop [] some_ bounded.count, List.map_cons, List.sum_cons]
    refine ⟨(Nat.sub_le _ _).trans bounded.count, ?_, ?_, bounded.held, fun j m pushing =>
      absurd pushing (bounded.no_pushing free j m)⟩
    · change s.bytes - (s.ring.slots s.ring.head).length =
        ((s.ring.pop [] some_).toList.map List.length).sum
      omega
    · exact (Nat.sub_le _ _).trans bounded.bounded
  | tick | turned | expired | loaded | reported | failed | sunk | ended | refusing | timed | stopping
  | signalled => exact bounded.same rfl rfl rfl rfl

/-- What was accepted is what was delivered, what is in hand and what is queued. -/
def Ordered (labels : List Label) (s : State) : Prop :=
  acceptedMessages labels = sunkMessages labels ++ (s.thread.hand ++ s.ring.toList)

theorem Ordered.step (ordered : Ordered labels s) (bounded : Bounded s) (effect : Effect s l s')
    (runs : l ≠ .failed) :
    Ordered (l :: labels) s' := by
  unfold Ordered at ordered ⊢
  rw [acceptedMessages_cons, sunkMessages_cons, ordered]
  cases effect with
  | pushed i m at_ =>
    change _ ++ [m] = _ ++ [] ++ (s.thread.hand ++ (s.ring.push m).toList)
    rw [Ring.toList_push _ _ (bounded.pushing i m at_).1]
    simp
  | took some_ at_ free =>
    change _ ++ [] = _ ++ [] ++ ([s.ring.slots s.ring.head] ++ (s.ring.pop [] some_).toList)
    rw [at_, s.ring.toList_pop [] some_ bounded.count]
    simp [Thread.hand]
  | turned thread ready hand => simp [Label.accepted?, Label.sunk?, hand]
  | expired at_ | ended at_ => simp [Label.accepted?, Label.sunk?, at_, Thread.hand]
  | loaded hand at_ =>
    simp only [Label.accepted?, Label.sunk?, at_, List.append_nil]
    split_ifs <;> rfl
  | reported hand lost at_ => simp [Label.accepted?, Label.sunk?, at_, Thread.hand]
  | sunk m at_ => simp [Label.accepted?, Label.sunk?, at_, Thread.hand]
  | failed => exact absurd rfl runs
  | tick | private_ | refused | admitted | counted | returned | refusing | timed | stopping | signalled =>
    simp [Label.accepted?, Label.sunk?, State.set]

/-! ## The counts -/

/-- Every refusal is counted, once a call. -/
structure Counted (labels : List Label) (s : State) : Prop where
  dropped : s.dropped = refusals none labels
  calls : ∀ i, refusals (some i) labels = falseReturns i labels + (s.writers i).counted

theorem Counted.same (counted : Counted labels s) (refused : ∀ of, l.refusals of = 0)
    (returned : ∀ i, l.falseReturns i = 0) (dropped : s'.dropped = s.dropped)
    (writers : ∀ i, (s'.writers i).counted = (s.writers i).counted) : Counted (l :: labels) s' := by
  refine ⟨?_, fun i => ?_⟩
  · rw [dropped, refusals_cons, refused, Nat.zero_add]
    exact counted.dropped
  · rw [refusals_cons, falseReturns_cons, refused, returned, writers, Nat.zero_add, Nat.zero_add]
    exact counted.calls i

theorem set_counted (s : State) (i j : Nat) (writer : Writer) :
    ((s.set i writer).writers j).counted = if j = i then writer.counted else (s.writers j).counted := by
  rw [set_writers]
  split_ifs <;> rfl

theorem set_counted_same {i : Nat} {writer : Writer}
    (same : writer.counted = (s.writers i).counted) (j : Nat) :
    ((s.set i writer).writers j).counted = (s.writers j).counted := by
  rw [set_counted]
  split_ifs with is
  · rw [is, same]
  · rfl

theorem Counted.step (counted : Counted labels s) (effect : Effect s l s') : Counted (l :: labels) s' := by
  cases effect with
  | private_ i writer before after =>
    exact counted.same (fun _ => rfl) (fun _ => rfl) rfl
      (set_counted_same (after.2.trans before.2.symm))
  | refused i m at_ free =>
    exact counted.same (fun _ => rfl) (fun _ => rfl) rfl (set_counted_same (by rw [at_]; rfl))
  | admitted i m at_ free =>
    exact counted.same (fun _ => rfl) (fun _ => rfl) rfl (set_counted_same (by rw [at_]; rfl))
  | pushed i m at_ =>
    exact counted.same (fun _ => rfl) (fun _ => rfl) rfl (set_counted_same (by rw [at_]; rfl))
  | counted i locked at_ =>
    refine ⟨?_, fun j => ?_⟩
    · change s.dropped + 1 = _
      rw [counted.dropped, refusals_cons]
      simp [Label.refusals, Nat.add_comm]
    · have old := counted.calls j
      rw [set_counted, refusals_cons, falseReturns_cons]
      split_ifs with same
      · subst same
        rw [at_] at old
        simp only [Label.refusals, Label.falseReturns, Writer.counted, or_true, if_true] at old ⊢
        omega
      · simpa [Label.refusals, Label.falseReturns, same] using old
  | returned i ok locked at_ =>
    refine ⟨counted.dropped.trans (Nat.zero_add _).symm, fun j => ?_⟩
    have old := counted.calls j
    rw [set_counted, refusals_cons, falseReturns_cons]
    by_cases same : j = i
    · subst same
      rw [at_] at old
      cases ok <;> simp [Label.refusals, Label.falseReturns, Writer.counted] at old ⊢ <;> omega
    · cases ok <;> simpa [Label.refusals, Label.falseReturns, same] using old
  | tick | turned | expired | took | loaded | reported | failed | sunk | ended | refusing | timed | stopping
  | signalled => exact counted.same (fun _ => rfl) (fun _ => rfl) rfl (fun _ => rfl)

/-- The thread has reported, or is about to report, what it saw when it last looked. -/
structure Reported (labels : List Label) (s : State) : Prop where
  total : reportedTotal labels = s.reported
  lost : s.thread.lost s.reported = lastLoad labels
  le : s.reported ≤ lastLoad labels

theorem Reported.step (reported : Reported labels s) (counted : Counted labels s) (effect : Effect s l s')
    (runs : l ≠ .failed) : Reported (l :: labels) s' := by
  obtain ⟨total, isLost, le⟩ := reported
  have silent : 0 + reportedTotal labels = s.reported := (Nat.zero_add _).trans total
  cases effect with
  | turned thread ready hand before after => exact ⟨silent, after.trans (before.symm.trans isLost), le⟩
  | loaded hand at_ =>
    have seen : lastLoad (.loaded :: labels) = s.dropped := counted.dropped.symm
    have more : s.reported ≤ s.dropped := by
      rw [counted.dropped]
      exact le.trans (lastLoad_le labels)
    refine ⟨silent, ?_, by rw [seen]; exact more⟩
    rw [seen]
    split_ifs with news
    · rfl
    · exact (not_not.mp news).symm
  | reported hand lost at_ =>
    rw [at_] at isLost
    have isLost : lost = lastLoad labels := isLost
    refine ⟨?_, isLost, isLost.le⟩
    change lost - s.reported + reportedTotal labels = lost
    omega
  | expired at_ | took _ at_ | sunk _ at_ | ended at_ =>
    rw [at_] at isLost
    exact ⟨silent, isLost, le⟩
  | failed => exact absurd rfl runs
  | tick | private_ | refused | admitted | pushed | counted | returned | refusing | timed | stopping
  | signalled => exact ⟨silent, isLost, le⟩

/-! ## The end -/

/-- A writer is past its tests and about to queue its message. -/
def State.somePushing (s : State) : Bool :=
  match s.owner with
  | some i => (s.writers i).isPushing
  | none => false

/-- The thread ends over an empty queue only if it is still empty when `stopping` is
tested, with no message on the way into it, and the text of a report can be allocated. -/
def Undisturbed (s : State) : Label → Prop
  | .ended => s.ring.count = 0 ∧ s.somePushing = false
  | .failed => False
  | _ => True

instance (s : State) : (l : Label) → Decidable (Undisturbed s l)
  | .ended => inferInstanceAs (Decidable (_ ∧ _))
  | .failed => inferInstanceAs (Decidable False)
  | .quiet | .accepted .. | .counted .. | .returned .. | .sunk .. | .loaded | .reported .. | .expired =>
    inferInstanceAs (Decidable True)

abbrev ReachesUndisturbed : List Label → State → Prop :=
  Run State.Initial fun s l s' => Undisturbed s l ∧ Step s l s'

/-- Once `stopping` is set nothing is accepted, and a thread that ended before the
deadline left nothing behind. -/
structure Closed (s : State) : Prop where
  refuses : s.closing ≠ .open_ → s.accepting = false
  stopped : s.stopping = true → s.closing = .stopping ∨ s.closing = .signalled
  ended : ∀ at_ failed, s.thread = .ended at_ failed → s.stopping = true
  early : ∀ at_ failed, s.thread = .ended at_ failed → at_ < s.stopAt →
    s.ring.count = 0 ∧ ∀ i m, s.writers i ≠ .pushing m

theorem Closed.initial (s : State) (fresh : s.Initial) : Closed s := by
  obtain ⟨started, rfl⟩ := fresh
  refine ⟨fun no => absurd rfl no, fun no => (nomatch no), fun at_ failed at_end => ?_,
    fun at_ failed at_end => ?_⟩
  · cases started <;> cases at_end
  · cases started <;> cases at_end

theorem Closed.accepting (closed : Closed s) {at_ : Nat} {failed : Bool}
    (isEnd : s.thread = .ended at_ failed) :
    s.accepting = false := by
  apply closed.refuses
  obtain at_ | at_ := closed.stopped (closed.ended _ _ isEnd) <;> rw [at_] <;> decide

/-- A step that leaves the thread, the destructor and the queue alone. -/
theorem Closed.same (closed : Closed s) (closing : s'.closing = s.closing)
    (accepting : s'.accepting = s.accepting)
    (stopping : s'.stopping = s.stopping) (stopAt : s'.stopAt = s.stopAt) (thread : s'.thread = s.thread)
    (ring : s'.ring = s.ring) (writers : ∀ i m, s'.writers i = .pushing m →
      s.writers i = .pushing m ∨ s.accepting = true) : Closed s' := by
  refine ⟨?_, ?_, ?_, ?_⟩
  · rw [closing, accepting]
    exact closed.refuses
  · rw [closing, stopping]
    exact closed.stopped
  · rw [thread, stopping]
    exact closed.ended
  · rw [thread, stopAt, ring]
    intro at_ failed isEnd soon
    obtain ⟨empty, none_⟩ := closed.early at_ failed isEnd soon
    refine ⟨empty, fun i m pushing => ?_⟩
    obtain before | accepts := writers i m pushing
    · exact none_ i m before
    · rw [closed.accepting isEnd] at accepts
      cases accepts

/-- A step of the thread itself. -/
theorem Closed.turn (closed : Closed s) {s' : State} (closing : s'.closing = s.closing)
    (accepting : s'.accepting = s.accepting) (stopping : s'.stopping = s.stopping)
    (runs : ∀ at_ failed, s'.thread ≠ .ended at_ failed) : Closed s' :=
  ⟨by rw [closing, accepting]; exact closed.refuses, by rw [closing, stopping]; exact closed.stopped,
    fun at_ failed isEnd => absurd isEnd (runs at_ failed),
    fun at_ failed isEnd => absurd isEnd (runs at_ failed)⟩

/-- A writer's step away from the queue does not begin a push. -/
theorem set_pushing {i : Nat} {writer : Writer} (quiet : writer.isPushing = false) {j : Nat} {m : Message}
    (pushing : (s.set i writer).writers j = .pushing m) : s.writers j = .pushing m := by
  rw [set_writers] at pushing
  split_ifs at pushing with same
  · rw [pushing] at quiet
    cases quiet
  · exact pushing

theorem Closed.step (closed : Closed s) (bounded : Bounded s) (effect : Effect s l s')
    (ok : Undisturbed s l) :
    Closed s' := by
  cases effect with
  | private_ i writer before after =>
    have quiet : writer.isPushing = false := by
      cases writer with
      | pushing m => cases after.1
      | _ => rfl
    exact closed.same rfl rfl rfl rfl rfl rfl fun j m pushing => .inl (set_pushing quiet pushing)
  | refused i m at_ free =>
    refine closed.same rfl rfl rfl rfl rfl rfl fun j m' pushing => .inl ?_
    exact set_pushing (s := { s with owner := some i }) rfl pushing
  | admitted i m at_ free accepting => exact closed.same rfl rfl rfl rfl rfl rfl fun _ _ _ => .inr accepting
  | pushed i m at_ =>
    refine ⟨closed.refuses, closed.stopped, closed.ended, fun time failed isEnd soon => ?_⟩
    exact absurd at_ ((closed.early time failed isEnd soon).2 i m)
  | counted i locked at_ =>
    refine closed.same rfl rfl rfl rfl rfl rfl fun j m pushing => .inl ?_
    exact set_pushing (s := { s with dropped := s.dropped + 1 }) rfl pushing
  | returned i ok' locked at_ =>
    refine closed.same rfl rfl rfl rfl rfl rfl fun j m pushing => .inl ?_
    exact set_pushing (s := { s with ready := true, owner := if locked then none else s.owner }) rfl pushing
  | turned thread ready hand before after runs => exact closed.turn rfl rfl rfl runs
  | expired at_ stopping late =>
    refine ⟨closed.refuses, closed.stopped, fun _ _ _ => stopping, fun time failed isEnd soon => ?_⟩
    cases isEnd
    exact absurd soon (not_lt.mpr late)
  | ended at_ stopping =>
    refine ⟨closed.refuses, closed.stopped, fun _ _ _ => stopping, fun time failed _ _ =>
      ⟨ok.1, fun i m pushing => ?_⟩⟩
    have owner := bounded.held i (by rw [show s.writers i = .pushing m from pushing]; rfl)
    have busy : s.somePushing = true := by
      simp only [State.somePushing, owner]
      rw [show s.writers i = .pushing m from pushing]
      rfl
    rw [ok.2] at busy
    cases busy
  | took some_ at_ free => exact closed.turn rfl rfl rfl (fun _ _ no => (nomatch no))
  | loaded hand at_ =>
    refine closed.turn rfl rfl rfl fun _ _ isEnd => ?_
    split_ifs at isEnd
  | reported hand lost at_ => exact closed.turn rfl rfl rfl (fun _ _ no => (nomatch no))
  | sunk m at_ => exact closed.turn rfl rfl rfl (fun _ _ no => (nomatch no))
  | failed => exact ok.elim
  | tick => exact closed.same rfl rfl rfl rfl rfl rfl fun _ _ pushing => .inl pushing
  | refusing at_ =>
    refine ⟨fun _ => rfl, fun stopping => ?_, closed.ended, closed.early⟩
    obtain is | is := closed.stopped stopping <;> rw [at_] at is <;> cases is
  | timed at_ =>
    have running : s.stopping ≠ true := by
      intro stopping
      obtain is | is := closed.stopped stopping <;> rw [at_] at is <;> cases is
    refine ⟨fun _ => closed.refuses (by rw [at_]; decide), fun stopping => absurd stopping running,
      closed.ended, fun time failed isEnd _ => ?_⟩
    exact absurd (closed.ended time failed isEnd) running
  | stopping at_ =>
    exact ⟨fun _ => closed.refuses (by rw [at_]; decide), fun _ => .inl rfl, fun _ _ _ => rfl, closed.early⟩
  | signalled at_ =>
    exact ⟨fun _ => closed.refuses (by rw [at_]; decide), fun _ => .inr rfl, closed.ended, closed.early⟩

structure Inv (labels : List Label) (s : State) : Prop where
  bounded : Bounded s
  order : Ordered labels s
  counted : Counted labels s
  reported : Reported labels s
  closed : Closed s

theorem Inv.initial (s : State) (fresh : s.Initial) : Inv [] s := by
  refine ⟨.initial s fresh, ?_, ?_, ?_, .initial s fresh⟩
  · obtain ⟨started, rfl⟩ := fresh
    cases started <;> rfl
  · obtain ⟨started, rfl⟩ := fresh
    exact ⟨rfl, fun _ => rfl⟩
  · obtain ⟨started, rfl⟩ := fresh
    cases started <;> exact ⟨rfl, rfl, le_rfl⟩

theorem Inv.step (inv : Inv labels s) (ok : Undisturbed s l) (taken : Step s l s') :
    Inv (l :: labels) s' := by
  have effect := taken.effect
  have runs : l ≠ .failed := by
    rintro rfl
    exact ok
  exact ⟨inv.bounded.step effect, inv.order.step inv.bounded effect runs, inv.counted.step effect,
    inv.reported.step inv.counted effect runs, inv.closed.step inv.bounded effect ok⟩

theorem reachesUndisturbed_inv (run : ReachesUndisturbed labels s) : Inv labels s :=
  Run.invariant_of_ok Undisturbed Inv Inv.initial (fun _ _ _ _ inv ok taken => inv.step ok taken) run

/-- **The log is a bounded, exact queue.** In every undisturbed run the queue holds at most
256 messages and 262144 bytes, and the counter is the sum of their sizes; the sink has
received the first of the accepted messages, in order; the counter of refusals counts
each refused call once; what was reported never exceeds it; and when the thread has ended
before the deadline, every accepted message was delivered and the reports add up to the
refusals before its last look at them. -/
theorem log_exact {labels : List Label} {s : State} (run : ReachesUndisturbed labels s) :
    (s.ring.toList.length ≤ 256 ∧ s.bytes ≤ 262144 ∧ s.bytes = (s.ring.toList.map List.length).sum) ∧
      sunkMessages labels <+: acceptedMessages labels ∧
      (s.dropped = refusals none labels ∧
        ∀ i, refusals (some i) labels = falseReturns i labels + (s.writers i).counted) ∧
      reportedTotal labels ≤ refusals none labels ∧
      ∀ at_ failed, s.thread = .ended at_ failed → at_ < s.stopAt →
        sunkMessages labels = acceptedMessages labels ∧ reportedTotal labels = lastLoad labels := by
  obtain ⟨bounded, order, counted, reported, closed⟩ := reachesUndisturbed_inv run
  refine ⟨⟨s.ring.length_toList.trans_le bounded.count, bounded.bounded, bounded.bytes⟩, ⟨_, order.symm⟩,
    ⟨counted.dropped, counted.calls⟩, ?_, fun at_ failed isEnd soon => ⟨?_, ?_⟩⟩
  · rw [reported.total]
    exact reported.le.trans (lastLoad_le labels)
  · have empty := (s.ring.toList_eq_nil).mpr (closed.early at_ failed isEnd soon).1
    have all : acceptedMessages labels = sunkMessages labels ++ (s.thread.hand ++ s.ring.toList) := order
    rw [all, isEnd, empty]
    simp [Thread.hand]
  · have lost := reported.lost
    rw [isEnd] at lost
    exact reported.total.trans lost

/-! ## Poles -/

/-- A message of writer 0, accepted. -/
def accept (m : Message) : List Action := [.call 0 m, .test 0, .copy 0 true, .enter 0, .push 0, .return_ 0]

/-- The destructor. -/
def destroy : List Action := [.close, .close, .close, .close]

/-- What is left of a run to compare: the thread, the deadline, and what was done. -/
def outcome (check : State → Label → Bool) (actions : List Action) :
    Option ((Thread × Nat) × List Label) :=
  (schedule exec check (.created true) actions []).map fun (s, labels) => ((s.thread, s.stopAt), labels)

theorem outcome_run {step : State → Label → State → Prop} {check : State → Label → Bool}
    (admits : ∀ s l s', check s l = true → Exec exec s l s' → step s l s')
    {actions : List Action} {labels : List Label} {thread : Thread} {stopAt : Nat}
    (ran : outcome check actions = some ((thread, stopAt), labels)) :
    ∃ s, Run State.Initial step labels s ∧ s.thread = thread ∧ s.stopAt = stopAt := by
  obtain ⟨⟨s, _⟩, done, same⟩ := Option.map_eq_some_iff.mp ran
  obtain ⟨⟨rfl, rfl⟩, rfl⟩ := same
  exact ⟨s, schedule_run admits actions (.start ⟨true, rfl⟩) done, rfl, rfl⟩

/-- The thread delivers a message, finds the queue empty after the destructor has set
`stopping`, and ends before the deadline. -/
theorem log_exact_orderly :
    ∃ (labels : List Label) (s : State), s.thread = .ended 0 false ∧ s.stopAt = 500 ∧
      sunkMessages labels = [[1]] ∧ sunkMessages labels = acceptedMessages labels := by
  have ran : outcome (fun s l => decide (Undisturbed s l))
        (accept [1] ++ destroy ++ [.wake, .check, .take, .load, .pass, .check, .take, .load, .pass]) =
      some ((.ended 0 false, 500), [.ended, .loaded, .quiet, .quiet, .sunk [1], .loaded, .quiet, .quiet,
        .quiet, .quiet, .quiet, .quiet, .quiet, .returned 0 true, .accepted 0 [1], .quiet, .quiet, .quiet,
        .quiet]) := by
    decide +kernel
  obtain ⟨s, run, isEnd, stopAt⟩ := outcome_run
    (fun s l s' ok taken => (⟨of_decide_eq_true ok, taken⟩ : Undisturbed s l ∧ Step s l s')) ran
  have exact_ := (log_exact run).2.2.2.2 0 false isEnd (by rw [stopAt]; decide)
  exact ⟨_, s, isEnd, stopAt, by decide, exact_.1⟩

/-- **A message accepted between the thread's last look and its test of `stopping` is
lost.** The call has returned true before the destructor begins. -/
theorem last_message_lost :
    ∃ (labels : List Label) (s : State), Reaches labels s ∧ s.thread = .ended 0 false ∧ 0 < s.stopAt ∧
      acceptedMessages labels = [[1], [2]] ∧ sunkMessages labels = [[1]] := by
  have ran : outcome (fun _ _ => true)
        (accept [1] ++ [.wake, .check, .take, .load, .pass, .check, .take] ++ accept [2] ++ destroy ++
          [.load, .pass]) =
      some ((.ended 0 false, 500), [.ended, .loaded, .quiet, .quiet, .quiet, .quiet, .returned 0 true,
        .accepted 0 [2], .quiet, .quiet, .quiet, .quiet, .quiet, .quiet, .sunk [1], .loaded, .quiet, .quiet,
        .quiet, .returned 0 true, .accepted 0 [1], .quiet, .quiet, .quiet, .quiet]) := by
    decide +kernel
  obtain ⟨s, run, isEnd, stopAt⟩ := outcome_run (fun _ _ _ _ taken => taken) ran
  exact ⟨_, s, run, isEnd, by rw [stopAt]; decide, by decide, by decide⟩

end ProgramSplit.Dns.AsyncLog
