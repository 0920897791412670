/-
# Dns.Barrier — the attribution ordering barrier

Any number of threads inside `Hints::barrier`, the one ETW consumer running
`processEvent`, the flusher thread, and the trace session between them. The session
is what its documentation promises: it delivers the events it does not lose in
logging order, and an event logged before a successful `FlushTraceW` started and
never delivered is in the loss counters that flush returns. Which events are lost is
decided when they are logged; `Action.count` is the session adding lost events to
its counters.

* `barrier_sound` — in every run in which the query events the consumer gets are
  intact: when `barrier` returns true, every query event logged before the call
  began has been passed to `Hints::add` or was followed by a `lostEvents` call, no
  matter whose sentinel or flush satisfied the wait.
* `barrier_misses_ignored` — an event whose shape `processEvent` does not accept is
  neither.
-/
import Mathlib.Logic.Function.Basic
import ProgramSplit.Lib.Run
import ProgramSplit.Dns.Intake

namespace ProgramSplit.Dns.Barrier

open Lib

set_option autoImplicit false

/-- An event of the session: a DNS Client query or a sentinel. -/
inductive Item
  | query (event : QueryEvent)
  | sentinel (sequence : Nat)
  deriving DecidableEq, Repr

/-- An event as logged, and whether the session will lose it. -/
structure Logged where
  item : Item
  lost : Bool
  deriving DecidableEq, Repr

/-- The loss counters `EventsLost` and `RealTimeBuffersLost`. -/
structure Counters where
  events : Nat := 0
  buffers : Nat := 0
  deriving DecidableEq, Repr

/-- Where the flusher's loop stands. -/
inductive Flusher
  | waiting
  | covering (covered : Nat)
  | flushing (covered started : Nat)
  | losing (covered : Nat)
  | checking (covered : Nat)
  deriving DecidableEq, Repr

/-- Where a thread stands in `barrier`; `began` is the length of the session's log
when the call began. -/
inductive Caller
  | outside
  | writing (sequence began : Nat)
  | waiting (sequence began : Nat)
  deriving DecidableEq, Repr

structure State where
  log : List Logged := []
  /-- How far the consumer has come in the log. -/
  position : Nat := 0
  progress : Progress := {}
  callers : Nat → Caller := fun _ => .outside
  flusher : Flusher := .waiting
  /-- The counters the flusher has compared with last. -/
  seen : Counters := {}
  counters : Counters := {}
  /-- The lost events the counters include. -/
  counted : List Nat := []
  /-- The events passed to `Hints::add`. -/
  added : List Nat := []
  /-- The length of the log at the last `lostEvents` call. -/
  lostMark : Nat := 0
  /-- The length of the log when a sequence was assigned. -/
  began : Nat → Nat := fun _ => 0

inductive Action
  | log (event : QueryEvent) (lost : Bool)
  | consume
  | count (items : List Nat) (events buffers : Nat)
  | call (thread : Nat)
  | write (thread : Nat) (lost : Bool)
  | refuse (thread : Nat)
  | wake (thread : Nat)
  | expire (thread : Nat)
  | cover
  | startFlush
  | flushed
  | flushFailed
  | callLostEvents
  | callFlushChecked
  deriving DecidableEq, Repr

/-- What a step did; only what the statements speak about is told apart. -/
inductive Label
  | delivered (index : Nat) (event : QueryEvent)
  | returned (thread began : Nat)
  | other
  deriving DecidableEq, Repr

/-- Whether the session loses the event at an index of its log. -/
def lostAt (log : List Logged) (index : Nat) : Bool :=
  (log[index]?.map Logged.lost).getD false

namespace State

/-- `sentinelProcessed`. -/
def sentinelProcessed (p : Progress) (sequence : Nat) : Progress :=
  { p with processed := max p.processed sequence }

/-- `flushChecked`. -/
def flushChecked (p : Progress) (sequence : Nat) : Progress :=
  { p with checked := max p.checked sequence }

def setCaller (s : State) (i : Nat) (caller : Caller) : State :=
  { s with callers := Function.update s.callers i caller }

/-- The consumer takes the next event of the log. -/
def consume (s : State) : Option (State × Label) :=
  match s.log[s.position]? with
  | none => none
  | some ⟨item, lost⟩ =>
    let next := { s with position := s.position + 1 }
    if lost then some (next, .other)
    else
      match item with
      | .sentinel sequence =>
        some ({ next with progress := sentinelProcessed s.progress sequence }, .other)
      | .query event =>
        if event.passed = none then some (next, .delivered s.position event)
        else some ({ next with added := s.position :: s.added }, .delivered s.position event)

def exec (s : State) : Action → Option (State × Label)
  | .log event lost => some ({ s with log := s.log ++ [Logged.mk (.query event) lost] }, .other)
  | .consume => s.consume
  -- the session may count a lost event at any time, and every count shows in a counter
  | .count items events buffers =>
    if (∀ k ∈ items, lostAt s.log k = true) ∧ 0 < events + buffers then
      some ({ s with
        counted := items ++ s.counted
        counters := ⟨s.counters.events + events, s.counters.buffers + buffers⟩ }, .other)
    else none
  | .call i =>
    match s.callers i with
    | .outside =>
      let sequence := s.progress.sequence + 1
      some ({ s with
        progress := { s.progress with sequence }
        began := Function.update s.began sequence s.log.length }.setCaller i
          (.writing sequence s.log.length), .other)
    | _ => none
  | .write i lost =>
    match s.callers i with
    | .writing sequence began =>
      some ({ s with log := s.log ++ [Logged.mk (.sentinel sequence) lost] }.setCaller i
        (.waiting sequence began), .other)
    | _ => none
  -- no writer, or it failed: the barrier is incomplete
  | .refuse i =>
    match s.callers i with
    | .writing _ _ => some (s.setCaller i .outside, .other)
    | _ => none
  | .wake i =>
    match s.callers i with
    | .waiting sequence began =>
      if sequence ≤ s.progress.processed ∧ sequence ≤ s.progress.checked then
        some (s.setCaller i .outside, .returned i began)
      else none
    | _ => none
  | .expire i =>
    match s.callers i with
    | .waiting _ _ => some (s.setCaller i .outside, .other)
    | _ => none
  | .cover =>
    match s.flusher with
    | .waiting => some ({ s with flusher := .covering s.progress.sequence }, .other)
    | _ => none
  | .startFlush =>
    match s.flusher with
    | .covering covered => some ({ s with flusher := .flushing covered s.log.length }, .other)
    | _ => none
  | .flushed =>
    match s.flusher with
    | .flushing covered started =>
      -- the session's promise: what was lost before the flush began is counted
      if ∀ k < started, lostAt s.log k = true → k ∈ s.counted then
        if s.counters = s.seen then some ({ s with flusher := .checking covered }, .other)
        else some ({ s with seen := s.counters, flusher := .losing covered }, .other)
      else none
    | _ => none
  | .flushFailed =>
    match s.flusher with
    | .flushing _ _ => some ({ s with flusher := .waiting }, .other)
    | _ => none
  | .callLostEvents =>
    match s.flusher with
    | .losing covered =>
      some ({ s with lostMark := s.log.length, flusher := .checking covered }, .other)
    | _ => none
  | .callFlushChecked =>
    match s.flusher with
    | .checking covered =>
      some ({ s with progress := flushChecked s.progress covered, flusher := .waiting }, .other)
    | _ => none

end State

abbrev Step : State → Label → State → Prop :=
  Exec State.exec

/-- The trace session has just started. -/
def Initial (s : State) : Prop := s = {}

/-- The condition on a step: a query event given to the consumer is intact. -/
def Accepts (_ : State) (l : Label) : Prop :=
  ∀ index event, l = .delivered index event → event.Intact

abbrev Reaches : List Label → State → Prop :=
  Run Initial Step

/-- Runs whose every step meets the condition. -/
abbrev ReachesAccepted : List Label → State → Prop :=
  Run Initial fun s l s' => Accepts s l ∧ Step s l s'

/-! ## The invariant -/

/-- What the flusher has established in each place of its loop. -/
def FlusherOk (s : State) : Flusher → Prop
  | .waiting => True
  | .covering covered => covered ≤ s.progress.sequence
  | .flushing covered started =>
    covered ≤ s.progress.sequence ∧ s.began covered ≤ started ∧ started ≤ s.log.length
  | .losing covered =>
    covered ≤ s.progress.sequence ∧
      ∀ k < s.began covered, lostAt s.log k = true → k ∈ s.counted
  | .checking covered =>
    covered ≤ s.progress.sequence ∧ ∀ k < s.began covered, lostAt s.log k = true → k < s.lostMark

/-- A thread inside the barrier has its sequence and the log's length at its call. -/
def CallerOk (progress : Progress) (beganAt : Nat → Nat) : Caller → Prop
  | .outside => True
  | .writing sequence began | .waiting sequence began =>
    sequence ≤ progress.sequence ∧ beganAt sequence = began

structure Inv (s : State) : Prop where
  position : s.position ≤ s.log.length
  consumed : ∀ k < s.position, ∀ event, s.log[k]? = some ⟨.query event, false⟩ → k ∈ s.added
  began_le : ∀ q ≤ s.progress.sequence, s.began q ≤ s.log.length
  began_mono : ∀ q q', q ≤ q' → q' ≤ s.progress.sequence → s.began q ≤ s.began q'
  sentinels : ∀ k q lost, s.log[k]? = some ⟨.sentinel q, lost⟩ →
    q ≤ s.progress.sequence ∧ s.began q ≤ k
  processed : s.progress.processed ≤ s.progress.sequence ∧
    s.began s.progress.processed ≤ s.position
  checked : s.progress.checked ≤ s.progress.sequence ∧
    ∀ k < s.began s.progress.checked, lostAt s.log k = true → k < s.lostMark
  counted : ∀ k ∈ s.counted, k < s.log.length
  seen : s.seen.events ≤ s.counters.events ∧ s.seen.buffers ≤ s.counters.buffers
  reported : (∀ covered, s.flusher ≠ .losing covered) → s.counters = s.seen →
    ∀ k ∈ s.counted, k < s.lostMark
  lostMark : s.lostMark ≤ s.log.length
  flusher : FlusherOk s s.flusher
  callers : ∀ i, CallerOk s.progress s.began (s.callers i)

theorem Inv.initial (s : State) (fresh : Initial s) : Inv s := by
  subst fresh
  refine ⟨le_rfl, by simp, by simp, by simp, by simp, by simp, by simp, by simp, by simp, by simp,
    le_rfl, trivial, fun _ => trivial⟩

variable {s s' : State}

theorem lostAt_append {log : List Logged} (entry : Logged) {k : Nat} (old : k < log.length) :
    lostAt (log ++ [entry]) k = lostAt log k := by
  simp [lostAt, List.getElem?_append_left old]

theorem lostAt_lt {log : List Logged} {k : Nat} (lost : lostAt log k = true) : k < log.length := by
  by_contra beyond
  simp [lostAt, List.getElem?_eq_none (Nat.not_lt.mp beyond)] at lost

/-- What the flusher has established stands while sequences are assigned, the log grows and losses are
counted. -/
theorem FlusherOk.mono {flusher : Flusher} (good : FlusherOk s flusher)
    (sequence : s.progress.sequence ≤ s'.progress.sequence)
    (began : ∀ q ≤ s.progress.sequence, s'.began q = s.began q) (log : s.log.length ≤ s'.log.length)
    (lost : ∀ q ≤ s.progress.sequence, ∀ k < s.began q, lostAt s'.log k = lostAt s.log k)
    (counted : ∀ k ∈ s.counted, k ∈ s'.counted) (mark : s'.lostMark = s.lostMark) : FlusherOk s' flusher := by
  cases flusher with
  | waiting => trivial
  | covering covered => exact Nat.le_trans good sequence
  | flushing covered started =>
    exact ⟨good.1.trans sequence, (began _ good.1).trans_le good.2.1, good.2.2.trans log⟩
  | losing covered =>
    refine ⟨good.1.trans sequence, fun k less isLost => ?_⟩
    rw [began _ good.1] at less
    exact counted k (good.2 k less (lost _ good.1 k less ▸ isLost))
  | checking covered =>
    refine ⟨good.1.trans sequence, fun k less isLost => ?_⟩
    rw [began _ good.1] at less
    rw [mark]
    exact good.2 k less (lost _ good.1 k less ▸ isLost)

/-- Logging an event changes nothing that has been established. -/
theorem Inv.append (inv : Inv s) (entry : Logged)
    (sentinel : ∀ q, entry.item = .sentinel q → q ≤ s.progress.sequence) :
    Inv { s with log := s.log ++ [entry] } := by
  have length : (s.log ++ [entry]).length = s.log.length + 1 := by simp
  have older : ∀ q ≤ s.progress.sequence, ∀ k < s.began q,
      lostAt (s.log ++ [entry]) k = lostAt s.log k :=
    fun q bound k less => lostAt_append entry (less.trans_le (inv.began_le q bound))
  refine
    { inv with
      position := by simp only [length]; exact inv.position.trans (Nat.le_succ _)
      consumed := fun k less event at_ => ?_
      began_le := fun q bound => by simp only [length]; exact (inv.began_le q bound).trans (Nat.le_succ _)
      sentinels := fun k q lost at_ => ?_
      checked := ⟨inv.checked.1, fun k less lost => ?_⟩
      counted := fun k mem => by simp only [length]; exact (inv.counted k mem).trans (Nat.lt_succ_self _)
      lostMark := by simp only [length]; exact inv.lostMark.trans (Nat.le_succ _)
      flusher := ?_ }
  · have inside := less.trans_le inv.position
    refine inv.consumed k less event ?_
    simpa [List.getElem?_append_left inside] using at_
  · by_cases inside : k < s.log.length
    · exact inv.sentinels k q lost (by simpa [List.getElem?_append_left inside] using at_)
    · have bound := (List.getElem?_eq_some_iff.mp at_).1
      have last : k = s.log.length := by
        have : k < s.log.length + 1 := by simpa using bound
        omega
      subst last
      have same : entry = ⟨.sentinel q, lost⟩ := by simpa using at_
      have assigned := sentinel q (by rw [same])
      exact ⟨assigned, inv.began_le q assigned⟩
  · simp only [older _ inv.checked.1 k less] at lost
    exact inv.checked.2 k less lost
  · exact inv.flusher.mono le_rfl (fun _ _ => rfl) (length ▸ Nat.le_succ _) older (fun _ mem => mem) rfl

theorem Inv.setCaller (inv : Inv s) (i : Nat) {caller : Caller} (good : CallerOk s.progress s.began caller) :
    Inv (s.setCaller i caller) :=
  { inv with
    callers := fun j => by
      by_cases same : j = i
      · subst same
        simpa [State.setCaller] using good
      · simpa [State.setCaller, Function.update_of_ne same] using inv.callers j }

/-- A new sequence is assigned with the present length of the log. -/
theorem Inv.assign (inv : Inv s) :
    Inv { s with
      progress := { s.progress with sequence := s.progress.sequence + 1 }
      began := Function.update s.began (s.progress.sequence + 1) s.log.length } := by
  have old : ∀ q ≤ s.progress.sequence,
      Function.update s.began (s.progress.sequence + 1) s.log.length q = s.began q :=
    fun q bound => Function.update_of_ne (by omega) _ _
  refine
    { inv with
      began_le := fun q bound => ?_
      began_mono := fun q q' less bound => ?_
      sentinels := fun k q lost at_ => ?_
      processed := ?_
      checked := ?_
      flusher := ?_
      callers := fun i => ?_ }
  · by_cases new : q = s.progress.sequence + 1
    · simp [new]
    · have bound : q ≤ s.progress.sequence := by simp only at bound; omega
      simpa only [old q bound] using inv.began_le q bound
  · by_cases new : q' = s.progress.sequence + 1
    · by_cases both : q = q'
      · rw [both]
      · have bound : q ≤ s.progress.sequence := by omega
        simp only [old q bound, new, Function.update_self]
        exact inv.began_le q bound
    · have bound : q' ≤ s.progress.sequence := by simp only at bound; omega
      simp only [old q' bound, old q (less.trans bound)]
      exact inv.began_mono q q' less bound
  · obtain ⟨bound, after⟩ := inv.sentinels k q lost at_
    exact ⟨bound.trans (Nat.le_succ _), by simpa only [old q bound] using after⟩
  · exact ⟨inv.processed.1.trans (Nat.le_succ _),
      by simpa only [old _ inv.processed.1] using inv.processed.2⟩
  · exact ⟨inv.checked.1.trans (Nat.le_succ _),
      by simpa only [old _ inv.checked.1] using inv.checked.2⟩
  · exact inv.flusher.mono (Nat.le_succ _) old le_rfl (fun _ _ _ _ => rfl) (fun _ mem => mem) rfl
  · have caller := inv.callers i
    cases at_ : s.callers i with
    | outside => trivial
    | writing sequence began =>
      rw [at_] at caller
      exact ⟨caller.1.trans (Nat.le_succ _), by simpa only [old _ caller.1] using caller.2⟩
    | waiting sequence began =>
      rw [at_] at caller
      exact ⟨caller.1.trans (Nat.le_succ _), by simpa only [old _ caller.1] using caller.2⟩

/-- The consumer's step: an intact query is passed on, a sentinel moves `processed`
to a sequence whose call began before everything still unread. -/
theorem Inv.consume (inv : Inv s) {l : Label} (ok : Accepts s l)
    (taken : s.consume = some (s', l)) : Inv s' := by
  unfold State.consume at taken
  split at taken
  · cases taken
  · rename_i item lost at_
    have inside := (List.getElem?_eq_some_iff.mp at_).1
    have moved : ∀ added : List Nat, (∀ k ∈ s.added, k ∈ added) →
        (∀ event, item = .query event → lost = false → s.position ∈ added) →
        ∀ k < s.position + 1, ∀ event, s.log[k]? = some ⟨.query event, false⟩ → k ∈ added := by
      intro added kept new k less event found
      by_cases last : k = s.position
      · subst last
        rw [at_] at found
        cases found
        exact new event rfl rfl
      · exact kept k (inv.consumed k (by omega) event found)
    split_ifs at taken with gone
    · cases taken
      refine { inv with position := inside, consumed := moved s.added (fun _ h => h) ?_,
                        processed := ⟨inv.processed.1, inv.processed.2.trans (Nat.le_succ _)⟩ }
      intro _ _ kept
      rw [gone] at kept
      cases kept
    · cases item with
      | sentinel q =>
        obtain ⟨rfl, rfl⟩ := taken
        obtain ⟨assigned, after⟩ := inv.sentinels _ _ _ at_
        refine { inv with position := inside, consumed := moved s.added (fun _ h => h) (by simp)
                          processed := ?_ }
        simp only [State.sentinelProcessed]
        refine ⟨max_le inv.processed.1 assigned, ?_⟩
        rcases max_cases s.progress.processed q with ⟨same, _⟩ | ⟨same, _⟩
        · rw [same]
          exact inv.processed.2.trans (Nat.le_succ _)
        · rw [same]
          exact after.trans (Nat.le_succ _)
      | query event =>
        simp only at taken
        split_ifs at taken with ignored
        · cases taken
          exact absurd ignored ((processEvent_passed_iff event).mpr (ok _ event rfl))
        · cases taken
          exact { inv with
            position := inside
            consumed := moved (s.position :: s.added) (fun _ h => List.mem_cons_of_mem _ h)
              (fun _ _ _ => List.mem_cons_self)
            processed := ⟨inv.processed.1, inv.processed.2.trans (Nat.le_succ _)⟩ }

/-- The session counts losses: its counters leave the flusher's behind. -/
theorem Inv.count (inv : Inv s) {items : List Nat} (lost : ∀ k ∈ items, lostAt s.log k = true)
    {events buffers : Nat} (some_ : 0 < events + buffers) :
    Inv { s with
      counted := items ++ s.counted
      counters := ⟨s.counters.events + events, s.counters.buffers + buffers⟩ } := by
  refine
    { inv with
      counted := fun k mem => ?_
      seen := ⟨inv.seen.1.trans (Nat.le_add_right _ _), inv.seen.2.trans (Nat.le_add_right _ _)⟩
      reported := fun _ same => ?_
      flusher := ?_ }
  · rcases List.mem_append.mp mem with new | old
    · exact lostAt_lt (lost k new)
    · exact inv.counted k old
  · have behind := inv.seen
    rw [← same] at behind
    simp only at behind
    omega
  · exact inv.flusher.mono le_rfl (fun _ _ => rfl) le_rfl (fun _ _ _ _ => rfl)
      (fun _ => List.mem_append_right _) rfl

/-- A successful flush: either its counters are news, or everything lost before it
began was counted when the flusher last saw news. -/
theorem Inv.flushed (inv : Inv s) {covered started : Nat}
    (at_ : s.flusher = .flushing covered started)
    (promise : ∀ k < started, lostAt s.log k = true → k ∈ s.counted) :
    Inv (if s.counters = s.seen then { s with flusher := .checking covered }
      else { s with seen := s.counters, flusher := .losing covered }) := by
  have flusher := inv.flusher
  rw [at_] at flusher
  have lost : ∀ k < s.began covered, lostAt s.log k = true → k ∈ s.counted :=
    fun k less h => promise k (less.trans_le flusher.2.1) h
  split_ifs with same
  · have reported := inv.reported (by simp [at_]) same
    exact { inv with
      reported := fun _ _ => reported
      flusher := ⟨flusher.1, fun k less h => reported k (lost k less h)⟩ }
  · exact { inv with
      seen := ⟨le_rfl, le_rfl⟩
      reported := fun still => absurd rfl (still covered)
      flusher := ⟨flusher.1, lost⟩ }

/-- **Every accepted step keeps the invariant.** -/
theorem Inv.step {l : Label} (inv : Inv s) (ok : Accepts s l) (taken : Step s l s') : Inv s' := by
  obtain ⟨action, taken⟩ := taken
  have flusher := inv.flusher
  revert taken
  fun_cases State.exec s action <;> intro taken <;> try cases taken
  case case1 event lost => exact inv.append _ (by simp)
  case case2 => exact inv.consume ok taken
  case case3 items events buffers allowed => exact inv.count allowed.1 allowed.2
  case case5 i _ _ => exact inv.assign.setCaller i ⟨le_rfl, Function.update_self _ _ _⟩
  case case7 i lost sequence began at_ =>
    have caller := inv.callers i
    rw [at_] at caller
    refine (inv.append ⟨.sentinel sequence, lost⟩ fun q same => ?_).setCaller i caller
    cases same
    exact caller.1
  case case9 i _ _ _ => exact inv.setCaller i trivial
  case case11 i _ _ _ _ => exact inv.setCaller i trivial
  case case14 i _ _ _ => exact inv.setCaller i trivial
  case case16 at_ =>
    exact { inv with
      reported := fun _ => inv.reported (by simp [at_])
      flusher := le_refl s.progress.sequence }
  case case18 covered at_ =>
    rw [at_] at flusher
    exact { inv with
      reported := fun _ => inv.reported (by simp [at_])
      flusher := ⟨flusher, inv.began_le covered flusher, le_rfl⟩ }
  case case20 covered started at_ promise same => simpa only [if_pos same] using inv.flushed at_ promise
  case case21 covered started at_ promise news => simpa only [if_neg news] using inv.flushed at_ promise
  case case24 at_ => exact { inv with reported := fun _ => inv.reported (by simp [at_]), flusher := trivial }
  case case26 covered at_ =>
    rw [at_] at flusher
    exact { inv with
      checked := ⟨inv.checked.1, fun k _ lost => lostAt_lt lost⟩
      reported := fun _ _ => inv.counted
      lostMark := le_rfl
      flusher := ⟨flusher.1, fun k _ lost => lostAt_lt lost⟩ }
  case case28 covered at_ =>
    rw [at_] at flusher
    refine { inv with
      checked := ⟨max_le inv.checked.1 flusher.1, ?_⟩
      reported := fun _ => inv.reported (by simp [at_])
      flusher := trivial }
    rcases max_cases s.progress.checked covered with ⟨same, _⟩ | ⟨same, _⟩
    · simpa only [State.flushChecked, same] using inv.checked.2
    · simpa only [State.flushChecked, same] using flusher.2

/-! ## Soundness -/

/-- Only the end of a satisfied wait returns. -/
theorem Step.returned {i began : Nat} (taken : Step s (.returned i began) s') :
    ∃ sequence, s.callers i = .waiting sequence began ∧ sequence ≤ s.progress.processed ∧
      sequence ≤ s.progress.checked ∧ s' = s.setCaller i .outside := by
  obtain ⟨action, taken⟩ := taken
  revert taken
  fun_cases State.exec s action <;> intro taken <;> try cases taken
  case case2 =>
    -- the consumer's steps do not return
    revert taken
    fun_cases State.consume s <;> simp
  case case11 sequence satisfied at_ => exact ⟨sequence, at_, satisfied.1, satisfied.2, rfl⟩

/-- **The barrier is sound where the consumer's query events are intact.** When
`barrier` returns true, every query event logged before the call began has been
passed to `Hints::add` or was followed by a `lostEvents` call. -/
theorem barrier_sound {labels : List Label} {s : State} {i began : Nat}
    (run : ReachesAccepted (.returned i began :: labels) s) :
    ∀ k < began, ∀ event lost, s.log[k]? = some ⟨.query event, lost⟩ →
      k ∈ s.added ∨ k < s.lostMark := by
  cases run with
  | @next _ _ s₀ _ before taken =>
    have inv : Inv s₀ :=
      Run.invariant_of_ok Accepts (fun _ s => Inv s) (fun s fresh => Inv.initial s fresh)
        (fun _ _ _ _ inv ok taken => inv.step ok taken) before
    obtain ⟨sequence, at_, processed, checked, rfl⟩ := taken.2.returned
    have caller := inv.callers i
    rw [at_] at caller
    obtain ⟨_, rfl⟩ := caller
    intro k less event lost found
    -- the sentinel that was processed was written after this call had begun
    have read : k < s₀.position :=
      calc k < s₀.began sequence := less
        _ ≤ s₀.began s₀.progress.processed := inv.began_mono _ _ processed inv.processed.1
        _ ≤ s₀.position := inv.processed.2
    cases lost with
    | false => exact Or.inl (inv.consumed k read event found)
    | true =>
      have covered := inv.began_mono _ _ checked inv.checked.1
      have isLost : lostAt s₀.log k = true := by
        have found : s₀.log[k]? = some ⟨.query event, true⟩ := found
        simp [lostAt, found]
      exact Or.inr (inv.checked.2 k (less.trans_le covered) isLost)

/-! ## Poles -/

/-- One query is logged, one thread calls the barrier, and consumer and flusher do
their rounds. -/
def oneRound (event : QueryEvent) : List Action :=
  [.log event false, .call 0, .write 0 false, .cover, .startFlush, .flushed, .callFlushChecked,
    .consume, .consume, .wake 0]

/-- The state and the labels of that round. -/
def afterRound (event : QueryEvent) : Option (State × List Label) :=
  schedule State.exec (fun _ _ => true) {} (oneRound event) []

theorem accepts_plainQuery {l : Label}
    (checked : (match l with
      | .delivered _ event => event == plainQuery
      | _ => true) = true) : Accepts s l := by
  intro index event same
  subst same
  have same : event = plainQuery := by simpa using checked
  rw [same]
  exact (processEvent_passed_iff _).mp (by decide +kernel)

/-- The barrier returns for a thread whose query event was passed on. -/
theorem barrier_sound_round :
    ∃ labels s, ReachesAccepted (.returned 0 1 :: labels) s ∧
      ∀ k < 1, ∀ event lost, s.log[k]? = some ⟨.query event, lost⟩ → k ∈ s.added ∨ k < s.lostMark := by
  obtain ⟨s, run⟩ : ∃ s, ReachesAccepted (.returned 0 1 :: .other :: .delivered 0 plainQuery ::
      List.replicate 7 Label.other) s :=
    run_of_schedule (fun _ _ _ passed taken => ⟨accepts_plainQuery passed, taken⟩)
      {} (rfl : Initial {}) (oneRound plainQuery) (by decide +kernel)
  exact ⟨_, s, run, barrier_sound run⟩

/-- The barrier returns for a thread whose own query event `processEvent` ignored:
neither passed to `Hints::add` nor followed by a `lostEvents` call. -/
theorem barrier_misses_ignored :
    ∃ labels s i began, Reaches (.returned i began :: labels) s ∧
      ∃ k < began, ∃ event lost, s.log[k]? = some ⟨.query event, lost⟩ ∧ k ∉ s.added ∧
        ¬ k < s.lostMark := by
  obtain ⟨⟨s, labels⟩, ran, facts⟩ := Option.map_eq_some_iff.mp
    (show (afterRound trailingDotQuery).map (fun r => (r.2.head?, r.1.log[0]?, r.1.added, r.1.lostMark)) =
      some (some (.returned 0 1), some ⟨.query trailingDotQuery, false⟩, [], 0) by decide +kernel)
  simp only [Prod.mk.injEq] at facts
  obtain ⟨first, logged, added, mark⟩ := facts
  have run : Reaches labels s :=
    schedule_run (fun _ _ _ _ taken => taken) (oneRound trailingDotQuery)
      (.start (rfl : Initial {})) ran
  obtain ⟨rest, rfl⟩ := List.head?_eq_some_iff.mp first
  exact ⟨rest, s, 0, 1, run, 0, Nat.one_pos, trailingDotQuery, false, logged, by simp [added],
    by simp [mark]⟩

end ProgramSplit.Dns.Barrier
