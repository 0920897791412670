/-
# Windows.Supervisor — the loop that keeps the DNS dispatcher running

The loop of the service host that starts, adopts, probes and replaces the dispatcher and suspends or
restores the owned NRPT rule.  A pass reads the tick count once and asks the system a number of
questions; the answers of one pass are a record, and nothing is assumed about them.

* `statusProcessId`, `adoptDispatcher` — the process identifier of a published record, and the
  process it names.
* `pass` — one pass of the loop, cut into the blocks of the source.
* `Justified` — what each call of the loop has to rest on, in terms of the calls and answers before.

The host log and the inside of `republishProcessId` are left out.
-/
import Mathlib.Algebra.Group.Nat.Defs
import ProgramSplit.Lib.Run
import ProgramSplit.Lib.Trace
import ProgramSplit.Windows.ParseNumber

namespace ProgramSplit.Windows.Supervisor

set_option autoImplicit false

open Lib
open ParseNumber (Text parseDecimal parseDecimal_eq_some)

def kSuspendAfterMilliseconds : Nat := 15000
def kRestartSpacingMilliseconds : Nat := 1000
def kHelperRetryMilliseconds : Nat := 2000
def kHelperTimeoutMilliseconds : Nat := 60000
def kLivenessIntervalMilliseconds : Nat := 1000
def kLivenessFailures : Nat := 3
def kLivenessFailureGraceMilliseconds : Nat := 10000
def kStartupDeadlineMilliseconds : Nat := 10000

/-- The difference of two `ULONGLONG`s. -/
def minus (now earlier : Nat) : Nat :=
  (now + 2 ^ 64 - earlier) % 2 ^ 64

theorem minus_eq {now earlier : Nat} (past : earlier ≤ now) (bound : now < 2 ^ 64) :
    minus now earlier = now - earlier := by
  unfold minus
  omega

/-! ## Published process identifiers -/

/-- `pid=` -/
def pidPrefix : Text := [112, 105, 100, 61]

/-- `statusProcessId`: the number after `pid=` on the first line, 0 for anything else. -/
def statusProcessId (status : Text) : Nat :=
  if pidPrefix.isPrefixOf status then
    let line := status.takeWhile fun c => c != 13 && c != 10
    (parseDecimal (line.drop 4) 0xffffffff).elim 0 UInt64.toNat
  else 0

theorem statusProcessId_le (status : Text) : statusProcessId status ≤ 0xffffffff := by
  unfold statusProcessId
  split
  · dsimp only
    cases parsed : parseDecimal ((status.takeWhile fun c => c != 13 && c != 10).drop 4) 0xffffffff with
    | none => exact Nat.zero_le _
    | some value => exact UInt64.le_iff_toNat_le.mp (parseDecimal_eq_some.mp parsed).2.2.2
  · exact Nat.zero_le _

/-- A process handle with the identifier of its process. -/
structure Process where
  handle : Nat
  id : Nat
  valid : 0 < id ∧ id ≤ 0xffffffff
  deriving DecidableEq, Repr

/-- `adoptDispatcher`: the process named by the pid file, if it can be opened, still runs and has the
dispatcher's image. -/
def adoptDispatcher (pidFile : Text) (opened : Option Nat) (runs imageMatches : Bool) : Option Process :=
  if named : statusProcessId (pidPrefix ++ pidFile) = 0 then none
  else
    opened.bind fun handle =>
      if runs && imageMatches then
        some ⟨handle, statusProcessId (pidPrefix ++ pidFile), Nat.pos_of_ne_zero named, statusProcessId_le _⟩
      else none

/-! ## The loop -/

/-- What the system answers in one pass.  An answer that the pass does not ask for is not read. -/
structure Answers where
  /-- whether the helper still runs, before and after the timeout is enforced -/
  helperRuns : Bool
  helperStillRuns : Bool
  /-- whether the supervised file exists -/
  supervised : Bool
  /-- whether the held dispatcher still runs, first and under the component lock -/
  childRuns : Bool
  childRunsLocked : Bool
  /-- whether the component lock is acquired -/
  lock : Bool
  /-- whether the supervised file exists under the lock -/
  supervisedLocked : Bool
  pidFile : Text
  opened : Option Nat
  openedRuns : Bool
  imageMatches : Bool
  /-- the process that a start gives, if it succeeds -/
  startDispatcher : Option Process
  /-- whether the held dispatcher runs when its readiness is judged -/
  childRunsNow : Bool
  status : Text
  dispatcherAnswers : Bool
  /-- whether the marker of a suspended rule exists -/
  suspended : Bool
  ownedRulePresent : Bool
  startNrptHelper : Option Nat
  deriving DecidableEq, Repr

inductive Action
  | resume
  | suspend
  deriving DecidableEq, Repr

/-- What a pass does and finds. -/
inductive Event
  /-- the helper ran into its timeout -/
  | helperTerminated
  /-- the helper was found to have ended -/
  | helperEnded
  /-- the supervised file was found absent -/
  | absent
  /-- the dispatcher, if one is held, is let go -/
  | released
  /-- the held dispatcher was found to have ended -/
  | ended
  | adopted (child : Process)
  | started (child : Option Process)
  | probed (child : Process) (answered : Bool)
  | terminated (child : Process)
  /-- the live dispatcher held at this point, its status file, and whether it is ready -/
  | found (live : Option Process) (status : Text) (ready : Bool)
  | republished (child : Process)
  /-- a helper was started, or could not be -/
  | helper (action : Action) (running : Bool)
  deriving DecidableEq, Repr

structure Stamped where
  tick : Nat
  event : Event
  deriving DecidableEq, Repr

/-- The locals of `superviseLoop`. -/
structure Loop where
  child : Option Process
  lastStart : Nat
  unreadySince : Nat
  helper : Option Nat
  helperStarted : Nat
  helperEnded : Nat
  lastProbe : Nat
  childSince : Nat
  failures : Nat
  firstFailure : Nat
  answered : Bool
  deriving DecidableEq, Repr

/-- The loop, the tick of its current pass, and all it did and found, latest first. -/
structure Host where
  loop : Loop
  now : Nat
  trace : List Stamped
  deriving DecidableEq, Repr

def Host.initial : Host :=
  ⟨⟨none, 0, 0, none, 0, 0, 0, 0, 0, 0, false⟩, 0, []⟩

def Host.emit (host : Host) (event : Event) : Host :=
  { host with trace := ⟨host.now, event⟩ :: host.trace }

def dispatcherFailurePersistent (failures firstFailure now : Nat) : Bool :=
  decide (kLivenessFailures ≤ failures) && decide (firstFailure ≤ now) &&
    decide (kLivenessFailureGraceMilliseconds ≤ minus now firstFailure)

def Loop.resetLiveness (loop : Loop) : Loop :=
  { loop with failures := 0, firstFailure := 0, answered := false, lastProbe := 0 }

section Parts

variable (answers : Answers) (host : Host)

/-- End a helper that takes too long. -/
def limitHelper : Host :=
  if host.loop.helper.isSome && answers.helperRuns &&
      decide (kHelperTimeoutMilliseconds ≤ minus host.now host.loop.helperStarted) then
    host.emit .helperTerminated
  else host

/-- Note that the helper has ended. -/
def reapHelper : Host :=
  if host.loop.helper.isSome && !answers.helperStillRuns then
    { host.emit .helperEnded with loop := { host.loop with helper := none, helperEnded := host.now } }
  else host

/-- The supervised file is absent at the beginning of the pass. -/
def standDown : Host :=
  { (host.emit .absent).emit .released with
    loop := { host.loop with child := none, unreadySince := 0 }.resetLiveness }

def dropEnded : Host :=
  if host.loop.child.isSome && !answers.childRunsLocked then
    { host.emit .ended with loop := { host.loop with child := none }.resetLiveness }
  else host

def adopt : Host :=
  if host.loop.child.isNone then
    match adoptDispatcher answers.pidFile answers.opened answers.openedRuns answers.imageMatches with
    | some child =>
      { host.emit (.adopted child) with
        loop := { host.loop with child := some child, childSince := host.now }.resetLiveness }
    | none => host
  else host

def start : Host :=
  if host.loop.child.isNone && decide (kRestartSpacingMilliseconds ≤ minus host.now host.loop.lastStart) then
    { host.emit (.started answers.startDispatcher) with
      loop := { host.loop with
        lastStart := host.now, childSince := host.now, child := answers.startDispatcher }.resetLiveness }
  else host

/-- Whether the pass looks for the supervised file again, under the lock. -/
def rechecks : Bool :=
  !(host.loop.child.isSome && answers.childRuns) && answers.lock

/-- Drop, adopt or start the dispatcher under the component lock. -/
def acquire : Host :=
  if rechecks answers host then
    if answers.supervisedLocked then start answers (adopt answers (dropEnded answers host))
    else host.emit .absent
  else host

def alive : Option Process :=
  if answers.childRunsNow then host.loop.child else none

def published : Bool :=
  (alive answers host).any fun child => statusProcessId answers.status == child.id

/-- A probe without an answer: count it, and replace a dispatcher that has failed for long. -/
def failProbe (child : Process) (host : Host) : Host :=
  let firstFailure := if host.loop.failures = 0 then host.now else host.loop.firstFailure
  let failures := (host.loop.failures + 1) % 2 ^ 32
  let loop := { host.loop with lastProbe := host.now, firstFailure, failures }
  if dispatcherFailurePersistent failures firstFailure host.now then
    { (host.emit (.probed child false)).emit (.terminated child) with
      loop := { loop with answered := false } }
  else { host.emit (.probed child false) with loop }

def probe : Host :=
  match alive answers host with
  | some child =>
    if (published answers host || decide (kStartupDeadlineMilliseconds ≤
      minus host.now host.loop.childSince)) &&
        decide (kLivenessIntervalMilliseconds ≤ minus host.now host.loop.lastProbe) then
      if answers.dispatcherAnswers then
        { host.emit (.probed child true) with
          loop := { host.loop with lastProbe := host.now, failures := 0, firstFailure := 0, answered := true } }
      else failProbe child host
    else host
  | none => host

def isReady : Bool :=
  published answers host && host.loop.answered && decide (host.loop.failures = 0)

/-- Note whether a ready dispatcher is held, and since when there is none. -/
def judge : Host :=
  let noted := host.emit (.found (alive answers host) answers.status (isReady answers host))
  if isReady answers host then
    { (alive answers host).elim noted fun child => noted.emit (.republished child) with
      loop := { host.loop with unreadySince := 0 } }
  else
    { noted with
      loop := { host.loop with
        unreadySince := if host.loop.unreadySince = 0 then host.now else host.loop.unreadySince } }

end Parts

/-- The action that the rule's state asks for. -/
def wanted (answers : Answers) (ready : Bool) (host : Host) : Option Action :=
  if ready && answers.suspended then some .resume
  else if !ready && decide (kSuspendAfterMilliseconds ≤ minus host.now host.loop.unreadySince) &&
      answers.ownedRulePresent then some .suspend
  else none

def reconcile (answers : Answers) (ready : Bool) (host : Host) : Host :=
  match wanted answers ready host with
  | some action =>
    if host.loop.helper.isNone && decide (kHelperRetryMilliseconds ≤
      minus host.now host.loop.helperEnded) then
      { host.emit (.helper action answers.startNrptHelper.isSome) with
        loop := { host.loop with
          helperStarted := host.now
          helper := answers.startNrptHelper
          helperEnded := if answers.startNrptHelper.isSome then host.loop.helperEnded else host.now } }
    else host
  | none => host

/-- One pass of `superviseLoop` that reads the tick count `now`. -/
def pass (answers : Answers) (now : Nat) (host : Host) : Host :=
  let host := reapHelper answers (limitHelper answers { host with now })
  if answers.supervised then
    let host := probe answers (acquire answers host)
    reconcile answers (isReady answers host) (judge answers host)
  else standDown host

/-! ## What the loop's acts have to rest on -/

structure Probe where
  tick : Nat
  child : Process
  answered : Bool

structure Found where
  tick : Nat
  live : Option Process
  status : Text
  ready : Bool

/-- The dispatcher that is held. -/
def holding : List Stamped → Option Process
  | [] => none
  | stamped :: earlier =>
    match stamped.event with
    | .adopted child => some child
    | .started child => child
    | .ended | .released => none
    | _ => holding earlier

/-- What the held dispatcher's last probe said, if it has been probed. -/
def heard : List Stamped → Option Bool
  | [] => none
  | stamped :: earlier =>
    match stamped.event with
    | .probed _ answered => some answered
    | .adopted _ | .started _ | .ended | .released => none
    | _ => heard earlier

/-- The probes since the supervised file was last absent. -/
def probes : List Stamped → List Probe
  | [] => []
  | stamped :: earlier =>
    match stamped.event with
    | .probed child answered => ⟨stamped.tick, child, answered⟩ :: probes earlier
    | .absent => []
    | _ => probes earlier

/-- What the passes since the supervised file was last absent found. -/
def finds : List Stamped → List Found
  | [] => []
  | stamped :: earlier =>
    match stamped.event with
    | .found live status ready => ⟨stamped.tick, live, status, ready⟩ :: finds earlier
    | .absent => []
    | _ => finds earlier

/-- Whether a helper runs, as far as the loop could see. -/
def helperRunning : List Stamped → Bool
  | [] => false
  | stamped :: earlier =>
    match stamped.event with
    | .helper _ running => running
    | .helperEnded => false
    | _ => helperRunning earlier

def Event.isStart : Event → Bool
  | .started _ => true
  | _ => false

/-- Records that need only come one after the other. -/
abbrev Unbroken {R : Type} (P : R → Prop) : List R → Nat → R → Prop :=
  Streak P fun _ _ => True

/-- No helper runs, and the last one ended two seconds ago. -/
def HelperFree (tick : Nat) (earlier : List Stamped) : Prop :=
  helperRunning earlier = false ∧
    ∀ other ∈ earlier, other.event = .helperEnded → other.tick + kHelperRetryMilliseconds ≤ tick

/-- **The evidence an act rests on**, in terms of what the loop did and found before. -/
def Justified (act : Stamped) (earlier : List Stamped) : Prop :=
  match act.event with
  -- three failed probes of this process or more, the first ten seconds ago, and none with an answer since
  | .terminated child => holding earlier = some child ∧ ∃ count first, kLivenessFailures ≤ count ∧
      Unbroken (fun probe => probe.child = child ∧ probe.answered = false) (probes earlier) count first ∧
      first.tick + kLivenessFailureGraceMilliseconds ≤ act.tick
  | .started _ => holding earlier = none ∧
      ∀ other ∈ earlier, other.event.isStart = true → other.tick + kRestartSpacingMilliseconds ≤ act.tick
  -- a dispatcher is ready if it is held, alive and published and answered its last probe
  | .found live status ready => (ready = true ↔ ∃ child, live = some child ∧ holding earlier = some child ∧
      statusProcessId status = child.id ∧ heard earlier = some true)
  | .helper .suspend _ => HelperFree act.tick earlier ∧ ∃ count first,
      Unbroken (fun found => found.ready = false) (finds earlier) count first ∧
      first.tick + kSuspendAfterMilliseconds ≤ act.tick
  | .helper .resume _ => HelperFree act.tick earlier ∧ ∃ found child, (finds earlier).head? = some found ∧
      found.tick = act.tick ∧ found.ready = true ∧ found.live = some child ∧ holding earlier = some child ∧
      statusProcessId found.status = child.id
  | _ => True

/-! ## Runs -/

/-- A pass with a tick count that does not go back. -/
def Step (host : Host) (label : Nat × Answers) (host' : Host) : Prop :=
  host.now ≤ label.1 ∧ label.1 < 2 ^ 64 ∧ host' = pass label.2 label.1 host

/-- The supervised file does not disappear between the two tests of one pass. -/
def Stays (host : Host) (label : Nat × Answers) : Prop :=
  label.2.supervised = true → rechecks label.2 host = true → label.2.supervisedLocked = true

end ProgramSplit.Windows.Supervisor
