/-
# Windows.Recovery — opt-in recovery of physical adapters

Two programs share a ledger file.  The controller samples the enrolled adapters and requests an
action once its evidence is old enough; the executor authorizes the action again, reserves it in the
ledger and only then acts.

* `getRecoveryBudget` — which ledger files are accepted.
* `getRecoveryAction` — the action that evidence and budget authorize.
* `invokePhysicalRecovery` — what a run of the executor does, in order; a run that dies has done a
  part of it.
* `testPhysicalRecovery` — one sample of the controller.
* `World`, `Step` — samples, runs and controller restarts in any order, each with whatever the system
  answers.

Times of the ledger are in the 100 ns ticks of a UTC reading, times of the samples in milliseconds of
the tick count.  Log and evidence records are left out, and so is what the errors say.
-/
import Mathlib.Algebra.Group.Nat.Defs
import ProgramSplit.Lib.Sequence
import ProgramSplit.Lib.Trace

namespace ProgramSplit.Windows.Recovery

set_option autoImplicit false

/-- A GUID; `0` is the empty one. -/
abbrev Guid := Nat

abbrev Profile := List UInt16

/-- One second in ticks of a UTC reading. -/
def second : Nat := 10000000

inductive Action
  | resetPaused
  | reconnectWifi
  | resetWifi
  deriving DecidableEq, Repr

/-- Whether the action restarts the device. -/
def Action.restarts : Action → Bool
  | .reconnectWifi => false
  | _ => true

/-- What is not the program's own: string comparison, and the length of the JSON text of a ledger. -/
structure Runtime (Ledger : Type) where
  ceq : Profile → Profile → Bool
  size : Ledger → Nat

/-! ## Enrolment -/

structure Entry where
  guid : Guid
  type : Nat
  wifiProfile : Profile
  deriving DecidableEq, Repr

/-- An accepted enrolment; its adapters are different and named. -/
structure Policy where
  allowAdapterRestart : Bool
  adapters : List Entry
  unique : (adapters.map Entry.guid).Nodup
  named : ∀ entry ∈ adapters, entry.guid ≠ 0
  deriving DecidableEq, Repr

/-- What `Get-ProgramSplitRecoveryPolicy` gives: an error, no enabled enrolment, or an enrolment. -/
inductive Enrolment
  | raised
  | off
  | on (policy : Policy)
  deriving DecidableEq, Repr

/-- A JSON file: missing, or with a length and a content, if it is JSON at all. -/
inductive File (α : Type)
  | missing
  | text (length : Nat) (json : Option α)
  deriving DecidableEq, Repr

/-! ## The ledger -/

/-- What the ledger keeps for an adapter. -/
structure Budget where
  guid : Guid
  windowUtc : Nat
  resetUtc : Nat
  sequenceUtc : Nat
  resets : Nat
  refreshRecord : Nat
  deriving DecidableEq, Repr

abbrev Ledger := List Budget

/-- An entry as it stands in the file: dates and a GUID that may not read, numbers that may not be
integers or be negative. -/
structure RawBudget where
  guid : Option Guid
  windowUtc : Option Nat
  resetUtc : Option Nat
  sequenceUtc : Option Nat
  resets : Option Int
  refreshRecord : Option Int
  deriving DecidableEq, Repr

def RawBudget.check (raw : RawBudget) : Option Budget :=
  match raw.guid, raw.windowUtc, raw.resetUtc, raw.sequenceUtc, raw.resets, raw.refreshRecord with
  | some guid, some windowUtc, some resetUtc, some sequenceUtc, some resets, some refreshRecord =>
    if guid = 0 ∨ resets < 0 ∨ 2 < resets ∨ refreshRecord < 0 then none
    else some ⟨guid, windowUtc, resetUtc, sequenceUtc, resets.toNat, refreshRecord.toNat⟩
  | _, _, _, _, _, _ => none

structure RawLedger where
  schemaOne : Bool
  adapters : List RawBudget
  deriving DecidableEq, Repr

/-- `Get-ProgramSplitRecoveryBudget`; `none` if it throws. -/
def getRecoveryBudget : File RawLedger → Option Ledger
  | .missing => none
  | .text length json =>
    if 16384 < length then none
    else
      json.bind fun raw =>
        if raw.schemaOne = false ∨ 64 < raw.adapters.length then none
        else
          (raw.adapters.mapM RawBudget.check).bind fun ledger =>
            if (ledger.map Budget.guid).Nodup then some ledger else none

def Budget.raw (budget : Budget) : RawBudget :=
  ⟨some budget.guid, some budget.windowUtc, some budget.resetUtc, some budget.sequenceUtc, some budget.resets,
    some budget.refreshRecord⟩

variable (runtime : Runtime Ledger)

/-- The file that a ledger is written as. -/
def Runtime.write (ledger : Ledger) : File RawLedger :=
  .text (runtime.size ledger) (some ⟨true, ledger.map Budget.raw⟩)

def Ledger.find (ledger : Ledger) (guid : Guid) : Option Budget :=
  ledger.find? fun budget => budget.guid == guid

/-- `$budgets[$key]=$budget`; the order of a hashtable is not observed. -/
def Ledger.put (ledger : Ledger) (budget : Budget) : Ledger :=
  budget :: ledger.filter fun other => other.guid != budget.guid

/-! ## What evidence authorizes -/

/-- What `GetIfEntry2` says of an adapter. -/
structure Snapshot where
  guid : Guid
  index : Nat
  type : Nat
  hardware : Bool
  paused : Bool
  lowPower : Bool
  adminUp : Bool
  linkUp : Bool
  sentBytes : Nat
  receivedBytes : Nat
  deriving DecidableEq, Repr

structure Wireless where
  state : Int
  radioOn : Bool
  visible : Bool
  signal : Nat
  deriving DecidableEq, Repr

/-- The newest connection event of the last two minutes. -/
structure Intent where
  id : Nat
  recordId : Nat
  profile : Profile
  reason : Nat
  time : Nat
  deriving DecidableEq, Repr

/-- How long ago a UTC time is. -/
def age (now time : Nat) : Int :=
  (now : Int) - time

/-- The budget defers every action. -/
def Budget.defers (budget : Budget) (now : Nat) : Bool :=
  decide (age now budget.resetUtc < 600 * second) || decide (age now budget.windowUtc < 0) ||
    (decide (age now budget.windowUtc < 3600 * second) && decide (2 ≤ budget.resets))

/-- A failed request for the enrolled profile on a disconnected radio, between one and two minutes
old. -/
def wifiFault (entry : Entry) (wireless : Wireless) (intent : Intent) (now : Nat) : Bool :=
  decide (wireless.state = 4) && wireless.radioOn && decide (intent.id = 8002) &&
    decide (intent.reason = 163851) &&
    runtime.ceq intent.profile entry.wifiProfile && decide (60 * second ≤ age now intent.time) &&
    decide (age now intent.time ≤ 120 * second)

def wifiAction (budget : Option Budget) (wireless : Wireless) (intent : Intent) (now : Nat)
    (allowAdapterRestart : Bool) (failure : Nat) : Option Action :=
  match budget with
  | none => some .reconnectWifi
  | some budget =>
    let sequenceAge := age now budget.sequenceUtc
    if sequenceAge < 0 then none
    else if allowAdapterRestart && decide (300000 ≤ failure) && decide (sequenceAge < 600 * second) &&
        decide (0 < budget.refreshRecord) && decide (budget.refreshRecord < intent.recordId) &&
          wireless.visible &&
        decide (25 ≤ wireless.signal) then some .resetWifi
    else if 600 * second ≤ sequenceAge then some .reconnectWifi
    else none

/-- What the samples of an adapter amount to: the number of paused ones, and for how many
milliseconds the fault has lasted. -/
structure Evidence where
  pauseSamples : Nat
  failure : Nat
  deriving DecidableEq, Repr

/-- `Get-ProgramSplitRecoveryAction` -/
def getRecoveryAction (entry : Entry) (snapshot : Snapshot) (wireless : Option Wireless)
    (intent : Option Intent) (budget : Option Budget) (evidence : Evidence) (now uptime : Nat)
    (allowAdapterRestart : Bool) : Option Action :=
  if uptime < 90000 || !snapshot.hardware || !snapshot.adminUp || snapshot.lowPower ||
      decide (snapshot.guid ≠ entry.guid) || decide (snapshot.type ≠ entry.type) then none
  else if budget.any (·.defers now) then none
  else if allowAdapterRestart && decide (300000 ≤ evidence.failure) && decide (entry.type = 6) &&
    snapshot.paused &&
      snapshot.linkUp && decide (3 ≤ evidence.pauseSamples) then some .resetPaused
  else if entry.type ≠ 71 then none
  else
    match wireless, intent with
    | some wireless, some intent =>
      if wifiFault runtime entry wireless intent now && decide (60000 ≤ evidence.failure) then
        wifiAction budget wireless intent now allowAdapterRestart evidence.failure
      else none
    | _, _ => none

/-- The IPv4 default routes other than the tunnel's. -/
inductive Route
  | unknown
  | none
  | preferred (index : Nat)
  deriving DecidableEq, Repr

/-- `Test-ProgramSplitRecoveryRouteSafe` -/
def routeSafe (route : Route) (index : Nat) (action : Action) : Bool :=
  match route with
  | .unknown => false
  | .none => action != .resetPaused
  | .preferred other => other == index

/-! ## The executor -/

structure Arguments where
  guid : Guid
  action : Action
  pauseSamples : Nat
  pausedSentBytes : Option Nat
  failureStartedTick : Option Nat
  pausedReceivedBytes : Option Nat
  deriving DecidableEq, Repr

/-- What `Get-NetAdapter` says of the adapter. -/
structure Inventory where
  ifIndex : Nat
  hardwareInterface : Bool
  adminUp : Bool
  /-- the device instance is one of the PCI, USB or ACPI bus -/
  verified : Bool
  deriving DecidableEq, Repr

/-- What the system answers to a run of the executor; `none` where a call throws. -/
structure Answers where
  lease : Bool
  enrolment : Enrolment
  enabled : Bool
  snapshot : Option Snapshot
  now : Nat
  wireless : Option Wireless
  intent : Option Intent
  tick : Nat
  route : Route
  filtersValid : Bool
  serviceRuns : Bool
  /-- the ledger, and then the evidence record, could be written -/
  reserved : Bool
  recorded : Bool
  inventory : Option Inventory
  enrolmentAgain : Enrolment
  routeAgain : Route
  fresh : Option Snapshot
  enabledAgain : Bool
  freshIntent : Option Intent
  freshWireless : Option Wireless
  restartCompletes : Bool
  /-- the radio came up within eight seconds, and the scan could be started -/
  radioReady : Bool
  scanStarts : Bool
  latestIntent : Option Intent
  radio : Option Wireless
  latestEnrolment : Enrolment
  enabledStill : Bool
  routeStill : Route
  connects : Bool
  refreshed : Bool
  deriving DecidableEq, Repr

/-- The adapter's enrolment, if there is one and only one. -/
def Enrolment.entry (enrolment : Enrolment) (guid : Guid) : Option (Policy × Entry) :=
  match enrolment with
  | .on policy =>
    match policy.adapters.filter fun entry => entry.guid == guid with
    | [entry] => some (policy, entry)
    | _ => none
  | _ => none

/-- The reading of an optional device; only Wi-Fi adapters are asked. -/
def ifWifi {α : Type} (entry : Entry) (reading : Option α) : Option α :=
  if entry.type = 71 then reading else none

/-- What is decided before anything is written. -/
structure Authorized where
  entry : Entry
  snapshot : Snapshot
  intent : Option Intent
  ledger : Ledger
  deriving DecidableEq, Repr

def Answers.evidence (answers : Answers) (arguments : Arguments) : Evidence :=
  ⟨arguments.pauseSamples, match arguments.failureStartedTick with
    | some started => if started ≤ answers.tick then answers.tick - started else 0
    | none => 0⟩

/-- The checks before the reservation. -/
def authorize (arguments : Arguments) (answers : Answers) (file : File RawLedger) :
    Option Authorized :=
  if answers.lease && answers.enabled then
    match answers.enrolment.entry arguments.guid, answers.snapshot, getRecoveryBudget file with
    | some (policy, entry), some snapshot, some ledger =>
      -- reading the wireless state of a Wi-Fi adapter throws if it cannot be read
      if entry.type = 71 ∧ answers.wireless = none then none
      else
        let intent := ifWifi entry answers.intent
        if getRecoveryAction runtime entry snapshot (ifWifi entry answers.wireless) intent
              (Ledger.find ledger arguments.guid) (answers.evidence arguments) answers.now answers.tick
              policy.allowAdapterRestart = some arguments.action ∧
            routeSafe answers.route snapshot.index arguments.action ∧ answers.filtersValid ∧
            answers.serviceRuns then
          some ⟨entry, snapshot, intent, ledger⟩
        else none
    | _, _, _ => none
  else none

/-- The budget entry that reserves an action.  `[datetime]::MinValue` is the time `0`. -/
def reserve (guid : Guid) (action : Action) (now : Nat) (budget : Option Budget) : Budget :=
  let budget := budget.getD ⟨guid, now, 0, 0, 0, 0⟩
  let budget :=
    if 3600 * second ≤ age now budget.windowUtc then { budget with windowUtc := now, resets := 0 } else budget
  if action.restarts then { budget with resets := budget.resets + 1, resetUtc := now, refreshRecord := 0 }
  else { budget with sequenceUtc := now, refreshRecord := 0 }

def sameRequest (intent other : Option Intent) : Bool :=
  match intent, other with
  | some intent, some other => intent.recordId == other.recordId
  | _, _ => false

/-- The adapter is still enrolled in the same way. -/
def stillEnrolled (enrolment : Enrolment) (entry : Entry) (action : Action) : Bool :=
  match enrolment.entry entry.guid with
  | some (policy, current) => current.type == entry.type &&
      runtime.ceq current.wifiProfile entry.wifiProfile &&
      (!action.restarts || policy.allowAdapterRestart)
  | none => false

/-- The evidence is read once more before the action. -/
def confirm (arguments : Arguments) (answers : Answers) (authorized : Authorized) : Bool :=
  let action := arguments.action
  (!action.restarts || answers.inventory.isSome) &&
  stillEnrolled runtime answers.enrolmentAgain authorized.entry action &&
  routeSafe answers.routeAgain authorized.snapshot.index action &&
  (match answers.fresh with
    | none => false
    | some fresh =>
      fresh.guid == arguments.guid && fresh.hardware && fresh.adminUp && !fresh.lowPower &&
      fresh.type == authorized.entry.type && answers.enabledAgain &&
      (action != .resetPaused || fresh.paused && fresh.linkUp &&
        fresh.sentBytes == authorized.snapshot.sentBytes &&
        fresh.receivedBytes == authorized.snapshot.receivedBytes &&
        arguments.pausedSentBytes.all (· == fresh.sentBytes) &&
        arguments.pausedReceivedBytes.all (· == fresh.receivedBytes)) &&
      (!action.restarts || answers.inventory.any fun inventory =>
        inventory.ifIndex == fresh.index && inventory.hardwareInterface && inventory.adminUp &&
          inventory.verified)) &&
  (action == .resetPaused || answers.freshWireless.any fun wireless =>
    decide (wireless.state = 4) && wireless.radioOn && sameRequest answers.freshIntent authorized.intent &&
    (action != .resetWifi || wireless.visible && decide (25 ≤ wireless.signal)))

/-- A Wi-Fi adapter is scanned and its profile requested, unless something changed meanwhile. -/
def reconnects (arguments : Arguments) (answers : Answers) (authorized : Authorized) : Bool :=
  authorized.entry.type == 71 && answers.radioReady && answers.scanStarts &&
  answers.radio.any (fun radio => radio.radioOn && decide (radio.state = 4) && radio.visible) &&
  sameRequest answers.latestIntent authorized.intent &&
  stillEnrolled runtime answers.latestEnrolment authorized.entry .reconnectWifi && answers.enabledStill &&
  routeSafe answers.routeStill authorized.snapshot.index arguments.action

/-- What a run of the executor does to the world. -/
inductive Effect
  /-- the ledger is replaced, durably and atomically -/
  | publish (ledger : Ledger)
  /-- the device is told to restart -/
  | restart (guid : Guid) (budget : Budget)
  /-- the profile is requested on account of the event with this record number -/
  | connect (action : Action) (guid : Guid) (profile : Profile) (record : Nat) (succeeds : Bool)
  deriving DecidableEq, Repr

/-- What follows the reservation. -/
def act (arguments : Arguments) (answers : Answers) (authorized : Authorized)
    (budget : Budget) (ledger : Ledger) : List Effect :=
  if answers.recorded && confirm runtime arguments answers authorized then
    let record := (authorized.intent.map Intent.recordId).getD 0
    let connect := Effect.connect arguments.action arguments.guid authorized.entry.wifiProfile
      record answers.connects
    let reconnect :=
      if reconnects runtime arguments answers authorized then
        if answers.connects && answers.refreshed && !arguments.action.restarts then
          [connect, .publish (ledger.put { budget with refreshRecord := record })]
        else [connect]
      else []
    if arguments.action.restarts then
      if answers.restartCompletes then .restart arguments.guid budget :: reconnect
      else [.restart arguments.guid budget]
    else reconnect
  else []

/-- `Invoke-ProgramSplitPhysicalRecovery`: what a run that does not die does to the world. -/
def invokePhysicalRecovery (arguments : Arguments) (answers : Answers)
    (file : File RawLedger) : List Effect :=
  match authorize runtime arguments answers file with
  | some authorized =>
    let budget := reserve arguments.guid arguments.action answers.now
      (Ledger.find authorized.ledger arguments.guid)
    let ledger := authorized.ledger.put budget
    if answers.reserved then .publish ledger :: act runtime arguments answers authorized budget ledger else []
  | none => []

/-! ## The controller's samples -/

/-- The script variables of the sampler; a missing key reads as zero. -/
structure Script where
  next : Nat
  graceUntil : Nat
  pauseSamples : Guid → Nat
  firstSent : Guid → Option Nat
  firstReceived : Guid → Option Nat
  faultSince : Guid → Option Nat
  wirelessFaultSince : Guid → Option Nat
  nextAttempt : Guid → Nat

/-- `@{}` -/
def noKeys {α : Type} [Inhabited α] (_ : Guid) : α := default

def put {α : Type} (table : Guid → α) (guid : Guid) (value : α) : Guid → α :=
  Function.update table guid value

/-- What a sample read of an adapter. -/
structure Look where
  snapshot : Snapshot
  utc : Nat
  wireless : Option Wireless
  intent : Option Intent
  deriving DecidableEq, Repr

/-- What the system answers about one adapter; `none` where a call throws. -/
structure AdapterAnswers where
  snapshot : Option Snapshot
  utc : Nat
  wireless : Option Wireless
  /-- `none`: the event log could not be read -/
  intent : Option (Option Intent)
  uptime : Nat
  route : Route
  /-- the executor could be started and ended without an error -/
  invoked : Bool
  deriving DecidableEq, Repr

/-- Everything that is read before the evidence is judged.  The event log is asked only about a
disconnected Wi-Fi adapter. -/
def AdapterAnswers.look (answers : AdapterAnswers) (entry : Entry) : Option Look :=
  answers.snapshot.bind fun snapshot =>
    if entry.type = 71 then
      answers.wireless.bind fun wireless =>
        if wireless.state = 4 then answers.intent.map fun intent =>
          ⟨snapshot, answers.utc, some wireless, intent⟩
        else some ⟨snapshot, answers.utc, some wireless, none⟩
    else some ⟨snapshot, answers.utc, none, none⟩

/-- The adapter is paused with its link up. -/
def Snapshot.validPause (snapshot : Snapshot) : Bool :=
  snapshot.paused && snapshot.hardware && snapshot.adminUp && snapshot.linkUp && !snapshot.lowPower

/-- A disconnected radio with a failed request for the profile in the last two minutes. -/
def Look.wifiFault (entry : Entry) (look : Look) : Bool :=
  match look.wireless, look.intent with
  | some wireless, some intent =>
    decide (wireless.state = 4) && wireless.radioOn && decide (intent.id = 8002) &&
      decide (intent.reason = 163851) &&
      runtime.ceq intent.profile entry.wifiProfile && decide (0 ≤ age look.utc intent.time) &&
      decide (age look.utc intent.time ≤ 120 * second)
  | _, _ => false

/-- The sample is one more of a pause without traffic. -/
def Script.pauseGoesOn (script : Script) (guid : Guid) (snapshot : Snapshot) : Bool :=
  snapshot.validPause && decide (script.pauseSamples guid ≠ 0) &&
    decide (script.firstSent guid = some snapshot.sentBytes) &&
    decide (script.firstReceived guid = some snapshot.receivedBytes)

/-- Count a paused sample, or begin again. -/
def Script.countPause (script : Script) (guid : Guid) (snapshot : Snapshot) (tick : Nat) : Script :=
  if script.pauseGoesOn guid snapshot then
    { script with pauseSamples := put script.pauseSamples guid (min 3 (1 + script.pauseSamples guid)) }
  else
    { script with
      firstSent := put script.firstSent guid (some snapshot.sentBytes)
      firstReceived := put script.firstReceived guid (some snapshot.receivedBytes)
      faultSince := put script.faultSince guid (some tick)
      pauseSamples := put script.pauseSamples guid (if snapshot.validPause then 1 else 0) }

/-- Note since when a Wi-Fi adapter has failed. -/
def Script.countWifi (script : Script) (runtime : Runtime Ledger) (entry : Entry) (look : Look)
    (tick : Nat) : Script :=
  if entry.type = 71 then
    if look.wifiFault runtime entry then
      if (script.wirelessFaultSince entry.guid).isNone then
        { script with wirelessFaultSince := put script.wirelessFaultSince entry.guid (some tick) }
      else script
    else { script with wirelessFaultSince := put script.wirelessFaultSince entry.guid none }
  else script

/-- The evidence that the tables hold after a look. -/
def Script.evidence (script : Script) (runtime : Runtime Ledger) (entry : Entry) (look : Look)
    (tick : Nat) : Evidence :=
  ⟨script.pauseSamples entry.guid,
    if entry.type = 71 ∧ look.wifiFault runtime entry then
      tick - (script.wirelessFaultSince entry.guid).getD 0
    else if look.snapshot.validPause then tick - (script.faultSince entry.guid).getD 0
    else 0⟩

/-- The handler of an error about one adapter. -/
def Script.forget (script : Script) (guid : Guid) : Script :=
  { script with
    pauseSamples := put script.pauseSamples guid 0
    faultSince := put script.faultSince guid none
    wirelessFaultSince := put script.wirelessFaultSince guid none }

/-- What happens in the world, with its time: samples by the tick count, executor runs by the UTC
time they read. -/
inductive Event
  /-- a sample begins, and is going to look at these adapters -/
  | sample (tick : Nat) (covers : List Guid)
  | looked (tick : Nat) (guid : Guid) (look : Option Look)
  | request (tick : Nat) (action : Action) (guid : Guid) (utc : Nat)
  | effect (utc : Nat) (effect : Effect)
  deriving DecidableEq, Repr

structure World where
  script : Option Script
  file : File RawLedger
  trace : List Event

/-- One adapter in a sample. -/
def sampleAdapter (tick : Nat) (policy : Policy) (ledger : Ledger)
    (answers : Guid → AdapterAnswers) (state : Script × List Event) (entry : Entry) : Script × List Event :=
  let (script, trace) := state
  let answer := answers entry.guid
  match answer.look entry with
  | none => (script.forget entry.guid, .looked tick entry.guid none :: trace)
  | some look =>
    let trace := Event.looked tick entry.guid (some look) :: trace
    let script := (script.countPause entry.guid look.snapshot tick).countWifi runtime entry look tick
    match getRecoveryAction runtime entry look.snapshot look.wireless look.intent (ledger.find entry.guid)
        (script.evidence runtime entry look tick) look.utc answer.uptime policy.allowAdapterRestart with
    | none => (script, trace)
    | some action =>
      if script.graceUntil ≤ tick ∧ script.nextAttempt entry.guid ≤ tick ∧
          routeSafe answer.route look.snapshot.index action then
        let trace := Event.request tick action entry.guid look.utc :: trace
        let script := { script with
          nextAttempt := put script.nextAttempt entry.guid (tick + 120000)
          pauseSamples := put script.pauseSamples entry.guid 0 }
        if answer.invoked then (script, trace) else (script.forget entry.guid, trace)
      else (script, trace)

/-- Evidence does not survive a gap. -/
def Script.clear (script : Script) : Script :=
  { script with pauseSamples := noKeys, faultSince := noKeys, wirelessFaultSince := noKeys }

/-- What the system answers to a sample. -/
structure SampleAnswers where
  enrolment : Enrolment
  /-- reading the ledger file fails -/
  ledgerFails : Bool
  adapters : Guid → AdapterAnswers

/-- The sampler's variables when a sample is due; `none` if it is too early. -/
def Script.due (script : Option Script) (tick : Nat) : Option Script :=
  let script := script.getD ⟨0, tick + 90000, noKeys, noKeys, noKeys, noKeys, noKeys, noKeys⟩
  if tick < script.next then none
  else
    let script :=
      if script.next + 15000 < tick then { script.clear with graceUntil := tick + 90000 }
      else script
    some { script with next := tick + 30000 }

/-- `Test-ProgramSplitPhysicalRecovery` with the enrolment file present -/
def testPhysicalRecovery (tick : Nat) (answers : SampleAnswers) (world : World) : World :=
  match Script.due world.script tick with
  | none => { world with script := some (world.script.getD
      ⟨0, tick + 90000, noKeys, noKeys, noKeys, noKeys, noKeys, noKeys⟩) }
  | some script =>
    match answers.enrolment with
    | .raised => { world with script := some script, trace := .sample tick [] :: world.trace }
    | .off => { world with script := some script.clear, trace := .sample tick [] :: world.trace }
    | .on policy =>
      match (if answers.ledgerFails then none else getRecoveryBudget world.file) with
      | none => { world with script := some script, trace := .sample tick [] :: world.trace }
      | some ledger =>
        let (script, trace) := policy.adapters.foldl
          (sampleAdapter runtime tick policy ledger answers.adapters)
          (script, .sample tick (policy.adapters.map Entry.guid) :: world.trace)
        { world with script := some script, trace }

/-! ## Runs -/

/-- An effect on the ledger file. -/
def Effect.file (file : File RawLedger) : Effect → File RawLedger
  | .publish ledger => runtime.write ledger
  | _ => file

/-- An effect of a run that read a UTC time. -/
def World.emit (utc : Nat) (world : World) (effect : Effect) : World :=
  { world with file := effect.file runtime world.file, trace := .effect utc effect :: world.trace }

inductive Label
  | sample (tick : Nat) (answers : SampleAnswers)
  /-- a run of the executor that dies after some of its effects, or ends -/
  | recover (arguments : Arguments) (answers : Answers) (effects : Nat)
  /-- the controller starts again, without its script variables -/
  | restart

def World.after (world : World) : Label → World
  | .sample tick answers => testPhysicalRecovery runtime tick answers world
  | .recover arguments answers effects =>
    ((invokePhysicalRecovery runtime arguments answers world.file).take effects).foldl
      (World.emit runtime answers.now) world
  | .restart => { world with script := none }

/-- One step; the clocks may read anything. -/
def Step (world : World) (label : Label) (world' : World) : Prop :=
  world' = world.after runtime label

end ProgramSplit.Windows.Recovery
