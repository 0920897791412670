/-
# Windows.DispatcherLoad — reloading the dispatcher's inputs and confirming it

The dispatcher reads its inputs file and the identity record, works by what it read, and then
publishes a copy of each file and, last, its process identifier.  `Test-LoadedInputs` takes copies
equal to the files for the proof that the running dispatcher works by them.

* `readStateInputs` — the two files to routes and an included set.
* `advance`, `advanceCheck` — the dispatcher and a check, one access to a file at a time.
* `confirmed_load_applied` — unless a file is changed back to a published copy that the dispatcher
  has left behind, a check that returns true means what it says.
* `unpublished_reload_confirmed` — a reload whose publication fails, and then the old content again:
  the check returns true and the dispatcher forwards by the other routes.

`InetPtonW` and `iswxdigit` are parameters.  The status is the pair of numbers its text spells; the
pid record, the trace session and the sockets of a start are left out.
-/
import ProgramSplit.Lib.PublishedCopy
import ProgramSplit.Lib.Run
import ProgramSplit.Windows.Identity

namespace ProgramSplit.Windows.DispatcherLoad

set_option autoImplicit false

open Lib
open Lib.Utf16
open Wfp (Bytes WString lower trim cString)

/-! ## The two files -/

/-- Functions of the system and the C library. -/
structure Host where
  inetPton : WString → Option (BitVec 32)
  iswxdigit : UInt16 → Bool

structure SockAddr where
  port : Nat
  address : BitVec 32
  deriving DecidableEq, Repr

structure Routes where
  directSource : SockAddr
  directDns : List SockAddr
  tunnelSource : SockAddr
  tunnelDns : SockAddr
  deriving DecidableEq, Repr

/-- The units of an ASCII text. -/
def units (text : String) : WString :=
  encode text.toList

def kMaxDirectResolvers : Nat := 3

variable (host : Host)

def address (ip : WString) (port : Nat) : Except String SockAddr :=
  match host.inetPton (cString ip) with
  | some address => .ok ⟨port, address⟩
  | none => .error "Invalid IPv4 address"

def addResolver (result : List SockAddr) (item : WString) : Except String (List SockAddr) := do
  if item = [] ∨ 15 < item.length ∨ result.length = kMaxDirectResolvers then
    throw "The physical resolver list is malformed"
  let resolver ← address host item 53
  if result.any (·.address == resolver.address) then
    throw "The physical resolver list repeats an address"
  return result ++ [resolver]

def resolverList (text : WString) : Except String (List SockAddr) :=
  (text.splitOn 44).foldlM (addResolver host) []

def wideText (bytes : Bytes) : Except String WString :=
  match wideStrict bytes with
  | some text => .ok text
  | none => .error "Dispatcher input must be UTF-8"

/-- The `name=value` lines, in order. -/
def fields (text : WString) : List (WString × WString) :=
  ((text.splitOn 10).map trim).filterMap fun line =>
    if line ≠ [] ∧ line.head? ≠ some 35 ∧ 61 ∈ line then
      some (line.takeWhile (· ≠ 61), (line.dropWhile (· ≠ 61)).tail)
    else none

/-- A later line replaces an earlier one of its name. -/
def field (values : List (WString × WString)) (name : String) : Except String WString :=
  match values.reverse.lookup (units name) with
  | some value => .ok value
  | none => .error "Dispatcher inputs lack a field"

def inputsHeader : WString := units "# wgps-dispatcher-inputs 1"

/-- The part of `readStateInputs` that is about the inputs file. -/
def parseInputs (bytes : Bytes) : Except String Routes := do
  let text ← wideText bytes
  if !inputsHeader.isPrefixOf text then throw "Dispatcher inputs have no header"
  let values := fields text
  let directSource ← address host (← field values "direct-source") 0
  let directDns ← resolverList host (← field values "direct-dns")
  let tunnelSource ← address host (← field values "tunnel-source") 0
  let tunnelDns ← address host (← field values "tunnel-dns") 53
  return ⟨directSource, directDns, tunnelSource, tunnelDns⟩

def identityHeader : WString := units "# wgps-identities 1\n"

def wellFormedId (id : WString) : Bool :=
  id ≠ [] ∧ id.length % 2 = 0 ∧ id.all host.iswxdigit

/-- One row of the identity record: the path its filters identify. -/
def parseRow (row : WString) : Except String WString :=
  match row.splitOn 9 with
  | [entry, path, ids] =>
    if entry = [] ∨ path = [] ∨ row.any (fun c => c < 32 && c != 9) then
      .error "The identity record has a malformed row"
    else if (ids.splitOn 44).all (wellFormedId host) then .ok (lower path)
    else .error "The identity record has a malformed identifier"
  | _ => .error "The identity record has a malformed row"

/-- The part of `readStateInputs` that is about the identity record. -/
def parseIdentities (bytes : Bytes) : Except String (List WString) := do
  let text ← wideText bytes
  if !identityHeader.isPrefixOf text then throw "The identity record has no header"
  if text.getLast? ≠ some 10 then throw "The identity record is truncated"
  let paths ← ((text.drop identityHeader.length).splitOn 10).dropLast.mapM (parseRow host)
  return paths.dedup

structure StateInputs where
  inputsBytes : Bytes
  identitiesBytes : Bytes
  routes : Routes
  included : List WString
  deriving DecidableEq, Repr

/-- Both files are validated before any is used. -/
def readStateInputs (inputsBytes identitiesBytes : Bytes) : Except String StateInputs := do
  let routes ← parseInputs host inputsBytes
  let included ← parseIdentities host identitiesBytes
  return ⟨inputsBytes, identitiesBytes, routes, included⟩

/-- `readBytes`, of a file that may be absent. -/
def readBytes (file : Option Bytes) : Option Bytes :=
  file.filter fun bytes => bytes.length ≤ 4 * 1024 * 1024

/-! ## The dispatcher -/

/-- Where a start or a reload stands. -/
inductive Phase
  | idle
  | readInputs
  | readIdentities (inputsBytes : Bytes)
  | setRoutes (next : StateInputs)
  | setIncluded (next : StateInputs)
  | publishInputs (next : StateInputs)
  | publishIdentities (next : StateInputs)
  | publishStatus (next : StateInputs)
  deriving DecidableEq, Repr

structure Dispatcher where
  pid : Nat
  /-- the first load is published: from here on a failed load is given up, before it the process ends -/
  ready : Bool
  routes : Option Routes
  included : Option (List WString)
  generation : Nat
  phase : Phase
  deriving DecidableEq, Repr

structure Status where
  pid : Nat
  generation : Nat
  deriving DecidableEq, Repr

/-- The accesses of one run of `Test-LoadedInputs`. -/
inductive CheckPhase
  | readStatus
  | readCurrent
  | readIdentity (current : Option Bytes)
  | readLoadedInputs (current identity : Bytes)
  | readLoadedIdentities (current identity : Bytes)
  | returned (result : Bool)
  deriving DecidableEq, Repr

structure Check where
  process : Nat
  phase : CheckPhase
  /-- neither input file has changed since the check began -/
  undisturbed : Bool
  deriving DecidableEq, Repr

structure System where
  inputs : Option Bytes
  identities : Option Bytes
  loadedInputs : Option Bytes
  loadedIdentities : Option Bytes
  status : Option Status
  live : Option Dispatcher
  /-- the identifiers of all dispatchers so far -/
  used : List Nat
  /-- the reload event is set -/
  requested : Bool
  checks : Nat → Option Check

/-- A load that fails: a start ends the process, a reload keeps whatever is loaded. -/
def giveUp (s : System) (d : Dispatcher) : System :=
  if d.ready then { s with live := some { d with phase := .idle } }
  else { s with live := none, requested := false }

/-- The dispatcher's next step, which succeeds if `ok`. -/
def advance (s : System) (d : Dispatcher) (ok : Bool) : System :=
  match d.phase with
  | .idle =>
    if s.requested then { s with requested := false, live := some { d with phase := .readInputs } } else s
  | .readInputs =>
    match readBytes s.inputs with
    | some bytes =>
      if ok then { s with live := some { d with phase := .readIdentities bytes } } else giveUp s d
    | none => giveUp s d
  | .readIdentities inputsBytes =>
    match (readBytes s.identities).map (readStateInputs host inputsBytes) with
    | some (.ok next) =>
      if ok then { s with live := some { d with phase := .setRoutes next } } else giveUp s d
    | _ => giveUp s d
  | .setRoutes next =>
    if ok then { s with live := some { d with routes := some next.routes, phase := .setIncluded next } }
    else giveUp s d
  | .setIncluded next =>
    if ok then
      { s with live := some { d with
          included := some next.included
          generation := (d.generation + 1) % 2 ^ 32
          phase := .publishInputs next } }
    else giveUp s d
  | .publishInputs next =>
    if ok then
      { s with loadedInputs := some next.inputsBytes, live := some { d with phase := .publishIdentities next } }
    else giveUp s d
  | .publishIdentities next =>
    if ok then
      { s with
        loadedIdentities := some next.identitiesBytes
        live := some { d with phase := .publishStatus next } }
    else giveUp s d
  | .publishStatus _ =>
    if ok then
      { s with
        status := some ⟨d.pid, d.generation⟩
        live := some { d with phase := .idle, ready := true } }
    else giveUp s d

/-! ## The check -/

/-- PowerShell's truth of the text of a file's bytes. -/
def truthy : Option Bytes → Bool
  | some (_ :: _) => true
  | _ => false

/-- A file that cannot be read counts as absent. -/
def readIf (readable : Bool) (file : Option Bytes) : Option Bytes := if readable then file else none

/-- The check's next access. -/
def nextPhase (s : System) (c : Check) (readable : Bool) : CheckPhase :=
  match c.phase with
  | .readStatus =>
    match s.status with
    | some status => if readable && status.pid == c.process then .readCurrent else .returned false
    | none => .returned false
  | .readCurrent => .readIdentity (readIf readable s.inputs)
  | .readIdentity current =>
    match current, readIf readable s.identities with
    | some current, some identity =>
      if truthy (some current) && truthy (some identity) then .readLoadedInputs current identity
      else .returned false
    | _, _ => .returned false
  | .readLoadedInputs current identity =>
    if readIf readable s.loadedInputs = some current then .readLoadedIdentities current identity
    else .returned false
  | .readLoadedIdentities _ identity => .returned (readIf readable s.loadedIdentities = some identity)
  | .returned result => .returned result

/-! ## The system -/

inductive Action
  | changeInputs (content : Option Bytes)
  | changeIdentities (content : Option Bytes)
  | removeStatus
  | requestReload
  | launch (pid : Nat)
  | exit
  | advance (ok : Bool)
  | beginCheck (id : Nat) (process : Option Nat)
  | advanceCheck (id : Nat) (readable : Bool)
  deriving DecidableEq, Repr

/-- A changed file disturbs every check that has begun. -/
def disturb (checks : Nat → Option Check) (same : Bool) : Nat → Option Check :=
  fun id => (checks id).map fun c => { c with undisturbed := c.undisturbed && same }

def starting (pid : Nat) : Dispatcher := ⟨pid, false, none, none, 0, .readInputs⟩

def act (s : System) : Action → Option System
  | .changeInputs content =>
    some { s with inputs := content, checks := disturb s.checks (content == s.inputs) }
  | .changeIdentities content =>
    some { s with identities := content, checks := disturb s.checks (content == s.identities) }
  | .removeStatus => some { s with status := none }
  | .requestReload => some { s with requested := s.requested || s.live.any (·.ready) }
  | .launch pid =>
    if s.live.isNone && !s.used.contains pid then
      some { s with live := some (starting pid), used := pid :: s.used, requested := false }
    else none
  | .exit => some { s with live := none, requested := false }
  | .advance ok => s.live.map fun d => advance host s d ok
  | .beginCheck id process =>
    if (s.checks id).isNone then
      some { s with checks := Function.update s.checks id (some
        { process := process.getD 0
          phase := if process.isSome then .readStatus else .returned false
          undisturbed := true }) }
    else none
  | .advanceCheck id readable =>
    (s.checks id).map fun c =>
      { s with checks := Function.update s.checks id (some { c with phase := nextPhase s c readable }) }

def Step (s : System) (a : Action) (s' : System) : Prop := act host s a = some s'

/-- No dispatcher runs and no check has begun.  The files are arbitrary, but the identifier of a
status left over will not be given out again. -/
def Initial (s : System) : Prop :=
  s.live = none ∧ (∀ status, s.status = some status → status.pid ∈ s.used) ∧ ∀ id, s.checks id = none

/-- **A confirmed load is the applied one.**  Where a check has returned true, neither input file has
changed since it began and its process lives, that process forwards by the routes and attributes by
the set that `readStateInputs` obtains from the two files. -/
def Confirmed (s : System) : Prop :=
  ∀ id c d, s.checks id = some c → c.phase = .returned true → c.undisturbed = true → s.live = some d →
    d.pid = c.process →
    ∃ inputs identities next, s.inputs = some inputs ∧ s.identities = some identities ∧
      readStateInputs host inputs identities = .ok next ∧
      d.routes = some next.routes ∧ d.included = some next.included

/-! ## What a load holds -/

/-- The bytes of the inputs file a load has read. -/
def Phase.inputs : Phase → Option Bytes
  | .idle | .readInputs => none
  | .readIdentities inputsBytes => some inputsBytes
  | .setRoutes next | .setIncluded next | .publishInputs next | .publishIdentities next
  | .publishStatus next => some next.inputsBytes

/-- The bytes of the identity record a load has read. -/
def Phase.identities : Phase → Option Bytes
  | .idle | .readInputs | .readIdentities _ => none
  | .setRoutes next | .setIncluded next | .publishInputs next | .publishIdentities next
  | .publishStatus next => some next.identitiesBytes

def routesOf (bytes : Bytes) : Option Routes := (parseInputs host bytes).toOption

def includedOf (bytes : Bytes) : Option (List WString) := (parseIdentities host bytes).toOption

def inputsSlot (s : System) : Slot Bytes Routes :=
  ⟨s.inputs, s.loadedInputs, s.live.bind (·.routes), s.live.bind (·.phase.inputs)⟩

def identitiesSlot (s : System) : Slot Bytes (List WString) :=
  ⟨s.identities, s.loadedIdentities, s.live.bind (·.included), s.live.bind (·.phase.identities)⟩

/-- A load's parts come from the bytes it read. -/
structure Parsed (next : StateInputs) : Prop where
  routes : routesOf host next.inputsBytes = some next.routes
  included : includedOf host next.identitiesBytes = some next.included

/-- What is in use at each point of a load. -/
def PhaseOk (d : Dispatcher) : Prop :=
  (d.ready = true → d.routes.isSome = true ∧ d.included.isSome = true) ∧
    match d.phase with
    | .idle | .readInputs | .readIdentities _ => True
    | .setRoutes next => Parsed host next
    | .setIncluded next => Parsed host next ∧ d.routes = some next.routes
    | .publishInputs next | .publishIdentities next | .publishStatus next =>
      Parsed host next ∧ d.routes = some next.routes ∧ d.included = some next.included

variable {host}

theorem readStateInputs_ok {inputs identities : Bytes} {next : StateInputs} :
    readStateInputs host inputs identities = .ok next ↔
      next.inputsBytes = inputs ∧ next.identitiesBytes = identities ∧
        parseInputs host inputs = .ok next.routes ∧ parseIdentities host identities = .ok next.included := by
  unfold readStateInputs
  cases first : parseInputs host inputs with
  | error e => simp [bind, Except.bind]
  | ok routes =>
    cases second : parseIdentities host identities with
    | error e => simp [bind, Except.bind]
    | ok included =>
      obtain ⟨a, b, c, d⟩ := next
      simp only [bind, Except.bind, pure, Except.pure, Except.ok.injEq, StateInputs.mk.injEq]
      constructor
      · rintro ⟨rfl, rfl, rfl, rfl⟩
        exact ⟨rfl, rfl, rfl, rfl⟩
      · rintro ⟨rfl, rfl, rfl, rfl⟩
        exact ⟨rfl, rfl, rfl, rfl⟩

theorem toOption_eq_some {A : Type} {result : Except String A} {a : A} :
    result.toOption = some a ↔ result = .ok a := by
  cases result with
  | error e => exact ⟨nofun, nofun⟩
  | ok b => exact ⟨fun h => congrArg Except.ok (Option.some.inj h), fun h => congrArg some (Except.ok.inj h)⟩

theorem parsed_of_read {inputs identities : Bytes} {next : StateInputs}
    (read : readStateInputs host inputs identities = .ok next) :
    Parsed host next ∧ next.inputsBytes = inputs ∧ next.identitiesBytes = identities := by
  obtain ⟨rfl, rfl, routes, included⟩ := readStateInputs_ok.mp read
  exact ⟨⟨toOption_eq_some.mpr routes, toOption_eq_some.mpr included⟩, rfl, rfl⟩

theorem readBytes_some {file : Option Bytes} {bytes : Bytes} (read : readBytes file = some bytes) :
    file = some bytes :=
  (Option.filter_eq_some_iff.mp read).1

theorem readIf_some {readable : Bool} {file : Option Bytes} {bytes : Bytes}
    (read : readIf readable file = some bytes) : file = some bytes := by
  cases readable with
  | false => cases read
  | true => exact read

/-! ## One step of a process -/

/-- What a process, its start and its end can do to the system. -/
structure Proceeds (host : Host) (s s' : System) : Prop where
  inputs : Slot.Moves (routesOf host) (inputsSlot s) (inputsSlot s')
  identities : Slot.Moves (includedOf host) (identitiesSlot s) (identitiesSlot s')
  checks : s'.checks = s.checks
  used : ∀ pid ∈ s.used, pid ∈ s'.used
  live : ∀ d', s'.live = some d' → PhaseOk host d' ∧ d'.pid ∈ s'.used ∧
    ((∃ d, s.live = some d ∧ d.pid = d'.pid ∧ (d.ready = true → d'.ready = true)) ∨ d'.pid ∉ s.used)
  status : ∀ status, s'.status = some status → s.status = some status ∨
    ∃ d', s'.live = some d' ∧ d'.pid = status.pid ∧ d'.ready = true

theorem inputsSlot_live {s : System} {d : Dispatcher} (alive : s.live = some d) :
    inputsSlot s = ⟨s.inputs, s.loadedInputs, d.routes, d.phase.inputs⟩ := by
  unfold inputsSlot
  rw [alive]
  rfl

theorem identitiesSlot_live {s : System} {d : Dispatcher} (alive : s.live = some d) :
    identitiesSlot s = ⟨s.identities, s.loadedIdentities, d.included, d.phase.identities⟩ := by
  unfold identitiesSlot
  rw [alive]
  rfl

section Process

variable {s s' : System} {d d' : Dispatcher}

/-- A step of a process that goes on. -/
theorem proceeds_to (alive : s.live = some d) (known : d.pid ∈ s.used) (alive' : s'.live = some d')
    (pid : d'.pid = d.pid) (ready : d.ready = true → d'.ready = true) (checks : s'.checks = s.checks)
    (used : s'.used = s.used) (ok : PhaseOk host d')
    (status : s'.status = s.status ∨ d'.ready = true ∧ ∀ status, s'.status = some status →
      d'.pid = status.pid)
    (inputs : Slot.Moves (routesOf host) ⟨s.inputs, s.loadedInputs, d.routes, d.phase.inputs⟩ (inputsSlot s'))
    (identities : Slot.Moves (includedOf host) ⟨s.identities, s.loadedIdentities, d.included,
      d.phase.identities⟩
      (identitiesSlot s')) : Proceeds host s s' := by
  rw [← inputsSlot_live alive] at inputs
  rw [← identitiesSlot_live alive] at identities
  refine ⟨inputs, identities, checks, fun _ member => used ▸ member, fun next same => ?_, fun st found => ?_⟩
  · obtain rfl : d' = next := Option.some.inj (alive'.symm.trans same)
    exact ⟨ok, used ▸ pid ▸ known, .inl ⟨d, alive, pid.symm, ready⟩⟩
  · rcases status with same | ⟨isReady, named⟩
    · exact .inl (same ▸ found)
    · exact .inr ⟨d', alive', named st found, isReady⟩

theorem giveUp_proceeds (alive : s.live = some d) (known : d.pid ∈ s.used) (ok : PhaseOk host d) :
    Proceeds host s (giveUp s d) := by
  unfold giveUp
  split
  · exact proceeds_to alive known rfl rfl id rfl rfl ⟨ok.1, trivial⟩ (.inl rfl) (.drop _) (.drop _)
  · exact ⟨.vanish _, .vanish _, rfl, fun _ member => member, nofun,
      fun _ same => .inl same⟩

/-- **One step of the dispatcher.** -/
theorem advance_proceeds (alive : s.live = some d) (known : d.pid ∈ s.used) (ok : PhaseOk host d)
    (success : Bool) :
    Proceeds host s (advance host s d success) := by
  have failed := giveUp_proceeds alive known ok
  obtain ⟨pid, ready, routes, included, generation, phase⟩ := d
  obtain ⟨settled, now⟩ := ok
  fun_cases advance host s _ success <;> try exact failed
  -- asked to reload, and not
  case case1 at_ _ =>
    cases at_
    exact proceeds_to alive known rfl rfl id rfl rfl ⟨settled, trivial⟩ (.inl rfl) (.drop _) (.drop _)
  case case2 =>
    exact proceeds_to alive known alive rfl id rfl rfl ⟨settled, now⟩ (.inl rfl)
      (inputsSlot_live alive ▸ .stay _)
      (identitiesSlot_live alive ▸ .stay _)
  -- each file is read
  case case3 at_ bytes read _ =>
    cases at_
    refine proceeds_to alive known rfl rfl id rfl rfl ⟨settled, trivial⟩ (.inl rfl) ?_ (.drop _)
    have held := Slot.Moves.read (f := routesOf host) ⟨s.inputs, s.loadedInputs, routes, none⟩
    rw [readBytes_some read] at held ⊢
    exact held
  case case6 _ at_ next read _ =>
    cases at_
    obtain ⟨bytes, found, parsed⟩ := Option.map_eq_some_iff.mp read
    obtain ⟨fits, rfl, rfl⟩ := parsed_of_read parsed
    refine proceeds_to alive known rfl rfl id rfl rfl ⟨settled, fits⟩ (.inl rfl) (.stay _) ?_
    have held := Slot.Moves.read (f := includedOf host) ⟨s.identities, s.loadedIdentities, included, none⟩
    rw [readBytes_some found] at held ⊢
    exact held
  -- each part is put to use
  case case9 next at_ _ =>
    cases at_
    exact proceeds_to alive known rfl rfl id rfl rfl ⟨fun ready => ⟨rfl, (settled ready).2⟩, now, rfl⟩ (.inl rfl)
      (.apply _ rfl now.routes) (.stay _)
  case case11 next at_ _ =>
    cases at_
    exact proceeds_to alive known rfl rfl id rfl rfl ⟨fun ready => ⟨(settled ready).1, rfl⟩,
      now.1, now.2, rfl⟩
      (.inl rfl) (.stay _) (.apply _ rfl now.1.included)
  -- each copy is published
  case case13 next at_ _ =>
    cases at_
    exact proceeds_to alive known rfl rfl id rfl rfl ⟨settled, now⟩ (.inl rfl)
      (.publish _ rfl fun r same => now.1.routes.trans (now.2.1.symm.trans same)) (.stay _)
  case case15 next at_ _ =>
    cases at_
    exact proceeds_to alive known rfl rfl id rfl rfl ⟨settled, now⟩ (.inl rfl) (.stay _)
      (.publish _ rfl fun r same => now.1.included.trans (now.2.2.symm.trans same))
  case case17 next at_ _ =>
    cases at_
    obtain ⟨-, rfl, rfl⟩ := now
    refine proceeds_to alive known rfl rfl (fun _ => rfl) rfl rfl ⟨fun _ => ⟨rfl, rfl⟩, trivial⟩
      (.inr ⟨rfl, fun st found => ?_⟩) (.drop _) (.drop _)
    cases found
    rfl

end Process

/-! ## The invariant -/

/-- A process that has run, and that is past its start if it still runs. -/
def Started (s : System) (pid : Nat) : Prop :=
  pid ∈ s.used ∧ ∀ d, s.live = some d → d.pid = pid → d.ready = true

/-- The inputs file has these bytes and the dispatcher serves them. -/
def ServesInputs (host : Host) (s : System) (bytes : Bytes) : Prop :=
  s.inputs = some bytes ∧ (inputsSlot s).Serves (routesOf host) bytes

/-- The identity record has these bytes and the dispatcher serves them. -/
def ServesIdentities (host : Host) (s : System) (bytes : Bytes) : Prop :=
  s.identities = some bytes ∧ (identitiesSlot s).Serves (includedOf host) bytes

/-- What an undisturbed check knows after each access. -/
def Knows (host : Host) (s : System) : CheckPhase → Prop
  | .readStatus | .readCurrent | .returned false => True
  | .readIdentity current => ∀ bytes, current = some bytes → s.inputs = some bytes
  | .readLoadedInputs current identity => s.inputs = some current ∧ s.identities = some identity
  | .readLoadedIdentities current identity => ServesInputs host s current ∧ s.identities = some identity
  | .returned true => ∃ current identity, ServesInputs host s current ∧ ServesIdentities host s identity

/-- A check past the status is about a process that has started. -/
def CheckOk (host : Host) (s : System) (c : Check) : Prop :=
  (c.phase ≠ .readStatus → c.phase ≠ .returned false → Started s c.process) ∧
    (c.undisturbed = true → Knows host s c.phase)

structure Sound (host : Host) (s : System) : Prop where
  inputs : (inputsSlot s).Honest (routesOf host)
  identities : (identitiesSlot s).Honest (includedOf host)
  live : ∀ d, s.live = some d → PhaseOk host d ∧ d.pid ∈ s.used
  status : ∀ status, s.status = some status → Started s status.pid
  checks : ∀ id c, s.checks id = some c → CheckOk host s c

section Invariant

variable {s s' : System}

theorem Proceeds.started (step : Proceeds host s s') {pid : Nat} (started : Started s pid) :
    Started s' pid := by
  refine ⟨step.used pid started.1, fun d' alive same => ?_⟩
  obtain ⟨-, -, ⟨d, before, pids, ready⟩ | fresh⟩ := step.live d' alive
  · exact ready (started.2 d before (pids.trans same))
  · exact absurd (same ▸ started.1) fresh

/-- What a check knows survives whatever leaves the sources alone. -/
theorem Knows.moves {phase : CheckPhase} (knows : Knows host s phase)
    (first : Slot.Moves (routesOf host) (inputsSlot s) (inputsSlot s'))
    (second : Slot.Moves (includedOf host) (identitiesSlot s) (identitiesSlot s')) : Knows host s' phase := by
  have inputs : s'.inputs = s.inputs := first.source
  have identities : s'.identities = s.identities := second.source
  cases phase with
  | readStatus => trivial
  | readCurrent => trivial
  | readIdentity current => exact fun bytes same => inputs.trans (knows bytes same)
  | readLoadedInputs current identity => exact ⟨inputs.trans knows.1, identities.trans knows.2⟩
  | readLoadedIdentities current identity =>
    obtain ⟨⟨source, serves⟩, record⟩ := knows
    exact ⟨⟨inputs.trans source, first.serves source serves⟩, identities.trans record⟩
  | returned result =>
    cases result with
    | false => trivial
    | true =>
      obtain ⟨current, identity, ⟨source, serves⟩, record, serves'⟩ := knows
      exact ⟨current, identity, ⟨inputs.trans source, first.serves source serves⟩,
        identities.trans record, second.serves record serves'⟩

/-- A step of a process keeps the invariant, whatever the checks are doing. -/
theorem Proceeds.sound (step : Proceeds host s s') (sound : Sound host s) : Sound host s' where
  inputs := step.inputs.honest sound.inputs
  identities := step.identities.honest sound.identities
  live d alive := ⟨(step.live d alive).1, (step.live d alive).2.1⟩
  status status found := by
    rcases step.status status found with before | ⟨d, alive, named, ready⟩
    · exact step.started (sound.status status before)
    · refine ⟨named ▸ (step.live d alive).2.1, fun d' alive' _ => ?_⟩
      obtain rfl : d = d' := Option.some.inj (alive.symm.trans alive')
      exact ready
  checks id c found := by
    obtain ⟨started, knows⟩ := sound.checks id c (step.checks ▸ found)
    exact ⟨fun past open_ => step.started (started past open_),
      fun calm => (knows calm).moves step.inputs step.identities⟩

/-- The next access of a check. -/
theorem nextPhase_ok (sound : Sound host s) {c : Check} (ok : CheckOk host s c) (readable : Bool) :
    CheckOk host s { c with phase := nextPhase s c readable } := by
  obtain ⟨started, knows⟩ := ok
  have refused : CheckOk host s { c with phase := .returned false } :=
    ⟨fun _ open_ => absurd rfl open_, fun _ => trivial⟩
  fun_cases nextPhase s c readable <;> try exact refused
  case case1 phase status found named =>
    refine ⟨fun _ _ => ?_, fun _ => trivial⟩
    have same : status.pid = c.process := eq_of_beq (Bool.and_eq_true_iff.mp named).2
    exact same ▸ sound.status status found
  all_goals rename c.phase = _ => phase; rw [phase] at started knows
  · exact ⟨fun _ _ => started nofun nofun, fun _ bytes same => readIf_some same⟩
  · rename_i read _
    exact ⟨fun _ _ => started nofun nofun, fun calm => ⟨knows calm _ rfl, readIf_some read⟩⟩
  · rename_i read
    refine ⟨fun _ _ => started nofun nofun, fun calm => ?_⟩
    obtain ⟨inputs, identities⟩ := knows calm
    exact ⟨⟨inputs, sound.inputs _ inputs (readIf_some read)⟩, identities⟩
  · rename_i _ identity
    by_cases read : readIf readable s.loadedIdentities = some identity
    · rw [decide_eq_true read]
      refine ⟨fun _ _ => started nofun nofun, fun calm => ?_⟩
      obtain ⟨serves, identities⟩ := knows calm
      exact ⟨_, _, serves, identities, sound.identities _ identities (readIf_some read)⟩
    · rw [decide_eq_false read]
      exact refused
  · exact ⟨started, knows⟩

/-- A check is not upset by a file that gets the content it has. -/
theorem checks_disturbed {same : Bool} (sound : Sound host s) (checks : s'.checks = disturb s.checks same)
    (used : s'.used = s.used) (live : s'.live = s.live)
    (calm : same = true → Slot.Moves (routesOf host) (inputsSlot s) (inputsSlot s') ∧
      Slot.Moves (includedOf host) (identitiesSlot s) (identitiesSlot s')) :
    ∀ id c, s'.checks id = some c → CheckOk host s' c := by
  intro id c found
  rw [checks] at found
  obtain ⟨before, here, rfl⟩ := Option.map_eq_some_iff.mp found
  obtain ⟨started, knows⟩ := sound.checks id before here
  refine ⟨fun past open_ => ?_, fun undisturbed => ?_⟩
  · have begun := started past open_
    exact ⟨used ▸ begun.1, fun d alive => begun.2 d (live ▸ alive)⟩
  · obtain ⟨untouched, unchanged⟩ := Bool.and_eq_true_iff.mp undisturbed
    exact (knows untouched).moves (calm unchanged).1 (calm unchanged).2

end Invariant

/-! ## Runs -/

/-- A file does not return to the published copy while the dispatcher works by another content, or is
about to. -/
def Unrepeated (host : Host) (s : System) : Action → Prop
  | .changeInputs content => ∀ bytes d, content = some bytes → s.loadedInputs = some bytes → s.live = some d →
      (∀ routes, d.routes = some routes → parseInputs host bytes = .ok routes) ∧
        ∀ held, d.phase.inputs = some held → held = bytes
  | .changeIdentities content => ∀ bytes d, content = some bytes → s.loadedIdentities = some bytes →
      s.live = some d →
      (∀ included, d.included = some included → parseIdentities host bytes = .ok included) ∧
        ∀ held, d.phase.identities = some held → held = bytes
  | _ => True

section Steps

variable {s s' : System}

theorem honest_changed {R : Type} {parse : Bytes → Except String R} {applied : Dispatcher → Option R}
    {reads : Dispatcher → Option Bytes} {content copy : Option Bytes}
    (unrepeated : ∀ bytes d, content = some bytes → copy = some bytes → s.live = some d →
      (∀ r, applied d = some r → parse bytes = .ok r) ∧ ∀ held, reads d = some held → held = bytes) :
    Slot.Honest (fun bytes => (parse bytes).toOption) ⟨content, copy, s.live.bind applied,
      s.live.bind reads⟩ := by
  refine fun bytes new same => ⟨fun r used => ?_, fun held here => ?_⟩
  · obtain ⟨d, alive, applies⟩ := Option.bind_eq_some_iff.mp used
    exact toOption_eq_some.mpr ((unrepeated bytes d new same alive).1 r applies)
  · obtain ⟨d, alive, reading⟩ := Option.bind_eq_some_iff.mp here
    exact (unrepeated bytes d new same alive).2 held reading

/-- Replacing one check keeps the invariant if that check is sound. -/
theorem updateCheck_sound {id : Nat} {c : Check} (sound : Sound host s) (ok : CheckOk host s c) :
    Sound host { s with checks := Function.update s.checks id (some c) } := by
  refine { sound with checks := fun other c' found => ?_ }
  dsimp only at found
  by_cases same : other = id
  · subst same
    rw [Function.update_self] at found
    cases found
    exact ok
  · rw [Function.update_of_ne same] at found
    exact sound.checks other c' found

theorem launch_proceeds {pid : Nat} (fresh : pid ∉ s.used) :
    Proceeds host s { s with live := some (starting pid), used := pid :: s.used, requested := false } := by
  refine ⟨?_, ?_, rfl, fun _ member => List.mem_cons_of_mem _ member, ?_, ?_⟩
  · exact .vanish _
  · exact .vanish _
  · rintro d ⟨⟩
    exact ⟨⟨nofun, trivial⟩, List.mem_cons_self, .inr fresh⟩
  · exact fun _ same => .inl same

theorem step_sound {a : Action} (sound : Sound host s) (unrepeated : Unrepeated host s a)
    (taken : Step host s a s') : Sound host s' := by
  cases a with
  | changeInputs content =>
    cases taken
    refine { sound with
      inputs := honest_changed unrepeated, checks := checks_disturbed sound rfl rfl rfl fun same => ?_ }
    obtain rfl := eq_of_beq same
    exact ⟨.stay _, .stay _⟩
  | changeIdentities content =>
    cases taken
    refine { sound with
      identities := honest_changed unrepeated, checks := checks_disturbed sound rfl rfl rfl fun same => ?_ }
    obtain rfl := eq_of_beq same
    exact ⟨.stay _, .stay _⟩
  | removeStatus =>
    cases taken
    exact { sound with status := nofun }
  | requestReload =>
    cases taken
    exact { sound with }
  | launch pid =>
    unfold Step act at taken
    dsimp only at taken
    split at taken
    · rename_i free
      cases taken
      have unused : pid ∉ s.used := by simpa using (Bool.and_eq_true_iff.mp free).2
      exact (launch_proceeds unused).sound sound
    · cases taken
  | exit =>
    cases taken
    have gone : Proceeds host s { s with live := none, requested := false } :=
      ⟨.vanish _, .vanish _, rfl, fun _ member => member, nofun, fun _ same => .inl same⟩
    exact gone.sound sound
  | advance ok =>
    obtain ⟨d, alive, rfl⟩ := Option.map_eq_some_iff.mp taken
    obtain ⟨phase, known⟩ := sound.live d alive
    exact (advance_proceeds alive known phase ok).sound sound
  | beginCheck id process =>
    unfold Step act at taken
    dsimp only at taken
    split at taken
    · cases taken
      refine updateCheck_sound sound ⟨fun past open_ => ?_, fun _ => ?_⟩
      · cases process with
        | none => exact absurd rfl open_
        | some pid => exact absurd rfl past
      · cases process <;> trivial
    · cases taken
  | advanceCheck id readable =>
    obtain ⟨c, found, rfl⟩ := Option.map_eq_some_iff.mp taken
    exact updateCheck_sound sound (nextPhase_ok sound (sound.checks id c found) readable)

theorem initial_sound (initial : Initial s) : Sound host s := by
  obtain ⟨down, left, none⟩ := initial
  have idle : ∀ {A : Type} (f : Dispatcher → Option A), s.live.bind f = .none := fun f => by rw [down]; rfl
  refine ⟨fun _ _ _ => ⟨fun r applied => ?_, fun b held => ?_⟩,
    fun _ _ _ => ⟨fun r applied => ?_, fun b held => ?_⟩,
    fun d alive => ?_, fun status found => ⟨left status found, fun d alive => ?_⟩, fun id c found => ?_⟩
  · exact nomatch (idle _).symm.trans applied
  · exact nomatch (idle _).symm.trans held
  · exact nomatch (idle _).symm.trans applied
  · exact nomatch (idle _).symm.trans held
  · exact nomatch down.symm.trans alive
  · exact nomatch down.symm.trans alive
  · exact nomatch (none id).symm.trans found

/-- A check that has returned true over unchanged files tells what its process works by. -/
theorem Sound.confirmed (sound : Sound host s) : Confirmed host s := by
  intro id c d found returned undisturbed alive same
  obtain ⟨started, knows⟩ := sound.checks id c found
  rw [returned] at started knows
  obtain ⟨inputs, identities, ⟨source, routes⟩, record, included⟩ := knows undisturbed
  have ready := (started nofun nofun).2 d alive same
  obtain ⟨someRoutes, someIncluded⟩ := (sound.live d alive).1.1 ready
  obtain ⟨r, hasRoutes⟩ := Option.isSome_iff_exists.mp someRoutes
  obtain ⟨i, hasIncluded⟩ := Option.isSome_iff_exists.mp someIncluded
  rw [inputsSlot_live alive] at routes
  rw [identitiesSlot_live alive] at included
  refine ⟨inputs, identities, ⟨inputs, identities, r, i⟩, source, record, ?_, hasRoutes, hasIncluded⟩
  exact readStateInputs_ok.mpr ⟨rfl, rfl, toOption_eq_some.mp (routes.applied r hasRoutes),
    toOption_eq_some.mp (included.applied i hasIncluded)⟩

/-- **A confirmed load is the applied one.**  In every interleaving of changes to the two files,
reload requests, dispatchers that start, reload and end, publications that fail, and checks: unless a
file is changed back to its published copy while the dispatcher works by another content, a check
that returns true tells what its process works by. -/
theorem confirmed_load_applied {as : List Action}
    (run : Run Initial (fun s a s' => Unrepeated host s a ∧ Step host s a s') as s) : Confirmed host s := by
  have sound : Sound host s :=
    Run.invariant_of_ok (Unrepeated host) (fun _ => Sound host) (fun _ initial => initial_sound initial)
      (fun _ _ _ _ sound unrepeated taken => step_sound sound unrepeated taken) run
  exact sound.confirmed

end Steps

/-! ## Poles -/

def octet (text : WString) : Option Nat :=
  let value := text.foldl (fun n c => 10 * n + (c.toNat - 48)) 0
  if text.all (fun c => 48 ≤ c && c ≤ 57) ∧ (text = [48] ∨ text ≠ [] ∧ text.head? ≠ some 48) ∧
    value < 256 then
    some value
  else none

/-- Dotted quads, as `InetPtonW` reads them: the first octet is the lowest byte. -/
def dottedQuads : Host where
  inetPton text :=
    match (text.splitOn 46).mapM octet with
    | some [a, b, c, d] => some (BitVec.ofNat 32 (a + 256 * (b + 256 * (c + 256 * d))))
    | _ => none
  iswxdigit c := (48 ≤ c && c ≤ 57) || (65 ≤ c && c ≤ 70) || (97 ≤ c && c ≤ 102)

def spelled (text : String) : Bytes := utf8 (units text)

def inputsText (source : String) : Bytes :=
  spelled ("# wgps-dispatcher-inputs 1\r\ndirect-source=" ++ source ++
    "\r\ndirect-dns=10.0.0.9\r\ntunnel-source=10.7.0.2\r\ntunnel-dns=10.7.0.1\r\n")

def wired : Bytes := inputsText "10.0.0.1"
def wireless : Bytes := inputsText "10.0.0.2"
def oneApp : Bytes := spelled "# wgps-identities 1\nC:\\A.exe\tC:\\A.exe\t0a0b\n"

def installed : System := ⟨some wired, some oneApp, none, none, none, none, [], false, fun _ => none⟩

theorem installed_initial : Initial installed :=
  ⟨rfl, fun _ found => (Option.some_ne_none _ found.symm).elim, fun _ => rfl⟩

/-- One action with itself as its label. -/
def exec (host : Host) (s : System) (a : Action) : Option (System × Action) :=
  (act host s a).map (·, a)

theorem step_of_exec {host : Host} {s s' : System} {a : Action} (done : Exec (exec host) s a s') :
    Step host s a s' := by
  obtain ⟨action, same⟩ := done
  obtain ⟨next, taken, pair⟩ := Option.map_eq_some_iff.mp same
  cases pair
  exact taken

/-- The file is not changed to its published copy. -/
def differs (s : System) : Action → Bool
  | .changeInputs content => content != s.loadedInputs
  | .changeIdentities content => content != s.loadedIdentities
  | _ => true

theorem unrepeated_of_differs {host : Host} {s : System} {a : Action} (new : differs s a = true) :
    Unrepeated host s a := by
  cases a with
  | changeInputs content =>
    intro bytes d same copy
    exact absurd (same.trans copy.symm) (bne_iff_ne.mp new)
  | changeIdentities content =>
    intro bytes d same copy
    exact absurd (same.trans copy.symm) (bne_iff_ne.mp new)
  | _ => trivial

def loads : List Action := .launch 7 :: List.replicate 7 (.advance true)

def checks (id : Nat) : List Action := .beginCheck id (some 7) :: List.replicate 5 (.advanceCheck id true)

/-- New inputs and a reload that publishes them. -/
def reloads : List Action :=
  [.changeInputs (some wireless), .requestReload] ++ List.replicate 8 (.advance true)

/-- New inputs and a reload that applies them and cannot replace the first copy; then the old inputs. -/
def unpublished : List Action :=
  [.changeInputs (some wireless), .requestReload] ++ List.replicate 5 (.advance true) ++
    [.advance false, .changeInputs (some wired)]

/-- Dispatcher 7 lives with this physical source, and its undisturbed check has returned true. -/
def confirms (source : BitVec 32) (s : System) : Bool :=
  s.checks 0 == some ⟨7, .returned true, true⟩ &&
    s.live.any fun d => d.pid == 7 && d.routes.any (·.directSource == ⟨0, source⟩)

theorem of_confirms {source : BitVec 32} {s : System} (holds : confirms source s = true) :
    s.checks 0 = some ⟨7, .returned true, true⟩ ∧
      ∃ d routes, s.live = some d ∧ d.pid = 7 ∧ d.routes = some routes ∧ routes.directSource = ⟨0, source⟩ := by
  obtain ⟨check, alive⟩ := Bool.and_eq_true_iff.mp holds
  obtain ⟨d, live, facts⟩ := (Option.any_eq_true _ _).mp alive
  obtain ⟨pid, routed⟩ := Bool.and_eq_true_iff.mp facts
  obtain ⟨routes, has, source⟩ := (Option.any_eq_true _ _).mp routed
  exact ⟨eq_of_beq check, d, routes, live, eq_of_beq pid, has, eq_of_beq source⟩

theorem confirmed_load_applied_reload :
    ∃ as s d, Run Initial (fun s a s' => Unrepeated dottedQuads s a ∧ Step dottedQuads s a s') as s ∧
      s.checks 0 = some ⟨7, .returned true, true⟩ ∧ s.live = some d ∧
      ∃ inputs identities next, s.inputs = some inputs ∧ s.identities = some identities ∧
        readStateInputs dottedQuads inputs identities = .ok next ∧
        d.routes = some next.routes ∧ d.included = some next.included := by
  have ran : (schedule (exec dottedQuads) differs installed (loads ++ reloads ++ checks 0) []).any
      (fun r => confirms 0x0200000a r.1) = true := by decide +kernel
  obtain ⟨⟨s, as⟩, done, facts⟩ := (Option.any_eq_true _ _).mp ran
  obtain ⟨check, d, -, live, pid, -⟩ := of_confirms facts
  have run : Run Initial (fun s a s' => Unrepeated dottedQuads s a ∧ Step dottedQuads s a s') as s :=
    schedule_run (fun _ _ _ new taken => ⟨unrepeated_of_differs new, step_of_exec taken⟩) _
      (.start installed_initial) done
  exact ⟨as, s, d, run, check, live, confirmed_load_applied run 0 _ d check rfl rfl live pid⟩

/-- The inputs change, a reload applies them and fails to replace the copy, and the inputs change
back: the check finds every copy equal to its file, and the dispatcher sends from the other source. -/
theorem unpublished_reload_confirmed :
    ∃ as s, Run Initial (Step dottedQuads) as s ∧ ¬ Confirmed dottedQuads s := by
  have ran : (schedule (exec dottedQuads) (fun _ _ => true) installed (loads ++ unpublished ++ checks 0) []).any
      (fun r => confirms 0x0200000a r.1 && r.1.inputs == some wired) = true := by decide +kernel
  obtain ⟨⟨s, as⟩, done, facts⟩ := (Option.any_eq_true _ _).mp ran
  obtain ⟨holds, content⟩ := Bool.and_eq_true_iff.mp facts
  obtain ⟨check, d, routes, live, pid, has, source⟩ := of_confirms holds
  refine ⟨as, s, schedule_run (fun _ _ _ _ taken => step_of_exec taken) _
    (.start installed_initial) done, fun confirmed => ?_⟩
  obtain ⟨inputs, identities, next, file, -, parsed, applied, -⟩ := confirmed 0 _ d check rfl rfl live pid
  obtain rfl : wired = inputs := Option.some.inj ((eq_of_beq content).symm.trans file)
  obtain rfl : routes = next.routes := Option.some.inj (has.symm.trans applied)
  have derived : (parseInputs dottedQuads wired).toOption.map (·.directSource) =
      some ⟨0, 0x0100000a⟩ := by decide +kernel
  rw [(readStateInputs_ok.mp parsed).2.2.1] at derived
  rw [show (Except.toOption (.ok next.routes : Except String Routes)).map (·.directSource)
    = some next.routes.directSource from rfl, source] at derived
  exact absurd derived (by decide)

end ProgramSplit.Windows.DispatcherLoad
