/-
# Windows.PendingHost — when a starting tunnel host is terminated

`Get-OwnedServiceProcess`, `Get-PendingHostAge`, `Reset-PendingService` and `Wait-ServiceRunning` of
`Invoke-Tunnel.ps1`, over any sequence of runs. The first sighting of a host is kept in the state file
and by the controller; a run may find either missing, or as any earlier run left it. `Memory` holds what
every run so far saw, reported and wrote.

* `Sighted` — what is reported or written of a process, some run saw: kept by every run;
* `perform_spares` — a run that reads its ages right terminates no host that is starting early;
* `starting_hosts_spared` — the same for every sequence of runs.
-/
import Mathlib.Algebra.Order.Floor.Ring
import Mathlib.Data.Rat.Floor
import Mathlib.Tactic.Linarith
import Mathlib.Tactic.NormNum
import Mathlib.Tactic.SplitIfs
import ProgramSplit.Lib.Sequence

namespace ProgramSplit.Windows.PendingHost

open Lib (Each each_imp)

set_option autoImplicit false

/-- `ServiceControllerStatus`. -/
inductive Status
  | stopped
  | startPending
  | stopPending
  | running
  | continuePending
  | pausePending
  | paused
  deriving DecidableEq

/-- The states a service passes through on a control. -/
def Status.isPending : Status → Bool
  | .startPending | .stopPending | .continuePending | .pausePending => true
  | .stopped | .running | .paused => false

/-- What a sighting is keyed to: `"$($Process.Id):$($Process.StartTime.ToUniversalTime().Ticks)"`. -/
structure Process where
  id : Nat
  startTicks : Nat
  deriving DecidableEq

/-- `Identity` and `FirstSeen`, the latter in seconds of the monotonic clock. -/
structure Sighting where
  process : Process
  firstSeen : Rat
  deriving DecidableEq

/-- The service was seen in `status`, its host being `process`. -/
structure Seen where
  process : Process
  status : Status
  time : Rat
  deriving DecidableEq

structure Memory where
  seen : List Seen
  reports : List Sighting
  written : List Sighting
  deriving DecidableEq

/-- What a later run reads of a number in a report, or in the state file. A report's text holds fifteen
digits, and may have an exponent, which the pattern refuses. -/
structure Numbers where
  shown : Rat → Option Rat
  stored : Rat → Option Rat

/-- A host that was terminated: the last status seen of its service, and when. -/
structure Kill where
  process : Process
  status : Status
  time : Rat
  deriving DecidableEq

/-! ## The functions of the script -/

/-- What `Get-Process` knows of an identifier: its creation, whether its handle opens, and whether its
image is `$hostExe`. -/
structure Running where
  startTicks : Nat
  opens : Bool
  ownImage : Bool
  deriving DecidableEq

/-- `Get-OwnedServiceProcess`, of the process identifier in the service's record. -/
def getOwnedServiceProcess (record : Option Nat) (processes : Nat → Option Running) : Option Process :=
  match record with
  | none | some 0 => none
  | some id =>
    match processes id with
    | none => none
    | some running =>
      if running.opens ∧ running.ownImage then some ⟨id, running.startTicks⟩ else none

/-- The cast `[int]`: to the nearest integer, a half to the even one. -/
def roundToEven (x : Rat) : Int :=
  if x - ⌊x⌋ < 1 / 2 then ⌊x⌋
  else if 1 / 2 < x - ⌊x⌋ then ⌊x⌋ + 1
  else if ⌊x⌋ % 2 = 0 then ⌊x⌋
  else ⌊x⌋ + 1

def toInt (x : Rat) : Option Int :=
  if -2147483648 ≤ roundToEven x ∧ roundToEven x ≤ 2147483647 then some (roundToEven x) else none

/-- The sighting a run finds: one of those kept, or none. -/
def readBack (number : Rat → Option Rat) (kept : List Sighting) (which : Option Nat) : Option Sighting :=
  match which.bind (kept[·]?) with
  | none => none
  | some sighting => (number sighting.firstSeen).map (⟨sighting.process, ·⟩)

/-- What one call of `Get-PendingHostAge` reads: `$PendingSeen`, the state file and the clock. -/
structure Reading where
  passed : Option Sighting
  saved : Option Sighting
  now : Rat

/-- `$known`, the sightings of this process that are not in the future. -/
def known (r : Reading) (process : Process) : List Rat :=
  (((r.passed.toList ++ r.saved.toList).filter (·.process = process)).map (·.firstSeen)).filter (· ≤ r.now)

def firstSeen (r : Reading) (process : Process) : Rat :=
  (known r process).min?.getD r.now

/-- What `Get-PendingHostAge` leaves; `status` is what its caller saw. -/
def sighted (m : Memory) (r : Reading) (process : Process) (status : Status) : Memory where
  seen := ⟨process, status, r.now⟩ :: m.seen
  reports := ⟨process, firstSeen r process⟩ :: m.reports
  written := if known r process = [] then ⟨process, r.now⟩ :: m.written else m.written

/-- `Get-PendingHostAge`; no age is one the cast refuses. -/
def getPendingHostAge (r : Reading) (process : Process) : Option Int :=
  toInt (r.now - firstSeen r process)

def stuckHostSeconds : Int := 90

/-- The loop of `Reset-PendingService`: each poll is the timer and the status after the pause. No result
is a run that ended in the loop. -/
def settle (settleSeconds : Rat) : List (Rat × Status) → Status → Option Status
  | [], status => if status = .startPending ∨ status = .stopPending then none else some status
  | (elapsed, next) :: rest, status =>
    if (status = .startPending ∨ status = .stopPending) ∧ elapsed < settleSeconds then
      settle settleSeconds rest next
    else some status

/-- What the system answers in one call of `Reset-PendingService`. -/
structure Reset where
  service : Option Status
  settleSeconds : Rat
  polls : List (Rat × Status)
  record : Option Nat
  processes : Nat → Option Running
  saved : Option Nat
  now : Rat

section Calls

variable (numbers : Numbers) (m : Memory) (passed : Option Sighting)

def Reset.reading (r : Reset) : Reading :=
  ⟨passed, readBack numbers.stored m.written r.saved, r.now⟩

/-- `Reset-PendingService`: what it leaves, and the host it terminates. -/
def resetPendingService (r : Reset) :
    Memory × Option Kill :=
  match r.service.bind (settle r.settleSeconds r.polls) with
  | none => (m, none)
  | some status =>
    if status = .startPending ∨ status = .stopPending then
      match getOwnedServiceProcess r.record r.processes with
      | none => (m, none)
      | some process =>
        if status = .startPending then
          (sighted m (r.reading numbers m passed) process status,
            match getPendingHostAge (r.reading numbers m passed) process with
            | none => none
            | some age => if age < stuckHostSeconds then none else some ⟨process, status, r.now⟩)
        else (m, some ⟨process, status, r.now⟩)
    else (m, none)

/-- The loop of `Wait-ServiceRunning`: the status at the timeout, if it comes to that. -/
def await (timeoutSeconds : Rat) : List (Status × Rat) → Option Status
  | [] => none
  | (status, elapsed) :: rest =>
    if status = .running ∨ status = .stopped then none
    else if timeoutSeconds ≤ elapsed then some status
    else await timeoutSeconds rest

/-- What the system answers in one call of `Wait-ServiceRunning`; `reset` is for the call it may make. -/
structure Wait where
  timeoutSeconds : Rat
  polls : List (Status × Rat)
  record : Option Nat
  processes : Nat → Option Running
  saved : Option Nat
  now : Rat
  reset : Reset

def Wait.reading (w : Wait) : Reading :=
  ⟨passed, readBack numbers.stored m.written w.saved, w.now⟩

/-- `Wait-ServiceRunning`. -/
def waitServiceRunning (w : Wait) :
    Memory × Option Kill :=
  match await w.timeoutSeconds w.polls with
  | none => (m, none)
  | some status =>
    match getOwnedServiceProcess w.record w.processes with
    | none => (m, none)
    | some process =>
      match getPendingHostAge (w.reading numbers m passed) process with
      | none => (sighted m (w.reading numbers m passed) process status, none)
      | some age =>
        if stuckHostSeconds ≤ age then
          resetPendingService numbers (sighted m (w.reading numbers m passed) process status) passed
            { w.reset with settleSeconds := 0 }
        else (sighted m (w.reading numbers m passed) process status, none)

/-- A call of a run of the script; `passed` is its `$PendingSeen`. -/
inductive Call
  | reset (r : Reset)
  | wait (w : Wait)

structure Run where
  passed : Option Nat
  call : Call

def Run.sighting (run : Run) : Option Sighting :=
  readBack numbers.shown m.reports run.passed

def perform (run : Run) : Memory × Option Kill :=
  match run.call with
  | .reset r => resetPendingService numbers m (run.sighting numbers m) r
  | .wait w => waitServiceRunning numbers m (run.sighting numbers m) w

def next (run : Run) : Memory := (perform numbers m run).1

/-! ## The property, and what it depends on -/

/-- Some run so far saw the host pending, by the given time. -/
def SeenBefore (m : Memory) (process : Process) (time : Rat) : Prop :=
  ∃ seen ∈ m.seen, seen.process = process ∧ seen.status.isPending ∧ seen.time ≤ time

/-- A host is terminated while its service starts only if an earlier run saw it pending 90 s before. -/
def Spared (run : Run) : Prop :=
  ∀ kill, (perform numbers m run).2 = some kill → kill.status = .startPending →
    SeenBefore m kill.process (kill.time - 90)

/-- The number read of a sighting is not below the one it was printed from. -/
def NotBelow (number : Rat → Option Rat) (kept : List Sighting) (which : Option Nat) : Prop :=
  ∀ sighting time, which.bind (kept[·]?) = some sighting → number sighting.firstSeen = some time →
    sighting.firstSeen ≤ time

/-- The host whose age a reset asks for: an owned one, of a service that is starting. -/
def Reset.asked (r : Reset) : Option Process :=
  if r.service.bind (settle r.settleSeconds r.polls) = some .startPending then
    getOwnedServiceProcess r.record r.processes
  else none

/-- The age a reset asks for is not short of 90 s by half a second or less. -/
def Reset.Clear (r : Reset) : Prop :=
  ∀ process, r.asked = some process → 179 / 2 ≤ r.now - firstSeen (r.reading numbers m passed) process →
    90 ≤ r.now - firstSeen (r.reading numbers m passed) process

/-- The wait comes to its reset: it has timed out over an owned host that is 90 s old. -/
def Wait.Resets (w : Wait) : Prop :=
  await w.timeoutSeconds w.polls ≠ none ∧
    ∃ process age, getOwnedServiceProcess w.record w.processes = some process ∧
    getPendingHostAge (w.reading numbers m passed) process = some age ∧ stuckHostSeconds ≤ age

/-- No number is read below the one printed, no age that is asked for is rounded up to 90 s, and no paused
service counts as a pending one. -/
def Measured (run : Run) : Prop :=
  NotBelow numbers.shown m.reports run.passed ∧
    match run.call with
    | .reset r => NotBelow numbers.stored m.written r.saved ∧ r.Clear numbers m (run.sighting numbers m)
    | .wait w =>
      await w.timeoutSeconds w.polls ≠ some .paused ∧
        NotBelow numbers.stored m.written w.saved ∧ NotBelow numbers.stored m.written w.reset.saved ∧
        (w.Resets numbers m (run.sighting numbers m) →
          { w.reset with settleSeconds := 0 }.Clear numbers m (run.sighting numbers m))

end Calls

/-! ## Ages -/

theorem roundToEven_le (x : Rat) : (roundToEven x : Rat) ≤ x + 1 / 2 := by
  have below := Int.floor_le x
  unfold roundToEven
  split_ifs with down up even
  · linarith
  · push_cast
    linarith
  · linarith
  · push_cast
    linarith

theorem of_stuck {r : Reading} {process : Process} {age : Int} (is : getPendingHostAge r process = some age)
    (stuck : stuckHostSeconds ≤ age) : 179 / 2 ≤ r.now - firstSeen r process := by
  simp only [getPendingHostAge, toInt] at is
  split at is
  · cases is
    have bound := roundToEven_le (r.now - firstSeen r process)
    have ninety : (90 : Rat) ≤ roundToEven (r.now - firstSeen r process) := by exact_mod_cast stuck
    linarith
  · cases is

theorem mem_known_iff {r : Reading} {process : Process} {time : Rat} :
    time ∈ known r process ↔ (r.passed = some ⟨process, time⟩ ∨ r.saved = some ⟨process, time⟩) ∧
    time ≤ r.now := by
  simp only [known, List.mem_filter, List.mem_map, List.mem_append, Option.mem_toList, decide_eq_true_eq]
  constructor
  · rintro ⟨⟨sighting, ⟨source, rfl⟩, rfl⟩, past⟩
    exact ⟨source, past⟩
  · rintro ⟨source, past⟩
    exact ⟨⟨_, ⟨source, rfl⟩, rfl⟩, past⟩

theorem firstSeen_cases (r : Reading) (process : Process) :
    (known r process = [] ∧ firstSeen r process = r.now) ∨
      (known r process ≠ [] ∧ firstSeen r process ∈ known r process) := by
  unfold firstSeen
  cases is : (known r process).min? with
  | none => exact .inl ⟨List.min?_eq_none_iff.mp is, rfl⟩
  | some least =>
    have mem := List.min?_mem is
    exact .inr ⟨List.ne_nil_of_mem mem, mem⟩

/-! ## What is kept was seen -/

/-- The sighting is of a process that a run saw pending by then. -/
def Founded (m : Memory) (sighting : Sighting) : Prop := SeenBefore m sighting.process sighting.firstSeen

/-- Everything reported or written was seen. -/
structure Sighted (m : Memory) : Prop where
  reports : ∀ sighting ∈ m.reports, Founded m sighting
  written : ∀ sighting ∈ m.written, Founded m sighting

theorem SeenBefore.mono {m : Memory} {process : Process} {early late : Rat} (le : early ≤ late) :
    SeenBefore m process early → SeenBefore m process late := by
  rintro ⟨seen, mem, same, pending, before⟩
  exact ⟨seen, mem, same, pending, before.trans le⟩

theorem readBack_founded {m : Memory} {number : Rat → Option Rat} {kept : List Sighting} {which : Option Nat}
    (all : ∀ sighting ∈ kept, Founded m sighting) (right : NotBelow number kept which) {sighting : Sighting}
    (is : readBack number kept which = some sighting) : Founded m sighting := by
  unfold readBack at is
  split at is
  · cases is
  · rename_i printed found
    obtain ⟨time, reads, rfl⟩ := Option.map_eq_some_iff.mp is
    obtain ⟨i, -, at_i⟩ := Option.bind_eq_some_iff.mp found
    exact (all printed (List.mem_of_getElem? at_i)).mono (right printed time found reads)

/-- Both sources of a reading are founded in a memory. -/
def Reading.Founded (m : Memory) (r : Reading) : Prop :=
  (∀ sighting, r.passed = some sighting → PendingHost.Founded m sighting) ∧
    ∀ sighting, r.saved = some sighting → PendingHost.Founded m sighting

theorem Reading.Founded.known {m : Memory} {r : Reading} (founded : r.Founded m) {process : Process}
    {time : Rat} (mem : time ∈ known r process) : SeenBefore m process time := by
  obtain ⟨passed | saved, -⟩ := mem_known_iff.mp mem
  · exact founded.1 _ passed
  · exact founded.2 _ saved

theorem seenBefore_of_stuck {m : Memory} {r : Reading} {process : Process} (founded : r.Founded m)
    (clear : 179 / 2 ≤ r.now - firstSeen r process → 90 ≤ r.now - firstSeen r process) {age : Int}
    (is : getPendingHostAge r process = some age) (stuck : stuckHostSeconds ≤ age) :
    SeenBefore m process (r.now - 90) := by
  have ninety := clear (of_stuck is stuck)
  rcases firstSeen_cases r process with ⟨-, now⟩ | ⟨-, mem⟩
  · rw [now] at ninety
    norm_num at ninety
  · exact (founded.known mem).mono (by linarith)

section Sight

variable {m : Memory} {r : Reading} {process : Process} {status : Status}

theorem SeenBefore.sighted {other : Process} {time : Rat} (before : SeenBefore m other time) :
    SeenBefore (sighted m r process status) other time := by
  obtain ⟨seen, mem, rest⟩ := before
  exact ⟨seen, List.mem_cons_of_mem _ mem, rest⟩

theorem seenBefore_sighted (pending : status.isPending) :
    SeenBefore (sighted m r process status) process r.now :=
  ⟨_, List.mem_cons_self, rfl, pending, le_rfl⟩

theorem sighted_sighted (kept : Sighted m) (founded : r.Founded m) (pending : status.isPending) :
    Sighted (sighted m r process status) := by
  have here : SeenBefore (sighted m r process status) process r.now := seenBefore_sighted pending
  constructor
  · intro sighting mem
    rcases List.mem_cons.mp mem with rfl | old
    · rcases firstSeen_cases r process with ⟨-, now⟩ | ⟨-, known⟩
      · simpa only [Founded, now] using here
      · exact (founded.known known).sighted
    · exact (kept.reports _ old).sighted
  · intro sighting mem
    simp only [sighted] at mem
    split at mem
    · rcases List.mem_cons.mp mem with rfl | old
      · exact here
      · exact (kept.written _ old).sighted
    · exact (kept.written _ mem).sighted

/-- An age of 90 s is that of a known sighting, so nothing is written. -/
theorem sighted_written {age : Int} (is : getPendingHostAge r process = some age)
    (stuck : stuckHostSeconds ≤ age) :
    (sighted m r process status).written = m.written := by
  rcases firstSeen_cases r process with ⟨-, now⟩ | ⟨some, -⟩
  · have half := of_stuck is stuck
    rw [now] at half
    norm_num at half
  · exact if_neg some

end Sight

/-! ## One run -/

section Run

variable {numbers : Numbers} {m : Memory} {passed : Option Sighting}

/-- A reset leaves everything, ends a stopping host, or looks at a starting one, which it ends only at
90 s. -/
theorem resetPendingService_cases (r : Reset) :
    resetPendingService numbers m passed r = (m, none) ∨
      (∃ process, resetPendingService numbers m passed r = (m, some ⟨process, .stopPending, r.now⟩)) ∨
      ∃ process, r.asked = some process ∧
        (resetPendingService numbers m passed r).1 =
            sighted m (r.reading numbers m passed) process .startPending ∧
          ∀ kill, (resetPendingService numbers m passed r).2 = some kill →
            kill = ⟨process, .startPending, r.now⟩ ∧
              ∃ age, getPendingHostAge (r.reading numbers m passed) process = some age ∧
              stuckHostSeconds ≤ age := by
  unfold resetPendingService
  split
  · exact .inl rfl
  · rename_i status settled
    by_cases pending : status = .startPending ∨ status = .stopPending
    · rw [if_pos pending]
      split
      · exact .inl rfl
      · rename_i process owned
        rcases pending with rfl | rfl
        · refine .inr (.inr ⟨process, (if_pos settled).trans owned, rfl, fun kill is => ?_⟩)
          simp only [if_true] at is
          split at is
          · cases is
          · rename_i age measured
            split_ifs at is with young
            cases is
            exact ⟨rfl, age, measured, not_lt.mp young⟩
        · exact .inr (.inl ⟨process, rfl⟩)
    · rw [if_neg pending]
      exact .inl rfl

theorem resetPendingService_sighted {r : Reset} (kept : Sighted m)
    (founded : (r.reading numbers m passed).Founded m) :
    Sighted (resetPendingService numbers m passed r).1 := by
  rcases resetPendingService_cases r with same | ⟨process, ended⟩ | ⟨process, -, looked, -⟩
  · rwa [same]
  · rwa [ended]
  · rw [looked]
    exact sighted_sighted kept founded rfl

/-- `base` is the memory the run began with. -/
theorem resetPendingService_spares {base : Memory} {r : Reset}
    (founded : (r.reading numbers m passed).Founded base)
    (clear : r.Clear numbers m passed) {kill : Kill}
    (is : (resetPendingService numbers m passed r).2 = some kill) (starts : kill.status = .startPending) :
    SeenBefore base kill.process (kill.time - 90) := by
  rcases resetPendingService_cases r with same | ⟨process, ended⟩ | ⟨process, asked, -, only⟩
  · rw [same] at is
    cases is
  · rw [ended] at is
    cases is
    cases starts
  · obtain ⟨rfl, age, measured, stuck⟩ := only kill is
    exact seenBefore_of_stuck founded (clear process asked) measured stuck

theorem await_ne {timeoutSeconds : Rat} {polls : List (Status × Rat)} {status : Status}
    (is : await timeoutSeconds polls = some status) : status ≠ .running ∧ status ≠ .stopped := by
  fun_induction await timeoutSeconds polls with
  | case1 => cases is
  | case2 => cases is
  | case3 _ _ _ other =>
    cases is
    exact not_or.mp other
  | case4 _ _ _ _ _ ih => exact ih is

/-- A wait leaves everything, looks at the host it waited for, or resets that host, which it has then
seen for 90 s. -/
theorem waitServiceRunning_cases (w : Wait) :
    waitServiceRunning numbers m passed w = (m, none) ∨
      ∃ status process, await w.timeoutSeconds w.polls = some status ∧
        (waitServiceRunning numbers m passed w =
          (sighted m (w.reading numbers m passed) process status, none) ∨
          (waitServiceRunning numbers m passed w =
              resetPendingService numbers (sighted m (w.reading numbers m passed) process status) passed
                { w.reset with settleSeconds := 0 } ∧
            w.Resets numbers m passed ∧
            (sighted m (w.reading numbers m passed) process status).written = m.written)) := by
  unfold waitServiceRunning
  split
  · exact .inl rfl
  · rename_i status awaited
    split
    · exact .inl rfl
    · rename_i process owned
      refine .inr ⟨status, process, awaited, ?_⟩
      split
      · exact .inl rfl
      · rename_i age measured
        split_ifs with stuck
        · refine .inr ⟨rfl, ⟨?_, process, age, owned, measured, stuck⟩, sighted_written measured stuck⟩
          exact fun never => nomatch awaited.symm.trans never
        · exact .inl rfl

theorem reading_founded {base : Memory} {which : Option Nat} {now : Rat}
    (written : ∀ sighting ∈ m.written, Founded base sighting)
    (given : ∀ sighting, passed = some sighting → Founded base sighting)
    (right : NotBelow numbers.stored m.written which) :
    Reading.Founded base ⟨passed, readBack numbers.stored m.written which, now⟩ :=
  ⟨given, fun _ is => readBack_founded written right is⟩

theorem isPending_of_await {w : Wait} {status : Status} (is : await w.timeoutSeconds w.polls = some status)
    (notPaused : await w.timeoutSeconds w.polls ≠ some .paused) : status.isPending := by
  obtain ⟨notRunning, notStopped⟩ := await_ne is
  cases status with
  | running => exact absurd rfl notRunning
  | stopped => exact absurd rfl notStopped
  | paused => exact absurd is notPaused
  | startPending | stopPending | continuePending | pausePending => rfl

section Wait

variable {w : Wait} (kept : Sighted m) (given : ∀ sighting, passed = some sighting → Founded m sighting)
  (again : NotBelow numbers.stored m.written w.reset.saved)

include kept given again

theorem waitServiceRunning_sighted (notPaused : await w.timeoutSeconds w.polls ≠ some .paused)
    (right : NotBelow numbers.stored m.written w.saved) :
    Sighted (waitServiceRunning numbers m passed w).1 := by
  have looks : (w.reading numbers m passed).Founded m := reading_founded kept.written given right
  rcases waitServiceRunning_cases w with same | ⟨status, process, awaited, looked | ⟨resets, -, written⟩⟩
  · rwa [same]
  · rw [looked]
    exact sighted_sighted kept looks (isPending_of_await awaited notPaused)
  · rw [resets]
    have left : Sighted (sighted m (w.reading numbers m passed) process status) :=
      sighted_sighted kept looks (isPending_of_await awaited notPaused)
    refine resetPendingService_sighted left (reading_founded left.written ?_ (written ▸ again))
    exact fun sighting is => (given sighting is).sighted

theorem waitServiceRunning_spares
    (clear : w.Resets numbers m passed → { w.reset with settleSeconds := 0 }.Clear numbers m passed)
    {kill : Kill}
    (is : (waitServiceRunning numbers m passed w).2 = some kill) (starts : kill.status = .startPending) :
    SeenBefore m kill.process (kill.time - 90) := by
  rcases waitServiceRunning_cases w with same | ⟨status, process, awaited, looked | ⟨resets, come, written⟩⟩
  · rw [same] at is
    cases is
  · rw [looked] at is
    cases is
  · rw [resets] at is
    -- The state file is as it was, so the reset reads what the run could have read at its start.
    have reads : Reset.reading numbers (sighted m (w.reading numbers m passed) process status) passed
        { w.reset with settleSeconds := 0 } = w.reset.reading numbers m passed := by
      simp only [Reset.reading, written]
    have founded : (w.reset.reading numbers m passed).Founded m := reading_founded kept.written given again
    refine resetPendingService_spares (reads ▸ founded) (fun process asked => ?_) is starts
    rw [reads]
    exact clear come process asked

end Wait

variable {run : Run} (kept : Sighted m) (measured : Measured numbers m run)
include kept measured

theorem passed_founded (sighting : Sighting) (is : run.sighting numbers m = some sighting) :
    Founded m sighting :=
  readBack_founded kept.reports measured.1 is

theorem next_sighted : Sighted (next numbers m run) := by
  have given := passed_founded kept measured
  obtain ⟨passed, call⟩ := run
  cases call with
  | reset r => exact resetPendingService_sighted kept (reading_founded kept.written given measured.2.1)
  | wait w =>
    obtain ⟨-, notPaused, saved, again, -⟩ := measured
    exact waitServiceRunning_sighted kept given again notPaused saved

theorem perform_spares : Spared numbers m run := by
  intro kill is starts
  have given := passed_founded kept measured
  obtain ⟨passed, call⟩ := run
  cases call with
  | reset r =>
    obtain ⟨-, saved, clear⟩ := measured
    exact resetPendingService_spares (reading_founded kept.written given saved) clear is starts
  | wait w =>
    obtain ⟨-, -, -, again, clear⟩ := measured
    exact waitServiceRunning_spares kept given again clear is starts

end Run

/-- Before the first run. -/
def nothing : Memory := ⟨[], [], []⟩

/-- **A host that starts is not terminated early**, in any sequence of runs that measure their ages
right: an earlier run saw it pending, 90 s before. -/
theorem starting_hosts_spared (numbers : Numbers) (runs : List Run)
    (measured : Each (next numbers) (Measured numbers) nothing runs) :
    Each (next numbers) (Spared numbers) nothing runs := by
  refine each_imp Sighted (fun m run => next_sighted) (fun m run => perform_spares) runs ?_ measured
  constructor <;> exact fun _ mem => absurd mem List.not_mem_nil

/-! ## Poles -/

/-- Reports and the state file keep every number. -/
def kept : Numbers := ⟨some, some⟩

/-- A reset of a host that is still starting, with the controller's first report passed on. -/
def look (now : Rat) : Run where
  passed := some 0
  call := .reset
    { service := some .startPending
      settleSeconds := 0
      polls := [(0, .startPending)]
      record := some 7
      processes := fun _ => some ⟨1, true, true⟩
      saved := none
      now := now }

/-- Seen at 0 s and terminated at 90 s. -/
theorem starting_hosts_spared_ninety :
    (perform kept (next kept nothing (look 0)) (look 90)).2 = some ⟨⟨7, 1⟩, .startPending, 90⟩ ∧
      Each (next kept) (Spared kept) nothing [look 0, look 90] := by
  have same (sightings : List Sighting) (which : Option Nat) : NotBelow some sightings which :=
    fun _ _ _ is => (Option.some.inj is).le
  refine ⟨by decide +kernel, starting_hosts_spared kept _ ⟨⟨same _ _, same _ _, ?_⟩, ⟨same _ _, same _ _, ?_⟩, trivial⟩⟩
  all_goals
    rintro process asked
    obtain rfl : (⟨7, 1⟩ : Process) = process := Option.some.inj asked
    decide +kernel

/-- Seen at 0 s and terminated at 89.5 s, which the cast makes 90. -/
theorem young_host_terminated :
    (perform kept (next kept nothing (look 0)) (look (179 / 2))).2 = some ⟨⟨7, 1⟩, .startPending, 179 / 2⟩ ∧
      ¬ Each (next kept) (Spared kept) nothing [look 0, look (179 / 2)] := by
  have killed : (perform kept (next kept nothing (look 0)) (look (179 / 2))).2 =
      some ⟨⟨7, 1⟩, .startPending, 179 / 2⟩ := by decide +kernel
  have once : (next kept nothing (look 0)).seen = [⟨⟨7, 1⟩, .startPending, 0⟩] := by decide +kernel
  refine ⟨killed, fun ⟨_, spared, _⟩ => ?_⟩
  obtain ⟨seen, mem, -, -, before⟩ := spared _ killed rfl
  rw [once, List.mem_singleton] at mem
  rw [mem] at before
  norm_num at before

end ProgramSplit.Windows.PendingHost
