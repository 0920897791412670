/-
# Windows.SupervisorEvidence — the supervisor acts on sustained evidence

The loop's counters and times stand for parts of its history: `failures` and `firstFailure` for the
latest failed probes of the held process, `unreadySince` for the latest passes without a ready
dispatcher, `lastStart` and `helperEnded` for the last start and the last end of a helper.

* `Inv` — what each variable stands for, block by block of a pass.
* `supervisor_sustained` — **every act rests on its evidence, in every run in which the supervised
  file does not disappear between the two tests of a pass.**
* `flicker_suspends` — where it does, time before the disappearance counts.
-/
import ProgramSplit.Windows.Supervisor

namespace ProgramSplit.Windows.Supervisor

set_option autoImplicit false

open Lib

/-- The latest failed probes of the held process. -/
def Failing (host : Host) : Prop :=
  ∃ child first, host.loop.child = some child ∧
    Unbroken (fun probe : Probe => probe.child = child ∧ probe.answered = false) (probes host.trace)
      host.loop.failures first ∧ first.tick = host.loop.firstFailure

/-- The latest passes without a ready dispatcher. -/
def Waiting (host : Host) : Prop :=
  ∃ count first, Unbroken (fun found : Found => found.ready = false) (finds host.trace) count first ∧
    first.tick = host.loop.unreadySince

/-- What the variables about the dispatcher's life stand for. -/
structure Liveness (host : Host) : Prop where
  holds : holding host.trace = host.loop.child
  small : host.loop.failures < 2 ^ 32
  failing : 0 < host.loop.failures → Failing host
  -- probes are a second apart, and the loop gives up after ten: the counter does not wrap before
  spaced : 0 < host.loop.failures →
    host.loop.firstFailure + (host.loop.failures - 1) * kLivenessIntervalMilliseconds ≤ host.loop.lastProbe
  patient : host.loop.answered = true → kLivenessFailures ≤ host.loop.failures →
    host.loop.lastProbe < host.loop.firstFailure + kLivenessFailureGraceMilliseconds
  unheard : 0 < host.loop.failures → heard host.trace = some false
  answers : host.loop.failures = 0 → (heard host.trace = some true ↔ host.loop.answered = true)
  probed : host.loop.lastProbe ≤ host.now

/-- What the variables about starts, helpers and readiness stand for. -/
structure Timing (host : Host) : Prop where
  bound : host.now < 2 ^ 64
  starts : ∀ stamped ∈ host.trace, stamped.event.isStart = true → stamped.tick ≤ host.loop.lastStart
  started : host.loop.lastStart ≤ host.now
  helper : helperRunning host.trace = host.loop.helper.isSome
  helperEnds : ∀ stamped ∈ host.trace, stamped.event = .helperEnded → stamped.tick ≤ host.loop.helperEnded
  ended : host.loop.helperEnded ≤ host.now
  waiting : 0 < host.loop.unreadySince → Waiting host
  unready : host.loop.unreadySince ≤ host.now

structure Inv (host : Host) : Prop where
  verified : Verified Justified host.trace
  liveness : Liveness host
  timing : Timing host

theorem inv_initial : Inv Host.initial where
  verified := trivial
  liveness := by constructor <;> simp [Host.initial, holding, heard]
  timing := by constructor <;> simp [Host.initial, helperRunning]

/-! ## Events that leave a part of the history alone -/

/-- An event that does not concern the dispatcher's life. -/
def Event.quiet : Event → Bool
  | .helperTerminated | .helperEnded | .found .. | .republished _ | .helper .. | .terminated _ => true
  | _ => false

section Quiet

variable {tick : Nat} {event : Event} (quiet : event.quiet = true) (earlier : List Stamped)

include quiet

theorem holding_quiet : holding (⟨tick, event⟩ :: earlier) = holding earlier := by
  cases event <;> first | rfl | cases quiet

theorem heard_quiet : heard (⟨tick, event⟩ :: earlier) = heard earlier := by
  cases event <;> first | rfl | cases quiet

theorem probes_quiet : probes (⟨tick, event⟩ :: earlier) = probes earlier := by
  cases event <;> first | rfl | cases quiet

end Quiet

/-- Quiet events keep what the variables about the dispatcher's life stand for. -/
theorem Liveness.emit {host : Host} (live : Liveness host) {event : Event} (quiet : event.quiet = true) :
    Liveness (host.emit event) :=
  { live with
    holds := (holding_quiet quiet _).trans live.holds
    failing := fun positive => by
      obtain ⟨child, first, held, streak, time⟩ := live.failing positive
      exact ⟨child, first, held, (probes_quiet quiet host.trace).symm ▸ streak, time⟩
    unheard := fun positive => (heard_quiet quiet _).trans (live.unheard positive)
    answers := fun zero => (heard_quiet quiet host.trace).symm ▸ live.answers zero }

/-- Variables that have nothing to do with the dispatcher's life may change. -/
theorem Liveness.congr {host host' : Host} (live : Liveness host) (trace : host'.trace = host.trace)
    (child : host'.loop.child = host.loop.child) (failures : host'.loop.failures = host.loop.failures)
    (firstFailure : host'.loop.firstFailure = host.loop.firstFailure)
    (lastProbe : host'.loop.lastProbe = host.loop.lastProbe)
    (answered : host'.loop.answered = host.loop.answered) (now : host.now ≤ host'.now) : Liveness host' := by
  constructor
  · rw [trace, child]; exact live.holds
  · rw [failures]; exact live.small
  · unfold Failing; rw [failures, trace, child, firstFailure]; exact live.failing
  · rw [failures, firstFailure, lastProbe]; exact live.spaced
  · rw [failures, firstFailure, lastProbe, answered]; exact live.patient
  · rw [failures, trace]; exact live.unheard
  · rw [failures, trace, answered]; exact live.answers
  · rw [lastProbe]; exact Nat.le_trans live.probed now

/-- A process is taken or let go: nothing is known of it. -/
theorem Liveness.reset {host : Host} {trace : List Stamped} (loop : Loop)
    (holds : holding trace = loop.child) (silent : heard trace = none) :
    Liveness { host with trace, loop := loop.resetLiveness } where
  holds := holds
  small := Nat.two_pow_pos 32
  failing positive := absurd positive (Nat.lt_irrefl 0)
  spaced positive := absurd positive (Nat.lt_irrefl 0)
  patient answered := by cases answered
  unheard positive := absurd positive (Nat.lt_irrefl 0)
  answers _ := by simp [silent, Loop.resetLiveness]
  probed := Nat.zero_le _

/-- An event that concerns neither starts, helpers nor readiness. -/
def Event.still : Event → Bool
  | .helperTerminated | .released | .ended | .adopted _ | .probed .. | .terminated _ | .republished _ => true
  | _ => false

section Still

variable {tick : Nat} {event : Event} (still : event.still = true) (earlier : List Stamped)

include still

theorem finds_still : finds (⟨tick, event⟩ :: earlier) = finds earlier := by
  cases event <;> first | rfl | cases still

theorem helperRunning_still : helperRunning (⟨tick, event⟩ :: earlier) = helperRunning earlier := by
  cases event <;> first | rfl | cases still

theorem not_start_of_still : event.isStart = false := by
  cases event <;> first | rfl | cases still

theorem ne_helperEnded_of_still : event ≠ .helperEnded := by
  rintro rfl
  cases still

end Still

/-- An event other than a start. -/
theorem Timing.starts_cons {host : Host} (timing : Timing host) {tick : Nat} {event : Event}
    (other : event.isStart = false) : ∀ stamped ∈ (⟨tick, event⟩ :: host.trace : List Stamped),
      stamped.event.isStart = true → stamped.tick ≤ host.loop.lastStart := by
  intro stamped member isStart
  rcases List.mem_cons.mp member with rfl | member
  · rw [other] at isStart
    cases isStart
  · exact timing.starts stamped member isStart

/-- An event other than the end of a helper. -/
theorem Timing.helperEnds_cons {host : Host} (timing : Timing host) {tick : Nat} {event : Event}
    (other : event ≠ .helperEnded) : ∀ stamped ∈ (⟨tick, event⟩ :: host.trace : List Stamped),
      stamped.event = .helperEnded → stamped.tick ≤ host.loop.helperEnded := by
  intro stamped member isEnd
  rcases List.mem_cons.mp member with rfl | member
  · exact absurd isEnd other
  · exact timing.helperEnds stamped member isEnd

theorem Timing.emit {host : Host} (timing : Timing host) {event : Event} (still : event.still = true) :
    Timing (host.emit event) :=
  { timing with
    starts := timing.starts_cons (not_start_of_still still)
    helper := (helperRunning_still still _).trans timing.helper
    helperEnds := timing.helperEnds_cons (ne_helperEnded_of_still still)
    waiting := fun positive => by
      obtain ⟨count, first, streak, time⟩ := timing.waiting positive
      exact ⟨count, first, (finds_still still host.trace).symm ▸ streak, time⟩ }

theorem Timing.congr {host host' : Host} (timing : Timing host) (trace : host'.trace = host.trace)
    (lastStart : host'.loop.lastStart = host.loop.lastStart) (helper : host'.loop.helper = host.loop.helper)
    (helperEnded : host'.loop.helperEnded = host.loop.helperEnded)
    (unreadySince : host'.loop.unreadySince = host.loop.unreadySince) (now : host.now ≤ host'.now)
    (bound : host'.now < 2 ^ 64) : Timing host' := by
  constructor
  · exact bound
  · rw [trace, lastStart]; exact timing.starts
  · rw [lastStart]; exact Nat.le_trans timing.started now
  · rw [trace, helper]; exact timing.helper
  · rw [trace, helperEnded]; exact timing.helperEnds
  · rw [helperEnded]; exact Nat.le_trans timing.ended now
  · unfold Waiting; rw [unreadySince, trace]; exact timing.waiting
  · rw [unreadySince]; exact Nat.le_trans timing.unready now

/-! ## The blocks of a pass -/

section Blocks

variable {answers : Answers} {host : Host} (inv : Inv host)

include inv

theorem Inv.tick {now : Nat} (forward : host.now ≤ now) (bound : now < 2 ^ 64) :
    Inv { host with now } where
  verified := inv.verified
  liveness := inv.liveness.congr rfl rfl rfl rfl rfl rfl forward
  timing := inv.timing.congr rfl rfl rfl rfl rfl forward bound

/-- An event that concerns no variable at all. -/
theorem Inv.emit {event : Event} (quiet : event.quiet = true) (still : event.still = true)
    (justified : Justified ⟨host.now, event⟩ host.trace) : Inv (host.emit event) :=
  ⟨⟨justified, inv.verified⟩, inv.liveness.emit quiet, inv.timing.emit still⟩

theorem limitHelper_inv : Inv (limitHelper answers host) := by
  unfold limitHelper
  split
  · exact inv.emit rfl rfl trivial
  · exact inv

theorem reapHelper_inv : Inv (reapHelper answers host) := by
  unfold reapHelper
  split
  · refine ⟨⟨trivial, inv.verified⟩,
      (inv.liveness.emit rfl).congr rfl rfl rfl rfl rfl rfl (Nat.le_refl _), ?_⟩
    exact
      { inv.timing with
        starts := inv.timing.starts_cons rfl
        helper := rfl
        helperEnds := fun stamped member isEnd => by
          rcases List.mem_cons.mp member with rfl | member
          · exact Nat.le_refl _
          · exact Nat.le_trans (inv.timing.helperEnds stamped member isEnd) inv.timing.ended
        ended := Nat.le_refl _ }
  · exact inv

omit inv in
/-- The supervised file is absent: nothing was ready or failing before. -/
theorem Timing.absent {host : Host} (timing : Timing host) :
    Timing { host.emit .absent with loop := { host.loop with unreadySince := 0 } } :=
  { timing with
    starts := timing.starts_cons rfl
    helperEnds := timing.helperEnds_cons (by decide)
    waiting := fun positive => absurd positive (Nat.lt_irrefl 0)
    unready := Nat.zero_le _ }

theorem standDown_inv : Inv (standDown host) where
  verified := ⟨trivial, trivial, inv.verified⟩
  liveness := Liveness.reset _ rfl rfl
  timing := (inv.timing.absent.emit rfl).congr rfl rfl rfl rfl rfl (Nat.le_refl _) inv.timing.bound

theorem dropEnded_inv : Inv (dropEnded answers host) := by
  unfold dropEnded
  split
  · exact ⟨⟨trivial, inv.verified⟩, Liveness.reset _ rfl rfl,
      (inv.timing.emit rfl).congr rfl rfl rfl rfl rfl (Nat.le_refl _) inv.timing.bound⟩
  · exact inv

theorem adopt_inv : Inv (adopt answers host) := by
  unfold adopt
  split
  · split
    · exact ⟨⟨trivial, inv.verified⟩, Liveness.reset _ rfl rfl,
        (inv.timing.emit rfl).congr rfl rfl rfl rfl rfl (Nat.le_refl _) inv.timing.bound⟩
    · exact inv
  · exact inv

theorem start_inv : Inv (start answers host) := by
  unfold start
  split
  · rename_i free
    obtain ⟨none, spaced⟩ := Bool.and_eq_true_iff.mp free
    have spaced := of_decide_eq_true spaced
    rw [minus_eq inv.timing.started inv.timing.bound] at spaced
    have notHeld : holding host.trace = .none := inv.liveness.holds.trans (Option.isNone_iff_eq_none.mp none)
    refine ⟨⟨⟨notHeld, fun other member isStart => ?_⟩, inv.verified⟩, Liveness.reset _ rfl rfl, ?_⟩
    · have before := inv.timing.starts other member isStart
      show other.tick + kRestartSpacingMilliseconds ≤ host.now
      unfold kRestartSpacingMilliseconds at spaced ⊢
      omega
    · exact
        { inv.timing with
          starts := fun stamped member isStart => by
            rcases List.mem_cons.mp member with rfl | member
            · exact Nat.le_refl _
            · exact Nat.le_trans (inv.timing.starts stamped member isStart) inv.timing.started
          started := Nat.le_refl _
          helperEnds := inv.timing.helperEnds_cons (by rintro ⟨⟩) }
  · exact inv

theorem acquire_inv (stays : rechecks answers host = true → answers.supervisedLocked = true) :
    Inv (acquire answers host) := by
  unfold acquire
  split
  · rename_i again
    rw [if_pos (stays again)]
    exact start_inv (adopt_inv (dropEnded_inv inv))
  · exact inv

omit inv in
theorem alive_some {child : Process} (live : alive answers host = some child) :
    host.loop.child = some child := by
  unfold alive at live
  split at live
  · exact live
  · cases live

/-- A probe is due a second after the last one. -/
theorem Inv.due
    (due : decide (kLivenessIntervalMilliseconds ≤ minus host.now host.loop.lastProbe) = true) :
    host.loop.lastProbe + kLivenessIntervalMilliseconds ≤ host.now := by
  have due := of_decide_eq_true due
  rw [minus_eq inv.liveness.probed inv.timing.bound] at due
  have past := inv.liveness.probed
  omega

theorem answerProbe_inv (child : Process) :
    Inv { host.emit (.probed child true) with
      loop := { host.loop with lastProbe := host.now, failures := 0, firstFailure := 0, answered := true } } where
  verified := ⟨trivial, inv.verified⟩
  liveness :=
    { holds := inv.liveness.holds
      small := Nat.two_pow_pos 32
      failing := fun positive => absurd positive (Nat.lt_irrefl 0)
      spaced := fun positive => absurd positive (Nat.lt_irrefl 0)
      patient := fun _ many => absurd many (Nat.not_succ_le_zero 2)
      unheard := fun positive => absurd positive (Nat.lt_irrefl 0)
      answers := fun _ => ⟨fun _ => rfl, fun _ => rfl⟩
      probed := Nat.le_refl _ }
  timing := (inv.timing.emit rfl).congr rfl rfl rfl rfl rfl (Nat.le_refl _) inv.timing.bound

/-- The loop once a failed probe is counted. -/
def counted (host : Host) : Loop :=
  { host.loop with
    lastProbe := host.now
    firstFailure := if host.loop.failures = 0 then host.now else host.loop.firstFailure
    failures := (host.loop.failures + 1) % 2 ^ 32 }

/-- The counter goes on, or has wrapped to zero. -/
theorem Inv.counted_failures :
    (counted host).failures = host.loop.failures + 1 ∨
      host.loop.failures = 2 ^ 32 - 1 ∧ (counted host).failures = 0 := by
  have small := inv.liveness.small
  show (host.loop.failures + 1) % 2 ^ 32 = _ ∨ _ ∧ (host.loop.failures + 1) % 2 ^ 32 = _
  omega

theorem Inv.counted_failing {child : Process} (held : host.loop.child = some child)
    (positive : 0 < (counted host).failures) : ∃ first,
      Unbroken (fun probe : Probe => probe.child = child ∧ probe.answered = false)
        (probes (host.emit (.probed child false)).trace) (counted host).failures first ∧
      first.tick = (counted host).firstFailure := by
  rcases inv.counted_failures with next | ⟨-, zero⟩
  · rw [next]
    by_cases fresh : host.loop.failures = 0
    · refine ⟨⟨host.now, child, false⟩, ?_, (if_pos fresh).symm⟩
      rw [fresh]
      exact .first ⟨rfl, rfl⟩
    · obtain ⟨child', first, held', streak, time⟩ := inv.liveness.failing (Nat.pos_of_ne_zero fresh)
      obtain rfl := Option.some.inj (held.symm.trans held')
      exact ⟨first, streak.next ⟨rfl, rfl⟩, time.trans (if_neg fresh).symm⟩
  · omega

omit inv in
theorem spaced_next {first count last now : Nat} (positive : 0 < count)
    (spaced : first + (count - 1) * kLivenessIntervalMilliseconds ≤ last)
    (due : last + kLivenessIntervalMilliseconds ≤ now) :
    first + count * kLivenessIntervalMilliseconds ≤ now := by
  obtain ⟨before, rfl⟩ := Nat.exists_eq_succ_of_ne_zero (Nat.ne_of_gt positive)
  rw [Nat.succ_sub_one] at spaced
  rw [Nat.succ_mul]
  omega

theorem Inv.counted_spaced (due : host.loop.lastProbe + kLivenessIntervalMilliseconds ≤ host.now)
    (positive : 0 < (counted host).failures) :
    (counted host).firstFailure + ((counted host).failures - 1) * kLivenessIntervalMilliseconds ≤
      host.now := by
  rcases inv.counted_failures with next | ⟨-, zero⟩
  · rw [next, Nat.add_sub_cancel]
    by_cases fresh : host.loop.failures = 0
    · have first : (counted host).firstFailure = host.now := if_pos fresh
      rw [first, fresh]
      omega
    · have first : (counted host).firstFailure = host.loop.firstFailure := if_neg fresh
      have spaced := inv.liveness.spaced (Nat.pos_of_ne_zero fresh)
      rw [first]
      exact spaced_next (Nat.pos_of_ne_zero fresh) spaced due
  · omega

/-- A counter that wraps has long been acted upon. -/
theorem Inv.counted_wrapped (wrapped : (counted host).failures = 0) :
    host.loop.answered = false := by
  rcases inv.counted_failures with next | ⟨last, -⟩
  · omega
  · have many : 0 < host.loop.failures := by omega
    have spaced := inv.liveness.spaced many
    cases answered : host.loop.answered with
    | false => rfl
    | true =>
      have patient := inv.liveness.patient answered (by unfold kLivenessFailures; omega)
      unfold kLivenessIntervalMilliseconds kLivenessFailureGraceMilliseconds at *
      omega

/-- What a failed probe leaves, whether or not the dispatcher is given up. -/
theorem Inv.countedLiveness {child : Process} (held : host.loop.child = some child)
    (due : host.loop.lastProbe + kLivenessIntervalMilliseconds ≤ host.now) {answered : Bool}
    (kept : answered = true → host.loop.answered = true)
    (patient : answered = true → kLivenessFailures ≤ (counted host).failures →
      host.now < (counted host).firstFailure + kLivenessFailureGraceMilliseconds) :
    Liveness { host.emit (.probed child false) with loop := { counted host with answered } } where
  holds := inv.liveness.holds
  small := Nat.mod_lt _ (Nat.two_pow_pos 32)
  failing positive := by
    obtain ⟨first, streak, time⟩ := inv.counted_failing held positive
    exact ⟨child, first, held, streak, time⟩
  spaced positive := inv.counted_spaced due positive
  patient := patient
  unheard _ := rfl
  answers zero := by
    refine ⟨fun contra => absurd (Option.some.inj contra) (by decide), fun isAnswered => ?_⟩
    rw [inv.counted_wrapped zero] at kept
    exact absurd (kept isAnswered) (by decide)
  probed := Nat.le_refl _

theorem failProbe_inv {child : Process} (held : host.loop.child = some child)
    (due : host.loop.lastProbe + kLivenessIntervalMilliseconds ≤ host.now) : Inv (failProbe child host) := by
  have firstPast : 0 < (counted host).failures → (counted host).firstFailure ≤ host.now := by
    intro positive
    have spaced := inv.counted_spaced due positive
    omega
  show Inv (if dispatcherFailurePersistent (counted host).failures (counted host).firstFailure host.now then
    { (host.emit (.probed child false)).emit (.terminated child) with loop := { counted host with answered := false } }
    else { host.emit (.probed child false) with loop := counted host })
  split
  · rename_i persistent
    simp only [dispatcherFailurePersistent, Bool.and_eq_true, decide_eq_true_eq] at persistent
    obtain ⟨⟨many, past⟩, long⟩ := persistent
    rw [minus_eq past inv.timing.bound] at long
    obtain ⟨first, streak, time⟩ := inv.counted_failing held (Nat.lt_of_lt_of_le (by decide) many)
    have live := inv.countedLiveness held due (fun contra => absurd contra (by decide : ¬false = true))
      (fun contra => absurd contra (by decide))
    refine ⟨⟨⟨inv.liveness.holds.trans held, _, first, many, streak, ?_⟩, trivial, inv.verified⟩,
      (live.emit rfl).congr rfl rfl rfl rfl rfl rfl (Nat.le_refl _),
      ((inv.timing.emit rfl).emit rfl).congr rfl rfl rfl rfl rfl (Nat.le_refl _) inv.timing.bound⟩
    show _ ≤ host.now
    omega
  · rename_i fleeting
    refine ⟨⟨trivial, inv.verified⟩, inv.countedLiveness held due id fun _ many => ?_,
      (inv.timing.emit rfl).congr rfl rfl rfl rfl rfl (Nat.le_refl _) inv.timing.bound⟩
    have past := firstPast (Nat.lt_of_lt_of_le (by decide) many)
    simp only [dispatcherFailurePersistent, Bool.and_eq_true, decide_eq_true_eq, not_and] at fleeting
    have short := fleeting ⟨many, past⟩
    rw [minus_eq past inv.timing.bound] at short
    omega

theorem probe_inv : Inv (probe answers host) := by
  unfold probe
  split
  · rename_i child live
    have held := alive_some live
    split
    · rename_i due
      have due := inv.due (Bool.and_eq_true_iff.mp due).2
      split
      · exact answerProbe_inv inv child
      · exact failProbe_inv inv held due
    · exact inv
  · exact inv

/-- Readiness as the loop computes it is what the history says. -/
theorem Inv.ready_iff : isReady answers host = true ↔
    ∃ child, alive answers host = some child ∧ holding host.trace = some child ∧
      statusProcessId answers.status = child.id ∧ heard host.trace = some true := by
  unfold isReady published
  constructor
  · intro ready
    simp only [Bool.and_eq_true, decide_eq_true_eq, Option.any_eq_true] at ready
    obtain ⟨⟨⟨child, live, named⟩, answered⟩, none⟩ := ready
    exact ⟨child, live, inv.liveness.holds.trans (alive_some live), eq_of_beq named,
      (inv.liveness.answers none).mpr answered⟩
  · rintro ⟨child, live, -, named, heardTrue⟩
    have none : host.loop.failures = 0 := by
      by_contra some
      have unheard := inv.liveness.unheard (Nat.pos_of_ne_zero some)
      rw [heardTrue] at unheard
      cases unheard
    simp [live, named, none, (inv.liveness.answers none).mp heardTrue]

/-- What a pass found stands at the end of its history. -/
structure Judged (answers : Answers) (ready : Bool) (host : Host) : Prop where
  inv : Inv host
  found : ∃ live, (finds host.trace).head? = some ⟨host.now, live, answers.status, ready⟩ ∧
    (ready = true → ∃ child, live = some child ∧ holding host.trace = some child ∧
      statusProcessId answers.status = child.id)
  since : ready = false → host.loop.unreadySince = 0 → host.now = 0

theorem judge_ready (ready : isReady answers host = true) :
    Judged answers true (judge answers host) := by
  have justified := inv.ready_iff.mp ready
  obtain ⟨child, live, held, named, -⟩ := justified
  have same : judge answers host =
      { (host.emit (.found (some child) answers.status true)).emit (.republished child) with
        loop := { host.loop with unreadySince := 0 } } := by
    unfold judge
    simp only [ready, live, if_true, Option.elim]
  have noted : Timing { host.emit (.found (some child) answers.status true) with
      loop := { host.loop with unreadySince := 0 } } :=
    { inv.timing with
      starts := inv.timing.starts_cons rfl
      helperEnds := inv.timing.helperEnds_cons (by rintro ⟨⟩)
      waiting := fun positive => absurd positive (Nat.lt_irrefl 0)
      unready := Nat.zero_le _ }
  have isReadyNow : isReady answers host = true ↔ _ := inv.ready_iff
  rw [ready, live] at isReadyNow
  rw [same]
  refine ⟨⟨⟨trivial, isReadyNow, inv.verified⟩,
    ((inv.liveness.emit rfl).emit rfl).congr rfl rfl rfl rfl rfl rfl
    (Nat.le_refl _), (noted.emit rfl).congr rfl rfl rfl rfl rfl (Nat.le_refl _) inv.timing.bound⟩,
    ⟨some child, rfl, fun _ => ⟨child, rfl, held, named⟩⟩, fun contra => by cases contra⟩

theorem judge_unready (unready : isReady answers host = false) :
    Judged answers false (judge answers host) := by
  have isReadyNow : isReady answers host = true ↔ _ := inv.ready_iff
  have same : judge answers host =
      { host.emit (.found (alive answers host) answers.status false) with
        loop := { host.loop with
          unreadySince := if host.loop.unreadySince = 0 then host.now else host.loop.unreadySince } } := by
    unfold judge
    simp only [unready, Bool.false_eq_true, if_false]
  rw [unready] at isReadyNow
  rw [same]
  refine ⟨⟨⟨isReadyNow, inv.verified⟩,
    (inv.liveness.emit rfl).congr rfl rfl rfl rfl rfl rfl (Nat.le_refl _), ?_⟩,
    ⟨_, rfl, fun contra => by cases contra⟩, fun _ zero => ?_⟩
  · exact
      { inv.timing with
        starts := inv.timing.starts_cons rfl
        helperEnds := inv.timing.helperEnds_cons (by rintro ⟨⟩)
        waiting := fun _ => by
          by_cases fresh : host.loop.unreadySince = 0
          · exact ⟨1, _, .first rfl, (if_pos fresh).symm⟩
          · obtain ⟨count, first, streak, time⟩ := inv.timing.waiting (Nat.pos_of_ne_zero fresh)
            exact ⟨count + 1, first, streak.next rfl, time.trans (if_neg fresh).symm⟩
        unready := by
          split
          · exact Nat.le_refl _
          · exact inv.timing.unready }
  · split at zero
    · exact zero
    · contradiction

theorem judge_inv : Judged answers (isReady answers host) (judge answers host) := by
  cases ready : isReady answers host with
  | true => exact judge_ready inv ready
  | false => exact judge_unready inv ready

omit inv in
/-- The helper's evidence: what the pass found, or how long it has found nothing. -/
theorem Judged.justified {ready : Bool} (judged : Judged answers ready host) {action : Action}
    (isWanted : wanted answers ready host = some action) (free : HelperFree host.now host.trace)
    (running : Bool) :
    Justified ⟨host.now, .helper action running⟩ host.trace := by
  unfold wanted at isWanted
  split at isWanted
  · rename_i resumes
    cases isWanted
    obtain ⟨live, head, held⟩ := judged.found
    obtain ⟨isReady, -⟩ := Bool.and_eq_true_iff.mp resumes
    obtain ⟨child, rfl, held, named⟩ := held isReady
    exact ⟨free, _, child, head, rfl, isReady, rfl, held, named⟩
  · split at isWanted
    · rename_i suspends
      cases isWanted
      obtain ⟨suspends, -⟩ := Bool.and_eq_true_iff.mp suspends
      obtain ⟨unready, long⟩ := Bool.and_eq_true_iff.mp suspends
      have long := of_decide_eq_true long
      rw [minus_eq judged.inv.timing.unready judged.inv.timing.bound] at long
      have since := judged.since (by simpa using unready)
      have positive : 0 < host.loop.unreadySince := by
        unfold kSuspendAfterMilliseconds at long
        omega
      obtain ⟨count, first, streak, time⟩ := judged.inv.timing.waiting positive
      refine ⟨free, count, first, streak, ?_⟩
      show _ ≤ host.now
      unfold kSuspendAfterMilliseconds at long ⊢
      omega
    · cases isWanted

omit inv in
theorem reconcile_inv {ready : Bool} (judged : Judged answers ready host) :
    Inv (reconcile answers ready host) := by
  have inv := judged.inv
  unfold reconcile
  split
  · rename_i action isWanted
    split
    · rename_i idle
      obtain ⟨none, spaced⟩ := Bool.and_eq_true_iff.mp idle
      have spaced := of_decide_eq_true spaced
      rw [minus_eq inv.timing.ended inv.timing.bound] at spaced
      have free : HelperFree host.now host.trace := by
        refine ⟨?_, fun other member isEnd => ?_⟩
        · rw [inv.timing.helper, Option.isNone_iff_eq_none.mp none]
          rfl
        · have before := inv.timing.helperEnds other member isEnd
          unfold kHelperRetryMilliseconds at spaced ⊢
          omega
      refine ⟨⟨judged.justified isWanted free _, inv.verified⟩,
        (inv.liveness.emit rfl).congr rfl rfl rfl rfl rfl rfl (Nat.le_refl _), ?_⟩
      have later : host.loop.helperEnded ≤
          if answers.startNrptHelper.isSome then host.loop.helperEnded else host.now := by
        split
        · exact Nat.le_refl _
        · exact inv.timing.ended
      exact
        { inv.timing with
          starts := inv.timing.starts_cons rfl
          helper := rfl
          helperEnds := fun stamped member isEnd =>
            Nat.le_trans (inv.timing.helperEnds_cons (by rintro ⟨⟩) stamped member isEnd) later
          ended := by
            split
            · exact inv.timing.ended
            · exact Nat.le_refl _ }
    · exact inv
  · exact inv

end Blocks

/-! ## Runs -/

theorem limitHelper_child (answers : Answers) (host : Host) :
    (limitHelper answers host).loop.child = host.loop.child := by
  unfold limitHelper
  split <;> rfl

theorem reapHelper_child (answers : Answers) (host : Host) :
    (reapHelper answers host).loop.child = host.loop.child := by
  unfold reapHelper
  split <;> rfl

/-- One pass keeps what the variables stand for. -/
theorem pass_inv {host host' : Host} {label : Nat × Answers} (inv : Inv host) (stays : Stays host label)
    (step : Step host label host') : Inv host' := by
  obtain ⟨forward, bound, rfl⟩ := step
  have reaped : Inv (reapHelper label.2 (limitHelper label.2 { host with now := label.1 })) :=
    reapHelper_inv (limitHelper_inv (inv.tick forward bound))
  unfold pass
  split
  · rename_i supervised
    refine reconcile_inv (judge_inv (probe_inv (acquire_inv reaped fun again => stays supervised ?_)))
    unfold rechecks at again ⊢
    rwa [reapHelper_child, limitHelper_child] at again
  · exact standDown_inv reaped

/-- **The supervisor acts only on sustained evidence.**  In every run with a tick count that does not
go back, in which the supervised file does not disappear between the two tests of one pass, whatever
else the system answers: every termination, start, helper and readiness is justified by what the
loop did and found before. -/
theorem supervisor_sustained {labels : List (Nat × Answers)} {host : Host}
    (run : Run (· = Host.initial) (fun host label host' => Stays host label ∧
      Step host label host') labels host) :
    Verified Justified host.trace := by
  refine (Run.invariant_of_ok Stays (fun _ host => Inv host) ?_ ?_ run).verified
  · rintro _ rfl
    exact inv_initial
  · intro labels label host host' inv stays step
    exact pass_inv inv stays step

/-! ## Poles -/

/-- A system in which nothing runs and nothing is found but the supervised file. -/
def nothing : Answers where
  helperRuns := false
  helperStillRuns := false
  supervised := true
  childRuns := false
  childRunsLocked := false
  lock := false
  supervisedLocked := true
  pidFile := []
  opened := none
  openedRuns := false
  imageMatches := false
  startDispatcher := none
  childRunsNow := false
  status := []
  dispatcherAnswers := false
  suspended := false
  ownedRulePresent := true
  startNrptHelper := some 1

/-- A dispatcher with process identifier 7 that is found, publishes itself and does not answer. -/
def hung : Answers :=
  { nothing with
    lock := true
    childRuns := true
    pidFile := [55]
    opened := some 1
    openedRuns := true
    imageMatches := true
    childRunsNow := true
    status := [112, 105, 100, 61, 55] }

def seven : Process := ⟨1, 7, by decide⟩

/-- The host once a hung dispatcher was probed three times in ten seconds. -/
def hungHost : Host :=
  pass hung 11000 (pass hung 6000 (pass hung 1000 Host.initial))

theorem supervisor_sustained_hung :
    (⟨11000, .terminated seven⟩ : Stamped) ∈ hungHost.trace ∧ Verified Justified hungHost.trace := by
  have first : Run (· = Host.initial) (fun host label host' => Stays host label ∧ Step host label host')
      [(1000, hung)] (pass hung 1000 Host.initial) :=
    .next (.start rfl) ⟨fun _ _ => rfl, by decide, by decide, rfl⟩
  have second : Run (· = Host.initial) (fun host label host' => Stays host label ∧ Step host label host')
      [(6000, hung), (1000, hung)] (pass hung 6000 (pass hung 1000 Host.initial)) :=
    .next first ⟨fun _ _ => rfl, by decide +kernel, by decide, rfl⟩
  have third : Run (· = Host.initial) (fun host label host' => Stays host label ∧ Step host label host')
      [(11000, hung), (6000, hung), (1000, hung)] hungHost :=
    .next second ⟨fun _ _ => rfl, by decide +kernel, by decide, rfl⟩
  exact ⟨by decide +kernel, supervisor_sustained third⟩

/-- The supervised file disappears between the two tests of the pass. -/
def vanishing : Answers :=
  { nothing with lock := true, supervisedLocked := false }

def flicker : Host :=
  pass nothing 16000 (pass vanishing 10000 (pass nothing 1 Host.initial))

/-- **The rule is suspended** at tick 16000 although the file was found absent at tick 10000: the
time since tick 1 counts. -/
theorem flicker_suspends :
    Run (· = Host.initial) Step [(16000, nothing), (10000, vanishing), (1, nothing)] flicker ∧
    flicker.trace = [⟨16000, .helper .suspend true⟩, ⟨16000, .found none [] false⟩,
      ⟨10000, .found none [] false⟩, ⟨10000, .absent⟩, ⟨1, .found none [] false⟩] ∧
    ¬ Verified Justified flicker.trace := by
  have trace : flicker.trace = [⟨16000, .helper .suspend true⟩, ⟨16000, .found none [] false⟩,
      ⟨10000, .found none [] false⟩, ⟨10000, .absent⟩, ⟨1, .found none [] false⟩] := by decide +kernel
  have first : Run (· = Host.initial) Step [(1, nothing)] (pass nothing 1 Host.initial) :=
    .next (.start rfl) ⟨by decide, by decide, rfl⟩
  have second : Run (· = Host.initial) Step [(10000, vanishing), (1, nothing)]
      (pass vanishing 10000 (pass nothing 1 Host.initial)) :=
    .next first ⟨by decide +kernel, by decide, rfl⟩
  refine ⟨.next second ⟨by decide +kernel, by decide, rfl⟩, trace, fun verified => ?_⟩
  rw [trace] at verified
  obtain ⟨⟨-, count, first, streak, long⟩, -⟩ := verified
  have late : 10000 ≤ first.tick := by
    have member := streak.mem
    simp only [finds, List.mem_cons, List.not_mem_nil, or_false] at member
    rcases member with rfl | rfl <;> decide
  have long : first.tick + 15000 ≤ 16000 := long
  omega

end ProgramSplit.Windows.Supervisor
