/-
# Windows.RecoveryEvidence — an adapter is reset only after sustained failure

The sampler compresses an adapter's history into a few tables: how many paused samples there were and
since when, with which byte counters, and since when a Wi-Fi adapter has failed.  `Kept` says what
the tables stand for, and `Refreshed` what the ledger says about reconnects.

* `Evidenced` — what a request for a reset has to rest on.
* `resets_evidenced` — **every reset is requested on a streak of samples five minutes long, and that
  of a Wi-Fi adapter after a reconnect, in every run in which the adapter stays enrolled as it is and
  enrolment and ledger can be read.**
* `unreadable_ledger_ignored` — five samples that read nothing do not interrupt the streak.
-/
import ProgramSplit.Windows.RecoveryLedger

namespace ProgramSplit.Windows.Recovery

set_option autoImplicit false

open Lib

/-! ## The history of an adapter -/

/-- A sample of an adapter; `none` if it found nothing out about it. -/
structure Sample where
  tick : Nat
  look : Option Look
  deriving DecidableEq, Repr

def samples (guid : Guid) : List Event → List Sample
  | [] => []
  | event :: earlier =>
    match event with
    | .sample tick covers => if guid ∈ covers then samples guid earlier
        else ⟨tick, none⟩ :: samples guid earlier
    | .looked tick other look => if other = guid then ⟨tick, look⟩ :: samples guid earlier
        else samples guid earlier
    | _ => samples guid earlier

/-- Samples that follow each other within 45 seconds. -/
def Close (later earlier : Sample) : Prop :=
  later.tick ≤ earlier.tick + 45000

/-- The adapter is paused, with these byte counters. -/
def Stalled (sent received : Nat) (sample : Sample) : Prop :=
  ∃ look, sample.look = some look ∧ look.snapshot.validPause = true ∧ look.snapshot.sentBytes = sent ∧
    look.snapshot.receivedBytes = received

/-- The adapter is disconnected with its radio on, and the enrolled profile was last requested in
vain in the two minutes before. -/
def Failed (runtime : Runtime Ledger) (entry : Entry) (sample : Sample) : Prop :=
  ∃ look, sample.look = some look ∧ look.wifiFault runtime entry = true

/-- **What a request for a reset has to rest on.** -/
def Evidenced (runtime : Runtime Ledger) (entry : Entry) (event : Event) (earlier : List Event) : Prop :=
  match event with
  | .request tick .resetPaused guid _ => guid = entry.guid →
      ∃ sent received count first, Streak (Stalled sent received) Close (samples guid earlier) count first ∧
        first.tick + 300000 ≤ tick
  | .request tick .resetWifi guid utc => guid = entry.guid →
      (∃ count first, Streak (Failed runtime entry) Close (samples guid earlier) count first ∧
        first.tick + 300000 ≤ tick) ∧
      ∃ look intent issued record, (samples guid earlier).head? = some ⟨tick, some look⟩ ∧
      look.intent = some intent ∧
        Event.effect issued (.connect .reconnectWifi guid entry.wifiProfile record true) ∈ earlier ∧
        record < intent.recordId ∧ issued ≤ utc ∧ utc < issued + 600 * second
  | _ => True

/-- The adapter stays enrolled as it is, or recovery is off: a sample that is due reads the enrolment
and the ledger, and no run of the executor finds another enrolment of the adapter. -/
def Steady (entry : Entry) (world : World) : Label → Prop
  | .sample tick answers => (Script.due world.script tick).isSome = true →
      match answers.enrolment with
      | .raised => False
      | .off => True
      | .on policy => entry ∈ policy.adapters ∧ answers.ledgerFails = false ∧
          (getRecoveryBudget world.file).isSome = true
  | .recover arguments answers _ => arguments.guid = entry.guid →
      ∀ found ∈ answers.enrolment.entry arguments.guid, found.2 = entry
  | .restart => True

/-! ## What the tables stand for -/

variable (runtime : Runtime Ledger) (entry : Entry)

/-- The time since when a Wi-Fi adapter has failed stands for a streak of samples. -/
def Failing (near : Sample → Prop) (table : Option Nat) (trace : List Event) : Prop :=
  ∀ since, table = some since → entry.type = 71 ∧ ∃ count first,
    Streak (Failed runtime entry) Close (samples entry.guid trace) count first ∧ first.tick = since ∧
    ∃ latest, (samples entry.guid trace).head? = some latest ∧ near latest

/-- The evidence about the adapter in the script's tables; `near` relates the last sample to the
time. -/
structure Kept (near : Sample → Prop) (script : Script) (trace : List Event) : Prop where
  paused : 0 < script.pauseSamples entry.guid → ∃ sent received count first,
    script.firstSent entry.guid = some sent ∧ script.firstReceived entry.guid = some received ∧
    Streak (Stalled sent received) Close (samples entry.guid trace) count first ∧
    script.faultSince entry.guid = some first.tick ∧ ∃ latest, (samples entry.guid trace).head? =
      some latest ∧ near latest
  failing : Failing runtime entry near (script.wirelessFaultSince entry.guid) trace

variable {runtime entry}

variable {near : Sample → Prop}

/-- Tables without the adapter know nothing of it. -/
theorem Kept.of_empty {script : Script} {trace : List Event}
    (none : script.pauseSamples entry.guid = 0) (never : script.wirelessFaultSince entry.guid = .none) :
    Kept runtime entry near script trace where
  paused positive := by
    rw [none] at positive
    exact absurd positive (Nat.lt_irrefl 0)
  failing since known := by
    rw [never] at known
    cases known

theorem Kept.congr {near near' : Sample → Prop} {script script' : Script} {trace trace' : List Event}
    (kept : Kept runtime entry near script trace)
    (pauseSamples : script'.pauseSamples entry.guid = script.pauseSamples entry.guid)
    (firstSent : script'.firstSent entry.guid = script.firstSent entry.guid)
    (firstReceived : script'.firstReceived entry.guid = script.firstReceived entry.guid)
    (faultSince : script'.faultSince entry.guid = script.faultSince entry.guid)
    (wireless : script'.wirelessFaultSince entry.guid = script.wirelessFaultSince entry.guid)
    (same : samples entry.guid trace' = samples entry.guid trace)
    (weaken : ∀ sample, near sample → near' sample) :
    Kept runtime entry near' script' trace' where
  paused positive := by
    rw [pauseSamples] at positive
    obtain ⟨sent, received, count, first, isSent, isReceived, streak, since, latest, head,
      isNear⟩ := kept.paused positive
    rw [firstSent, firstReceived, faultSince, same]
    exact ⟨sent, received, count, first, isSent, isReceived, streak, since, latest, head,
      weaken latest isNear⟩
  failing since known := by
    rw [wireless] at known
    obtain ⟨isWifi, count, first, streak, time, latest, head, isNear⟩ := kept.failing since known
    rw [same]
    exact ⟨isWifi, count, first, streak, time, latest, head, weaken latest isNear⟩

/-- One more sample continues a streak that is close enough. -/
theorem streak_next {P : Sample → Prop} {history : List Sample} {count : Nat}
    {first latest : Sample} {sample : Sample}
    (streak : Streak P Close history count first) (head : history.head? = some latest)
    (close : Close sample latest)
    (holds : P sample) : Streak P Close (sample :: history) (count + 1) first := by
  cases history with
  | nil => cases head
  | cons other earlier =>
    obtain rfl := Option.some.inj head
    exact .more holds close streak

section Look

variable {tick : Nat} {script : Script} {trace : List Event} {look : Look}

/-- The evidence about pauses after a look at the adapter. -/
theorem countPause_kept (kept : Kept runtime entry (fun latest => tick ≤ latest.tick + 45000) script trace)
    (positive : 0 < (script.countPause entry.guid look.snapshot tick).pauseSamples entry.guid) :
    ∃ count first, look.snapshot.validPause = true ∧
      (script.countPause entry.guid look.snapshot tick).firstSent entry.guid = some look.snapshot.sentBytes ∧
      (script.countPause entry.guid look.snapshot tick).firstReceived entry.guid =
        some look.snapshot.receivedBytes ∧
      Streak (Stalled look.snapshot.sentBytes look.snapshot.receivedBytes) Close
        (⟨tick, some look⟩ :: samples entry.guid trace) count first ∧
      (script.countPause entry.guid look.snapshot tick).faultSince entry.guid = some first.tick := by
  have stalled : ∀ valid : look.snapshot.validPause = true,
      Stalled look.snapshot.sentBytes look.snapshot.receivedBytes ⟨tick, some look⟩ :=
    fun valid => ⟨look, rfl, valid, rfl, rfl⟩
  unfold Script.countPause at positive ⊢
  by_cases goesOn : script.pauseGoesOn entry.guid look.snapshot = true
  · rw [if_pos goesOn]
    simp only [Script.pauseGoesOn, Bool.and_eq_true, decide_eq_true_eq] at goesOn
    obtain ⟨⟨⟨valid, before⟩, isSent⟩, isReceived⟩ := goesOn
    obtain ⟨sent, received, count, first, wasSent, wasReceived, streak, since, latest, head, near⟩ :=
      kept.paused (Nat.pos_of_ne_zero before)
    obtain rfl := Option.some.inj (isSent.symm.trans wasSent)
    obtain rfl := Option.some.inj (isReceived.symm.trans wasReceived)
    exact ⟨count + 1, first, valid, isSent, isReceived, streak_next streak head near (stalled valid), since⟩
  · rw [if_neg goesOn] at positive ⊢
    cases valid : look.snapshot.validPause with
    | false =>
      rw [valid] at positive
      simp [put] at positive
    | true =>
      exact ⟨1, ⟨tick, some look⟩, rfl, by simp [put], by simp [put], .first (stalled valid), by simp [put]⟩

theorem countPause_wireless (guid : Guid) (snapshot : Snapshot) (script : Script) (tick : Nat) :
    (script.countPause guid snapshot tick).wirelessFaultSince = script.wirelessFaultSince := by
  unfold Script.countPause
  split <;> rfl

theorem countWifi_tables (script : Script) (runtime : Runtime Ledger) (entry : Entry) (look : Look)
    (tick : Nat) :
    (script.countWifi runtime entry look tick).pauseSamples = script.pauseSamples ∧
      (script.countWifi runtime entry look tick).firstSent = script.firstSent ∧
      (script.countWifi runtime entry look tick).firstReceived = script.firstReceived ∧
      (script.countWifi runtime entry look tick).faultSince = script.faultSince := by
  unfold Script.countWifi
  split
  · split
    · split <;> exact ⟨rfl, rfl, rfl, rfl⟩
    · exact ⟨rfl, rfl, rfl, rfl⟩
  · exact ⟨rfl, rfl, rfl, rfl⟩

/-- The evidence about failed connections after a look at the adapter. -/
theorem countWifi_kept (failing : Failing runtime entry (fun latest => tick ≤ latest.tick + 45000)
      (script.wirelessFaultSince entry.guid) trace) {since : Nat}
    (known : (script.countWifi runtime entry look tick).wirelessFaultSince entry.guid = some since) :
    entry.type = 71 ∧ look.wifiFault runtime entry = true ∧ ∃ count first,
      Streak (Failed runtime entry) Close (⟨tick, some look⟩ :: samples entry.guid trace) count first ∧
        first.tick = since := by
  unfold Script.countWifi at known
  split at known
  · rename_i isWifi
    split at known
    · rename_i fault
      have failed : Failed runtime entry ⟨tick, some look⟩ := ⟨look, rfl, fault⟩
      refine ⟨isWifi, fault, ?_⟩
      split at known
      · have isTick : tick = since := by simpa [put] using known
        exact ⟨1, ⟨tick, some look⟩, .first failed, isTick⟩
      · obtain ⟨-, count, first, streak, time, latest, head, near⟩ := failing since known
        exact ⟨count + 1, first, streak_next streak head near failed, time⟩
    · simp [put] at known
  · rename_i notWifi
    exact absurd (failing since known).1 notWifi

end Look

/-! ## What an action needs -/

variable {budget : Option Budget} {allow : Bool}

/-- A fault between one and two minutes old is one of the last two minutes. -/
theorem wifiFault_look {radio : Wireless} {request : Intent} {look : Look}
    (isWireless : look.wireless = some radio)
    (isIntent : look.intent = some request) (fault : wifiFault runtime entry radio request look.utc = true) :
    look.wifiFault runtime entry = true := by
  unfold wifiFault at fault
  unfold Look.wifiFault
  rw [isWireless, isIntent]
  simp only [Bool.and_eq_true, decide_eq_true_eq] at fault ⊢
  refine ⟨⟨fault.1.1, ?_⟩, fault.2⟩
  omega

/-! ## One adapter of a sample -/

/-- The ledger's reconnects were issued. -/
def Issued (entry : Entry) (ledger : Ledger) (trace : List Event) : Prop :=
  ∀ budget, Ledger.find ledger entry.guid = some budget → 0 < budget.refreshRecord →
    Event.effect budget.sequenceUtc
      (.connect .reconnectWifi entry.guid entry.wifiProfile budget.refreshRecord true) ∈ trace

theorem samples_looked_self (tick : Nat) (guid : Guid) (look : Option Look) (trace : List Event) :
    samples guid (.looked tick guid look :: trace) = ⟨tick, look⟩ :: samples guid trace :=
  if_pos rfl

theorem samples_looked_other {guid other : Guid} (differ : other ≠ guid) (tick : Nat) (look : Option Look)
    (trace : List Event) : samples guid (.looked tick other look :: trace) = samples guid trace :=
  if_neg differ

/-- The tables after the adapter was looked at in the sample at `tick`. -/
abbrev UpToDate (runtime : Runtime Ledger) (entry : Entry) (tick : Nat) : Script → List Event → Prop :=
  Kept runtime entry fun latest => latest.tick = tick

/-- The tables when the sample at `tick` begins. -/
abbrev Due (runtime : Runtime Ledger) (entry : Entry) (tick : Nat) : Script → List Event → Prop :=
  Kept runtime entry fun latest => tick ≤ latest.tick + 45000

section Adapter

variable {tick : Nat} {script : Script} {trace : List Event} {look : Look}

/-- The script's tables once a look is counted. -/
def afterLook (runtime : Runtime Ledger) (entry : Entry) (tick : Nat) (script : Script)
    (look : Look) : Script :=
  (script.countPause entry.guid look.snapshot tick).countWifi runtime entry look tick

theorem counted_kept (kept : Due runtime entry tick script trace) :
    UpToDate runtime entry tick (afterLook runtime entry tick script look)
      (.looked tick entry.guid (some look) :: trace) := by
  obtain ⟨pauseSamples, firstSent, firstReceived, faultSince⟩ :=
    countWifi_tables (script.countPause entry.guid look.snapshot tick) runtime entry look tick
  constructor
  · intro positive
    unfold afterLook at positive ⊢
    rw [pauseSamples] at positive
    obtain ⟨count, first, -, isSent, isReceived, streak, since⟩ := countPause_kept kept positive
    rw [firstSent, firstReceived, faultSince, samples_looked_self]
    exact ⟨_, _, count, first, isSent, isReceived, streak, since, _, rfl, rfl⟩
  · intro since known
    have failing := kept.failing
    rw [← countPause_wireless entry.guid look.snapshot script tick] at failing
    obtain ⟨isWifi, -, count, first, streak, time⟩ := countWifi_kept failing known
    rw [samples_looked_self]
    exact ⟨isWifi, count, first, streak, time, _, rfl, rfl⟩

/-- **A request rests on its evidence.** -/
theorem request_evidenced (kept : Due runtime entry tick script trace) {ledger : Ledger}
    (issued : Issued entry ledger trace) {evidence : Evidence} {uptime : Nat} {action : Action}
    (isEvidence : evidence = (afterLook runtime entry tick script look).evidence runtime entry look tick)
    (authorized : getRecoveryAction runtime entry look.snapshot look.wireless look.intent
      (Ledger.find ledger entry.guid) evidence look.utc uptime allow = some action) :
    Evidenced runtime entry (.request tick action entry.guid look.utc)
      (.looked tick entry.guid (some look) :: trace) := by
  have fresh : UpToDate runtime entry tick (afterLook runtime entry tick script look) _ := counted_kept kept
  cases action with
  | reconnectWifi => trivial
  | resetPaused =>
    intro _
    obtain ⟨-, ⟨-, isWired, valid, enough, long⟩ | ⟨-, _, _, -, -, -, wifi⟩⟩ :=
      getRecoveryAction_some runtime authorized
    case inr => obtain ⟨other, -⟩ | ⟨other, -⟩ := wifiAction_some wifi <;> cases other
    rw [isEvidence] at enough long
    obtain ⟨sent, received, count, first, -, -, streak, since, -⟩ :=
      fresh.paused (Nat.lt_of_lt_of_le (by decide) enough)
    refine ⟨sent, received, count, first, streak, ?_⟩
    unfold Script.evidence at long
    dsimp only at long
    rw [if_neg (fun both => absurd (isWired.symm.trans both.1) (by decide)), if_pos valid, since,
      Option.getD_some] at long
    omega
  | resetWifi =>
    intro _
    obtain ⟨-, ⟨other, -⟩ | ⟨isWifi, radio, request, isRadio, isRequest, fault, wifi⟩⟩ :=
      getRecoveryAction_some runtime authorized
    case inl => cases other
    obtain ⟨other, -⟩ | ⟨-, long, known, isKnown, retried⟩ := wifiAction_some wifi
    case inl => cases other
    have faulty := wifiFault_look isRadio isRequest fault
    rw [isEvidence] at long
    unfold Script.evidence at long
    dsimp only at long
    rw [if_pos ⟨isWifi, faulty⟩] at long
    obtain ⟨since, isSince⟩ : ∃ since,
        (afterLook runtime entry tick script look).wirelessFaultSince entry.guid = some since := by
      unfold afterLook Script.countWifi
      rw [if_pos isWifi, if_pos faulty]
      split
      · exact ⟨tick, by simp [put]⟩
      · rename_i known
        exact Option.isSome_iff_exists.mp (by simpa [Option.isSome_iff_ne_none] using known)
    obtain ⟨-, count, first, streak, time, -⟩ := fresh.failing since isSince
    rw [isSince, Option.getD_some] at long
    refine ⟨⟨count, first, streak, by omega⟩, look, request, known.sequenceUtc, known.refreshRecord,
      ?_, isRequest, ?_, retried.newer, retried.after, retried.recent⟩
    · rw [samples_looked_self]
      rfl
    · exact List.mem_cons_of_mem _ (issued known isKnown retried.refreshed)

/-- An error about the adapter, or a request, leaves no pause behind. -/
theorem forget_kept : Kept runtime entry near (script.forget entry.guid) trace :=
  .of_empty (by simp [Script.forget, put]) (by simp [Script.forget, put])

/-- What holds after the adapter's part of a sample. -/
structure Watched (near : Sample → Prop) (runtime : Runtime Ledger) (entry : Entry) (script : Script)
    (trace : List Event) : Prop where
  kept : Kept runtime entry near script trace
  evidenced : Verified (Evidenced runtime entry) trace

theorem sampleAdapter_own {policy : Policy} {ledger : Ledger} {answers : Guid → AdapterAnswers}
    (watched : Watched (fun latest => tick ≤ latest.tick + 45000) runtime entry script trace)
    (issued : Issued entry ledger trace) :
    Watched (fun latest => latest.tick = tick) runtime entry
      (sampleAdapter runtime tick policy ledger answers (script, trace) entry).1
      (sampleAdapter runtime tick policy ledger answers (script, trace) entry).2 := by
  unfold sampleAdapter
  dsimp only
  split
  · exact ⟨forget_kept, trivial, watched.evidenced⟩
  · rename_i look isLook
    have fresh : UpToDate runtime entry tick (afterLook runtime entry tick script look) _ :=
      counted_kept watched.kept
    have looked : Verified (Evidenced runtime entry) (.looked tick entry.guid (some look) :: trace) :=
      ⟨trivial, watched.evidenced⟩
    split
    · exact ⟨fresh, looked⟩
    · rename_i action isAction
      have request := request_evidenced watched.kept issued rfl isAction
      split
      · -- after a request the pause is forgotten, and after an error everything
        split
        · refine ⟨⟨fun positive => ?_, fresh.failing⟩, request, looked⟩
          simp [put] at positive
        · exact ⟨forget_kept, request, looked⟩
      · exact ⟨fresh, looked⟩

theorem afterLook_other (runtime : Runtime Ledger) (tick : Nat) {other : Entry}
    (differ : other.guid ≠ entry.guid) (script : Script) (look : Look) :
    (afterLook runtime other tick script look).pauseSamples entry.guid = script.pauseSamples entry.guid ∧
      (afterLook runtime other tick script look).firstSent entry.guid = script.firstSent entry.guid ∧
      (afterLook runtime other tick script look).firstReceived entry.guid = script.firstReceived entry.guid ∧
      (afterLook runtime other tick script look).faultSince entry.guid = script.faultSince entry.guid ∧
      (afterLook runtime other tick script look).wirelessFaultSince entry.guid =
        script.wirelessFaultSince entry.guid := by
  have apart := Ne.symm differ
  unfold afterLook Script.countWifi Script.countPause
  repeat' split
  all_goals simp [put, apart]

/-- Another adapter's part of a sample leaves this one's evidence alone. -/
theorem sampleAdapter_other {policy : Policy} {ledger : Ledger}
    {answers : Guid → AdapterAnswers} {other : Entry} (differ : other.guid ≠ entry.guid)
    (watched : Watched near runtime entry script trace) :
    Watched near runtime entry (sampleAdapter runtime tick policy ledger answers (script, trace) other).1
      (sampleAdapter runtime tick policy ledger answers (script, trace) other).2 := by
  have apart := Ne.symm differ
  have unrelated : ∀ {action : Action} {utc : Nat} {earlier : List Event},
      Evidenced runtime entry (.request tick action other.guid utc) earlier := by
    intro action utc earlier
    cases action with
    | resetPaused => exact fun same => absurd same differ
    | reconnectWifi => trivial
    | resetWifi => exact fun same => absurd same differ
  unfold sampleAdapter
  dsimp only
  split
  · refine ⟨watched.kept.congr ?_ rfl rfl ?_ ?_ (samples_looked_other differ _ _ _)
      (fun _ isNear => isNear), trivial, watched.evidenced⟩ <;> simp [Script.forget, put, apart]
  · rename_i look isLook
    obtain ⟨pauseSamples, firstSent, firstReceived, faultSince, wireless⟩ :=
      afterLook_other runtime tick differ script look
    have looked : Verified (Evidenced runtime entry) (.looked tick other.guid (some look) :: trace) :=
      ⟨trivial, watched.evidenced⟩
    have kept : Kept runtime entry near (afterLook runtime other tick script look)
        (.looked tick other.guid (some look) :: trace) :=
      watched.kept.congr pauseSamples firstSent firstReceived faultSince wireless
        (samples_looked_other differ _ _ _)
        fun _ isNear => isNear
    split
    · exact ⟨kept, looked⟩
    · split
      · split
        · refine ⟨kept.congr ?_ rfl rfl rfl rfl rfl (fun _ isNear => isNear), unrelated, looked⟩
          simp [put, apart, afterLook]
        · refine ⟨kept.congr ?_ rfl rfl ?_ ?_ rfl (fun _ isNear => isNear), unrelated, looked⟩ <;>
            simp [put, apart, Script.forget, afterLook]
      · exact ⟨kept, looked⟩

theorem sampleAdapter_next (runtime : Runtime Ledger) (tick : Nat) (policy : Policy) (ledger : Ledger)
    (answers : Guid → AdapterAnswers) (state : Script × List Event) (entry : Entry) :
    (sampleAdapter runtime tick policy ledger answers state entry).1.next = state.1.next := by
  have looked : ∀ look, (afterLook runtime entry tick state.1 look).next = state.1.next := by
    intro look
    unfold afterLook Script.countWifi Script.countPause
    repeat' split
    all_goals rfl
  unfold sampleAdapter
  dsimp only
  split
  · rfl
  · split
    · exact looked _
    · split
      · split <;> exact looked _
      · exact looked _

end Adapter

/-! ## A whole sample -/

theorem Issued.append {ledger : Ledger} {trace : List Event} (issued : Issued entry ledger trace)
    (events : List Event) : Issued entry ledger (events ++ trace) :=
  fun budget found refreshed => List.mem_append_right _ (issued budget found refreshed)

section Sample

variable {tick : Nat} (policy : Policy) {ledger : Ledger} (answers : Guid → AdapterAnswers)

theorem foldl_other : ∀ {others : List Entry}, (∀ other ∈ others, other.guid ≠ entry.guid) →
    ∀ {state : Script × List Event}, Watched near runtime entry state.1 state.2 →
      Watched near runtime entry (others.foldl (sampleAdapter runtime tick policy ledger answers) state).1
        (others.foldl (sampleAdapter runtime tick policy ledger answers) state).2
  | [], _, _, watched => watched
  | _ :: _, differ, _, watched =>
    foldl_other (fun other member => differ other (List.mem_cons_of_mem _ member))
      (sampleAdapter_other (differ _ List.mem_cons_self) watched)

theorem foldl_next : ∀ (entries : List Entry) (state : Script × List Event),
    (entries.foldl (sampleAdapter runtime tick policy ledger answers) state).1.next = state.1.next
  | [], _ => rfl
  | entry :: entries, state => (foldl_next entries _).trans
      (sampleAdapter_next runtime tick policy ledger answers state entry)

/-- The adapter is looked at exactly once. -/
theorem foldl_sample {adapters : List Entry} (unique : (adapters.map Entry.guid).Nodup)
    (enrolled : entry ∈ adapters)
    {script : Script} {trace : List Event}
    (watched : Watched (fun latest => tick ≤ latest.tick + 45000) runtime entry script trace)
    (issued : Issued entry ledger trace) :
    Watched (fun latest => latest.tick = tick) runtime entry
      (adapters.foldl (sampleAdapter runtime tick policy ledger answers) (script, trace)).1
      (adapters.foldl (sampleAdapter runtime tick policy ledger answers) (script, trace)).2 := by
  obtain ⟨before, after, rfl⟩ := List.append_of_mem enrolled
  rw [List.map_append, List.map_cons, List.nodup_append] at unique
  obtain ⟨-, uniqueAfter, apart⟩ := unique
  have differBefore : ∀ other ∈ before, other.guid ≠ entry.guid := fun other member =>
    apart _ (List.mem_map_of_mem member) _ List.mem_cons_self
  have differAfter : ∀ other ∈ after, other.guid ≠ entry.guid := fun other member same =>
    (List.nodup_cons.mp uniqueAfter).1 (same ▸ List.mem_map_of_mem member)
  obtain ⟨events, isTrace, -⟩ := foldl_sampleAdapter_sampling runtime tick policy ledger answers
    before (script, trace)
  have reached : Watched _ runtime entry
      (before.foldl (sampleAdapter runtime tick policy ledger answers) (script, trace)).1 _ :=
    foldl_other policy answers differBefore watched
  rw [List.foldl_append, List.foldl_cons]
  refine foldl_other policy answers differAfter (sampleAdapter_own reached ?_)
  rw [isTrace]
  exact issued.append events

end Sample

/-- The ledger file says of reconnects only what was issued. -/
def Honest (entry : Entry) (world : World) : Prop :=
  ∀ ledger, getRecoveryBudget world.file = some ledger → Issued entry ledger world.trace

/-- What holds between the steps of a steady run. -/
structure Watching (runtime : Runtime Ledger) (entry : Entry) (world : World) : Prop where
  inv : Inv runtime world
  honest : Honest entry world
  evidenced : Verified (Evidenced runtime entry) world.trace
  kept : ∀ script, world.script = some script →
    Kept runtime entry (fun latest => latest.tick + 30000 = script.next) script world.trace

/-- The tables when a sample is due: a gap has cleared them, or the last sample is close. -/
theorem due_kept {script : Option Script} {due : Script} {tick : Nat} {trace : List Event}
    (kept : ∀ known, script = some known →
      Kept runtime entry (fun latest => latest.tick + 30000 = known.next) known trace)
    (isDue : Script.due script tick = some due) :
    Due runtime entry tick due trace ∧ due.next = tick + 30000 := by
  unfold Script.due at isDue
  dsimp only at isDue
  split at isDue
  · cases isDue
  · cases isDue
    refine ⟨?_, rfl⟩
    split
    · exact .of_empty rfl rfl
    · rename_i close
      cases script with
      | none => exact .of_empty rfl rfl
      | some known =>
        refine (kept known rfl).congr rfl rfl rfl rfl rfl rfl fun latest near => ?_
        simp only [Option.getD_some] at close
        omega

variable {world : World}

theorem sample_watching (watching : Watching runtime entry world) {tick : Nat} {answers : SampleAnswers}
    (steady : Steady entry world (.sample tick answers)) :
    Watching runtime entry (testPhysicalRecovery runtime tick answers world) := by
  obtain ⟨file, events, isTrace, sampling⟩ := testPhysicalRecovery_sampling runtime tick answers world
  have inv := watching.inv.sampling file isTrace sampling
  have honest : ∀ ledger, getRecoveryBudget (testPhysicalRecovery runtime tick answers world).file =
    some ledger →
      Issued entry ledger (testPhysicalRecovery runtime tick answers world).trace := by
    intro ledger isRead
    rw [file] at isRead
    rw [isTrace]
    exact (watching.honest ledger isRead).append events
  suffices rest : Verified (Evidenced runtime entry) (testPhysicalRecovery runtime tick answers world).trace ∧
      ∀ script, (testPhysicalRecovery runtime tick answers world).script = some script →
        Kept runtime entry (fun latest => latest.tick + 30000 = script.next) script
          (testPhysicalRecovery runtime tick answers world).trace from
    ⟨inv, honest, rest.1, rest.2⟩
  unfold testPhysicalRecovery
  split
  · refine ⟨watching.evidenced, fun script isScript => ?_⟩
    cases known : world.script with
    | none =>
      rw [known] at isScript
      obtain rfl := Option.some.inj isScript
      exact .of_empty rfl rfl
    | some before =>
      rw [known] at isScript
      obtain rfl := Option.some.inj isScript
      exact watching.kept before known
  · rename_i due isDue
    obtain ⟨kept, next⟩ := due_kept watching.kept isDue
    have steady := steady (by rw [isDue]; rfl)
    split
    · rename_i raised
      rw [raised] at steady
      exact steady.elim
    · refine ⟨⟨trivial, watching.evidenced⟩, fun script isScript => ?_⟩
      obtain rfl := Option.some.inj isScript
      exact .of_empty rfl rfl
    · rename_i policy isOn
      rw [isOn] at steady
      obtain ⟨enrolled, readable, isSome⟩ := steady
      obtain ⟨ledger, isRead⟩ := Option.isSome_iff_exists.mp isSome
      have covered : samples entry.guid (.sample tick (policy.adapters.map Entry.guid) :: world.trace) =
          samples entry.guid world.trace := if_pos (List.mem_map_of_mem enrolled)
      have watched : Watched (fun latest => tick ≤ latest.tick + 45000) runtime entry due
          (.sample tick (policy.adapters.map Entry.guid) :: world.trace) :=
        ⟨kept.congr rfl rfl rfl rfl rfl covered fun _ isNear => isNear, trivial, watching.evidenced⟩
      have after := foldl_sample policy answers.adapters policy.unique enrolled watched
        ((watching.honest ledger isRead).append [_])
      rw [readable]
      simp only [Bool.false_eq_true, if_false, isRead]
      refine ⟨after.evidenced, fun script isScript => ?_⟩
      obtain rfl := Option.some.inj isScript
      refine after.kept.congr rfl rfl rfl rfl rfl rfl fun latest isNow => ?_
      rw [foldl_next, next, isNow]

/-! ## Runs of the executor -/

theorem Throughout.and {P Q : World → Prop} {utc : Nat} :
    ∀ {effects : List Effect} {world : World}, Throughout P runtime utc world effects →
      Throughout Q runtime utc world effects →
      Throughout (fun world => P world ∧ Q world) runtime utc world effects
  | [], _, p, q => ⟨p, q⟩
  | _ :: _, _, p, q => ⟨⟨p.1, q.1⟩, Throughout.and p.2 q.2⟩

theorem honest_of_written (runtime : Runtime Ledger) (ledger : Ledger)
    (written : world.file = runtime.write ledger)
    (valid : Valid ledger) (issued : Issued entry ledger world.trace) : Honest entry world := by
  intro read isRead
  rw [written] at isRead
  obtain rfl := getRecoveryBudget_written runtime valid isRead
  exact issued

/-- Reconnects are put down only once they were issued. -/
theorem honest_follows (honest : Honest entry world) {arguments : Arguments} {utc : Nat}
    {budget : Budget} {ledger : Ledger} (reserved : Reserved arguments utc budget ledger world.trace)
    (issued : Issued entry ledger world.trace) {profile : Profile} {record : Nat} {effects : List Effect}
    (same : arguments.guid = entry.guid → profile = entry.wifiProfile)
    (follows : Follows arguments profile budget ledger record effects) :
    Throughout (Honest entry) runtime utc world (.publish ledger :: effects) := by
  have valid := reserved.books.valid
  have published : Honest entry (world.emit runtime utc (.publish ledger)) :=
    honest_of_written runtime ledger rfl valid (issued.append [_])
  have later : ∀ effect, (∀ other, effect ≠ .publish other) →
      Honest entry ((world.emit runtime utc (.publish ledger)).emit runtime utc effect) := by
    intro effect harmless
    refine honest_of_written runtime ledger ?_ valid (issued.append [_, _])
    cases effect with
    | publish other => exact absurd rfl (harmless other)
    | restart guid budget => rfl
    | connect action guid profile record succeeds => rfl
  refine ⟨honest, ?_⟩
  cases follows with
  | nothing => exact published
  | restart restarts => exact ⟨published, later _ (by rintro _ ⟨⟩)⟩
  | restartConnect restarts succeeds =>
    exact ⟨published, later _ (by rintro _ ⟨⟩),
      honest_of_written runtime ledger rfl valid (issued.append [_, _, _])⟩
  | connect reconnects succeeds => exact ⟨published, later _ (by rintro _ ⟨⟩)⟩
  | refresh reconnects =>
    obtain ⟨own, member⟩ := find_guid reserved.entry
    obtain ⟨named, few⟩ := valid.entries budget member
    refine ⟨published, later _ (by rintro _ ⟨⟩),
      honest_of_written runtime (ledger.put { budget with refreshRecord := record }) rfl
        (valid.put named few) ?_⟩
    intro found isFound refreshed
    by_cases isOwn : entry.guid = budget.guid
    · rw [isOwn] at isFound
      have isFound : some { budget with refreshRecord := record } = some found :=
        (find_put_self ledger { budget with refreshRecord := record }).symm.trans isFound
      obtain rfl := Option.some.inj isFound
      have isGuid : arguments.guid = entry.guid := own.symm.trans isOwn.symm
      rw [reserved.sequenceUtc reconnects, ← same isGuid, ← isGuid]
      refine List.mem_cons_of_mem _ ?_
      rw [reconnects]
      exact List.mem_cons_self
    · have differ : entry.guid ≠ ({ budget with refreshRecord := record } : Budget).guid := isOwn
      rw [find_put_of_ne differ] at isFound
      exact issued.append [_, _, _] found isFound refreshed

theorem reserve_refreshRecord (guid : Guid) (action : Action) (now : Nat) (budget : Option Budget) :
    (reserve guid action now budget).refreshRecord = 0 := by
  rw [reserve_eq]
  split <;> rfl

/-- A reservation says nothing of reconnects of its adapter, and what it said of others. -/
theorem issued_put {ledger : Ledger} {trace : List Event} (issued : Issued entry ledger trace)
    {budget : Budget}
    (unused : budget.refreshRecord = 0) : Issued entry (ledger.put budget) trace := by
  intro found isFound refreshed
  by_cases own : entry.guid = budget.guid
  · rw [own, find_put_self] at isFound
    obtain rfl := Option.some.inj isFound
    omega
  · rw [find_put_of_ne own] at isFound
    exact issued found isFound refreshed

theorem invoke_honest (watching : Watching runtime entry world) {arguments : Arguments}
    {answers : Answers} {count : Nat} (steady : Steady entry world (.recover arguments answers count)) :
    Throughout (Honest entry) runtime answers.now world
      (invokePhysicalRecovery runtime arguments answers world.file) := by
  unfold invokePhysicalRecovery
  split
  · rename_i authorized isAuthorized
    obtain ⟨isRead, -, -, wireless, policy, enrolled, -⟩ := authorize_some isAuthorized
    split
    · refine honest_follows watching.honest (reserved_of_authorized watching.inv isAuthorized rfl)
        (issued_put (watching.honest _ isRead) (reserve_refreshRecord _ _ _ _)) (fun isOwn => ?_)
        (act_follows _ _ _ _ _ _)
      have same : authorized.entry = entry := steady isOwn (policy, authorized.entry) enrolled
      rw [same]
    · exact watching.honest
  · exact watching.honest

/-- Effects are no samples. -/
theorem foldl_emit (runtime : Runtime Ledger) (entry : Entry) (utc : Nat) :
    ∀ (effects : List Effect) (world : World),
    (effects.foldl (World.emit runtime utc) world).script = world.script ∧
      samples entry.guid (effects.foldl (World.emit runtime utc) world).trace =
      samples entry.guid world.trace ∧ (Verified (Evidenced runtime entry) world.trace →
        Verified (Evidenced runtime entry) (effects.foldl (World.emit runtime utc) world).trace)
  | [], _ => ⟨rfl, rfl, id⟩
  | effect :: effects, world => by
    obtain ⟨script, same, verified⟩ := foldl_emit runtime entry utc effects (world.emit runtime utc effect)
    exact ⟨script, same, fun before => verified ⟨trivial, before⟩⟩

theorem step_watching {world world' : World} {label : Label} (watching : Watching runtime entry world)
    (steady : Steady entry world label) (step : Step runtime world label world') :
    Watching runtime entry world' := by
  cases label with
  | sample tick answers =>
    obtain rfl : world' = _ := step
    exact sample_watching watching steady
  | recover arguments answers count =>
    obtain rfl : world' = _ := step
    obtain ⟨inv, honest⟩ := ((invoke_throughout watching.inv arguments answers).and
      (invoke_honest watching steady)).take count
    obtain ⟨script, same, verified⟩ := foldl_emit runtime entry answers.now
      ((invokePhysicalRecovery runtime arguments answers world.file).take count) world
    refine ⟨inv, honest, verified watching.evidenced, fun known isKnown => ?_⟩
    exact (watching.kept known (script.symm.trans isKnown)).congr rfl rfl rfl rfl rfl same
      fun _ isNear => isNear
  | restart =>
    obtain rfl : world' = _ := step
    exact ⟨⟨watching.inv.1, watching.inv.2, watching.inv.3⟩, watching.honest, watching.evidenced, nofun⟩

/-- The beginning: the sampler has not run, and the ledger, if it can be read, knows of no
reconnect. -/
structure Begins (world : World) : Prop where
  script : world.script = none
  trace : world.trace = []
  ledger : ∀ ledger, getRecoveryBudget world.file = some ledger → ∀ budget ∈ ledger, budget.refreshRecord = 0

theorem begins_watching (begins : Begins world) : Watching runtime entry world where
  inv := inv_fresh begins.trace
  honest ledger isRead budget found refreshed := by
    have unused := begins.ledger ledger isRead budget (find_guid found).2
    omega
  evidenced := by
    rw [begins.trace]
    trivial
  kept script isScript := by
    rw [begins.script] at isScript
    cases isScript

/-- **An adapter is reset only after sustained failure.**  In every sequence of samples, executor runs
and controller restarts from enrolment on, in which the adapter stays enrolled as it is, unless recovery
is off, and the samples can read the enrolment and the ledger: whatever else is read, however long a
sample takes and whatever the clocks say, every request for a reset of the adapter rests on its
evidence. -/
theorem resets_evidenced (runtime : Runtime Ledger) (entry : Entry) {labels : List Label} {world : World}
    (run : Run Begins (fun world label world' => Steady entry world label ∧
      Step runtime world label world') labels
      world) : Verified (Evidenced runtime entry) world.trace := by
  refine (Run.invariant_of_ok (Steady entry) (fun _ world => Watching runtime entry world) ?_ ?_
    run).evidenced
  · exact fun _ begins => begins_watching begins
  · exact fun _ _ _ _ watching steady step => step_watching watching steady step

/-! ## Poles -/

/-- A sample, a number of seconds after some beginning, that finds the Ethernet adapter stalled or
cannot read the ledger. -/
def wiredSample (seconds : Nat) (ledgerFails : Bool) : Label :=
  .sample (1000000 + seconds * 1000)
    ⟨.on wiredPolicy, ledgerFails, fun _ => ⟨some stalled, 10 ^ 17, none, none, 1000000, .preferred 5, true⟩⟩

def wifi : Entry := ⟨2, 71, [119]⟩

def wifiPolicy : Policy := ⟨true, [wifi], by decide, by decide⟩

def unlinked : Snapshot := { stalled with guid := 2, type := 71, paused := false, linkUp := false }

/-- The radio is on and has lost the network it sees. -/
def radioOn : Wireless := ⟨4, true, true, 80⟩

/-- The profile was requested in vain ninety seconds before. -/
def vain (seconds : Nat) : Intent := ⟨8002, seconds, [119], 163851, 10 ^ 17 + seconds * second - 90 * second⟩

/-- A sample that finds the Wi-Fi adapter disconnected. -/
def wifiSample (seconds : Nat) : Label :=
  .sample (1000000 + seconds * 1000) ⟨.on wifiPolicy, false, fun _ =>
    ⟨some unlinked, 10 ^ 17 + seconds * second, some radioOn, some (some (vain seconds)), 1000000,
      .none, true⟩⟩

/-- A run of the executor that requests the profile again. -/
def reconnecting : Label :=
  .recover ⟨2, .reconnectWifi, 0, none, some 1000000, none⟩ { confirming (10 ^ 17 + 90 * second) with
    enrolment := .on wifiPolicy, enrolmentAgain := .on wifiPolicy, latestEnrolment := .on wifiPolicy
    snapshot := some unlinked, fresh := some unlinked
    wireless := some radioOn, freshWireless := some radioOn, radio := some radioOn
    intent := some (vain 90), freshIntent := some (vain 90), latestIntent := some (vain 90)
    tick := 1090000, route := .none, routeAgain := .none, routeStill := .none
    radioReady := true, scanStarts := true, connects := true, refreshed := true } 9

theorem enrolledWorld_begins : Begins enrolledWorld where
  script := rfl
  trace := rfl
  ledger ledger isRead budget member := by
    obtain rfl := Option.some.inj isRead
    cases member

/-- Eight samples, 45 seconds apart, all of which find the adapter stalled. -/
def stalledLabels : List Label := [0, 45, 90, 135, 180, 225, 270, 315].map (wiredSample · false)

/-- A disconnected Wi-Fi adapter is sampled, its profile requested, the controller started again, and
the adapter sampled as before. -/
def wifiLabels : List Label :=
  [0, 45, 90].map wifiSample ++ [reconnecting, .restart] ++
    [135, 180, 225, 270, 315, 360, 405, 450].map wifiSample

/-- The world after a list of labels. -/
def ending (labels : List Label) : World := labels.foldl (World.after plainRuntime) enrolledWorld

theorem ending_run (entry : Entry) (labels : List Label)
    (steady : Each (World.after plainRuntime) (Steady entry) enrolledWorld labels) :
    ∃ taken, Run Begins (fun world label world' => Steady entry world label ∧
      Step plainRuntime world label world')
      taken (ending labels) :=
  run_of_each (fun _ _ steady => ⟨steady, rfl⟩) labels (.start enrolledWorld_begins) steady

theorem resets_evidenced_both :
    (Event.request 1315000 .resetPaused 1 (10 ^ 17) ∈ (ending stalledLabels).trace ∧
        Verified (Evidenced plainRuntime wired) (ending stalledLabels).trace) ∧
      Event.request 1450000 .resetWifi 2 (10 ^ 17 + 450 * second) ∈ (ending wifiLabels).trace ∧
        Verified (Evidenced plainRuntime wifi) (ending wifiLabels).trace := by
  obtain ⟨_, stalledRun⟩ := ending_run wired stalledLabels (by
    refine ⟨?_, ?_, ?_, ?_, ?_, ?_, ?_, ?_, trivial⟩ <;>
      exact fun _ => ⟨List.mem_cons_self, rfl, by decide +kernel⟩)
  obtain ⟨_, wifiRun⟩ := ending_run wifi wifiLabels (by
    refine ⟨?_, ?_, ?_, ?_, trivial, ?_, ?_, ?_, ?_, ?_, ?_, ?_, ?_, trivial⟩
    case refine_4 => exact fun _ found member => by cases member; rfl
    all_goals exact fun _ => ⟨List.mem_cons_self, rfl, by decide +kernel⟩)
  exact ⟨⟨by decide +kernel, resets_evidenced plainRuntime wired stalledRun⟩, by decide +kernel,
    resets_evidenced plainRuntime wifi wifiRun⟩

/-- Three samples find the adapter stalled; the next five cannot read the ledger. -/
def blindWorld : World :=
  ending ([0, 30, 60].map (wiredSample · false) ++ [105, 150, 195, 240, 285].map (wiredSample · true) ++
    [wiredSample 315 false])

/-- **The streak survives samples that read nothing:** the reset is requested although the five
samples before it did not look at the adapter. -/
theorem unreadable_ledger_ignored :
    (∃ labels, Run Begins (Step plainRuntime) labels blindWorld) ∧
    (samples 1 blindWorld.trace).map (fun sample => (sample.tick, sample.look.isSome)) =
      [(1315000, true), (1285000, false), (1240000, false), (1195000, false), (1150000, false),
        (1105000, false), (1060000, true), (1030000, true), (1000000, true)] ∧
    ¬ Verified (Evidenced plainRuntime wired) blindWorld.trace := by
  have isTrace : blindWorld.trace = .request 1315000 .resetPaused 1 (10 ^ 17) :: blindWorld.trace.tail := by
    decide +kernel
  have isSamples : samples 1 blindWorld.trace.tail = ⟨1315000, some ⟨stalled, 10 ^ 17, none, none⟩⟩ ::
      ⟨1285000, none⟩ :: (samples 1 blindWorld.trace.tail).drop 2 := by decide +kernel
  have taken : ∀ world label, True → Step plainRuntime world label
    (world.after plainRuntime label) := fun _ _ _ => rfl
  refine ⟨run_of_each taken _ (.start enrolledWorld_begins) ?_, by decide +kernel, fun verified => ?_⟩
  · exact each_of_inv (fun _ => True) (fun _ _ => id) (fun _ _ => id) _ trivial
  rw [isTrace] at verified
  obtain ⟨sent, received, count, first, streak, long⟩ := verified.1 rfl
  cases streak with
  | first holds => exact absurd long (by decide)
  | more holds follows streak =>
    obtain ⟨look, isLook, -⟩ := streak.latest
    cases isLook

end ProgramSplit.Windows.Recovery
