/-
# Windows.RecoveryLedger — hardware restarts are rate-limited across crashes

A run of the executor reserves its action in the ledger before it acts, so that a run that dies has
still used up its attempt.  The limits are read off the ledger alone: the invariant says what its
entries know of the restarts and reconnects that were ever issued.

* `getRecoveryBudget_write` — a ledger that is written and within the reader's limits is accepted.
* `Accounted` — what an entry knows of its adapter's history.
* `restarts_limited` — **restarts of one adapter are ten minutes apart, at most two in each budget
  window and at most four in any hour; each is counted in the ledger before it is issued; reconnects
  are ten minutes apart.**
* `three_restarts_in_twenty_minutes` — two windows meet in less than an hour.
-/
import ProgramSplit.Lib.FixedWindow
import ProgramSplit.Windows.Recovery

namespace ProgramSplit.Windows.Recovery

set_option autoImplicit false

open Lib

/-- The length of a budget window. -/
def hour : Nat := 3600 * second

/-! ## Reading the ledger back -/

variable {budget : Budget}

theorem check_raw (named : budget.guid ≠ 0) (few : budget.resets ≤ 2) :
    budget.raw.check = some budget := by
  unfold Budget.raw RawBudget.check
  dsimp only
  rw [if_neg]
  · rfl
  · rintro (empty | negative | many | negative)
    · exact named empty
    · omega
    · omega
    · omega

theorem RawBudget.check_valid {raw : RawBudget} (checked : raw.check = some budget) :
    budget.guid ≠ 0 ∧ budget.resets ≤ 2 := by
  unfold RawBudget.check at checked
  split at checked
  · split_ifs at checked with invalid
    cases checked
    refine ⟨fun empty => invalid (.inl empty), ?_⟩
    show Int.toNat _ ≤ 2
    omega
  · cases checked

variable {ledger : Ledger}

theorem mapM_check_valid {raws : List RawBudget}
    (checked : raws.mapM RawBudget.check = some ledger) :
    ∀ budget ∈ ledger, budget.guid ≠ 0 ∧ budget.resets ≤ 2 := by
  induction raws generalizing ledger with
  | nil =>
    cases checked
    exact nofun
  | cons raw raws ih =>
    rw [List.mapM_cons] at checked
    obtain ⟨budget, one, checked⟩ := Option.bind_eq_some_iff.mp checked
    obtain ⟨others, rest, checked⟩ := Option.bind_eq_some_iff.mp checked
    cases checked
    exact List.forall_mem_cons.mpr ⟨RawBudget.check_valid one, ih rest⟩

theorem mapM_check_raw (valid : ∀ budget ∈ ledger, budget.guid ≠ 0 ∧ budget.resets ≤ 2) :
    (ledger.map Budget.raw).mapM RawBudget.check = some ledger := by
  induction ledger with
  | nil => rfl
  | cons budget ledger ih =>
    obtain ⟨named, few⟩ := valid budget List.mem_cons_self
    have rest := ih fun other member => valid other (List.mem_cons_of_mem _ member)
    rw [List.map_cons, List.mapM_cons, check_raw named few, rest]
    rfl

/-- What the reader accepts. -/
structure Valid (ledger : Ledger) : Prop where
  entries : ∀ budget ∈ ledger, budget.guid ≠ 0 ∧ budget.resets ≤ 2
  unique : (ledger.map Budget.guid).Nodup

theorem getRecoveryBudget_valid {file : File RawLedger}
    (read : getRecoveryBudget file = some ledger) : Valid ledger := by
  cases file with
  | missing => cases read
  | text length json =>
    unfold getRecoveryBudget at read
    dsimp only at read
    split_ifs at read
    obtain ⟨raw, -, read⟩ := Option.bind_eq_some_iff.mp read
    split_ifs at read
    obtain ⟨checked, entries, read⟩ := Option.bind_eq_some_iff.mp read
    split_ifs at read with unique
    cases read
    exact ⟨mapM_check_valid entries, unique⟩

variable (runtime : Runtime Ledger)

/-- A written ledger within the reader's limits is accepted as it is. -/
theorem getRecoveryBudget_write (valid : Valid ledger) (few : ledger.length ≤ 64)
    (short : runtime.size ledger ≤ 16384) :
    getRecoveryBudget (runtime.write ledger) = some ledger := by
  unfold getRecoveryBudget Runtime.write
  dsimp only
  rw [if_neg (by omega), Option.bind_some, if_neg, mapM_check_raw valid.entries, Option.bind_some,
    if_pos valid.unique]
  rintro (contra | many)
  · cases contra
  · rw [List.length_map] at many
    omega

/-- Whatever is read back is what was written. -/
theorem getRecoveryBudget_written {ledger read : Ledger} (valid : Valid ledger)
    (isRead : getRecoveryBudget (runtime.write ledger) = some read) : read = ledger := by
  unfold getRecoveryBudget Runtime.write at isRead
  dsimp only at isRead
  split_ifs at isRead
  rw [Option.bind_some] at isRead
  split at isRead
  · cases isRead
  · rw [mapM_check_raw valid.entries, Option.bind_some, if_pos valid.unique] at isRead
    exact (Option.some.inj isRead).symm

/-! ## Entries of a ledger -/

variable {guid : Guid}

theorem find_guid (found : Ledger.find ledger guid = some budget) :
    budget.guid = guid ∧ budget ∈ ledger := by
  have same := List.find?_some found
  exact ⟨eq_of_beq same, List.mem_of_find?_eq_some found⟩

theorem find_put_self (ledger : Ledger) (budget : Budget) :
    (ledger.put budget).find budget.guid = some budget := by
  unfold Ledger.find Ledger.put
  rw [List.find?_cons_of_pos (by simp)]

theorem find_put_of_ne (other : guid ≠ budget.guid) :
    (ledger.put budget).find guid = ledger.find guid := by
  unfold Ledger.find Ledger.put
  rw [List.find?_cons_of_neg (by simpa using Ne.symm other), List.find?_filter]
  congr 1
  funext entry
  by_cases same : entry.guid = guid
  · simp [same, other]
  · simp [same]

theorem Valid.put (valid : Valid ledger) (named : budget.guid ≠ 0)
    (few : budget.resets ≤ 2) : Valid (ledger.put budget) := by
  constructor
  · exact List.forall_mem_cons.mpr
      ⟨⟨named, few⟩, fun other member => valid.entries other (List.mem_filter.mp member).1⟩
  · unfold Ledger.put
    rw [List.map_cons, List.nodup_cons]
    constructor
    · intro member
      obtain ⟨other, member, same⟩ := List.mem_map.mp member
      simpa [same] using (List.mem_filter.mp member).2
    · exact valid.unique.sublist (List.filter_sublist.map _)

/-! ## What was issued -/

/-- The restarts of an adapter, each with the window it was counted in. -/
def restarts (guid : Guid) : List Event → List Grant
  | [] => []
  | event :: earlier =>
    match event with
    | .effect utc (.restart other budget) =>
      if other = guid then ⟨utc, budget.windowUtc⟩ :: restarts guid earlier
      else restarts guid earlier
    | _ => restarts guid earlier

/-- The times of the reconnects of an adapter. -/
def reconnectTimes (guid : Guid) : List Event → List Nat
  | [] => []
  | event :: earlier =>
    match event with
    | .effect utc (.connect .reconnectWifi other _ _ _) =>
      if other = guid then utc :: reconnectTimes guid earlier else reconnectTimes guid earlier
    | _ => reconnectTimes guid earlier

/-- The adapter's restarts that were counted in a window. -/
def countedIn (start : Nat) (grants : List Grant) : Nat :=
  grants.countP fun grant => grant.start == start

/-- **What an effect has to rest on.**  Times are the UTC times that the runs read. -/
def Limited (event : Event) (earlier : List Event) : Prop :=
  match event with
  -- a ledger within the reader's limits is accepted by the next run
  | .effect _ (.publish ledger) => ledger.length ≤ 64 → runtime.size ledger ≤ 16384 →
      getRecoveryBudget (runtime.write ledger) = some ledger
  -- the ledger that counts the restart is the last thing that was written
  | .effect utc (.restart guid budget) =>
    (∃ ledger before, earlier = .effect utc (.publish ledger) :: before ∧ budget ∈ ledger) ∧
    budget.guid = guid ∧ budget.resetUtc = utc ∧
    countedIn budget.windowUtc (restarts guid earlier) + 1 ≤ budget.resets ∧ budget.resets ≤ 2 ∧
    ∀ grant ∈ restarts guid earlier, grant.time + 600 * second ≤ utc
  | .effect utc (.connect .reconnectWifi guid _ _ _) =>
    ∀ time ∈ reconnectTimes guid earlier, time + 600 * second ≤ utc
  | _ => True

/-- What a ledger entry knows of its adapter's history. -/
def Accounted (budget : Option Budget) (guid : Guid) (trace : List Event) : Prop :=
  match budget with
  | none => restarts guid trace = [] ∧ reconnectTimes guid trace = []
  | some budget =>
    (∀ grant ∈ restarts guid trace, grant.time ≤ budget.resetUtc ∧
      (grant.start = budget.windowUtc ∨ grant.start + hour ≤ budget.windowUtc)) ∧
    countedIn budget.windowUtc (restarts guid trace) ≤ budget.resets ∧
    ∀ time ∈ reconnectTimes guid trace, time ≤ budget.sequenceUtc

/-- What holds between the steps and between the effects of a run. -/
structure Inv (world : World) : Prop where
  limited : Verified (Limited runtime) world.trace
  windows : ∀ guid, Verified (Grant.Admissible hour 2) (restarts guid world.trace)
  accounts : ∀ ledger, getRecoveryBudget world.file = some ledger →
    ∀ guid, Accounted (Ledger.find ledger guid) guid world.trace

/-! ## What a reservation knows -/

/-- A budget that does not defer. -/
theorem Budget.defers_false {now : Nat} (open_ : budget.defers now = false) :
    budget.resetUtc + 600 * second ≤ now ∧ budget.windowUtc ≤ now ∧
      (budget.windowUtc + hour ≤ now ∨ budget.resets < 2) := by
  unfold Budget.defers age at open_
  simp only [Bool.or_eq_false_iff, Bool.and_eq_false_iff, decide_eq_false_iff_not] at open_
  unfold hour
  omega

/-- What a reset of a Wi-Fi adapter needs of the ledger. -/
structure Retried (budget : Budget) (intent : Intent) (now : Nat) : Prop where
  refreshed : 0 < budget.refreshRecord
  newer : budget.refreshRecord < intent.recordId
  after : budget.sequenceUtc ≤ now
  recent : now < budget.sequenceUtc + 600 * second

section Actions

variable {budget : Option Budget} {now : Nat} {allow : Bool} {action : Action}

theorem wifiAction_some {wireless : Wireless} {intent : Intent} {failure : Nat}
    (authorized : wifiAction budget wireless intent now allow failure = some action) :
    action = .reconnectWifi ∧ (∀ known, budget = some known →
      known.sequenceUtc + 600 * second ≤ now) ∨
      action = .resetWifi ∧ 300000 ≤ failure ∧ ∃ known, budget = some known ∧
      Retried known intent now := by
  unfold wifiAction age at authorized
  cases budget with
  | none =>
    cases authorized
    exact .inl ⟨rfl, nofun⟩
  | some known =>
    dsimp only at authorized
    split_ifs at authorized with early retried old
    · cases authorized
      simp only [Bool.and_eq_true, decide_eq_true_eq] at retried
      obtain ⟨⟨⟨⟨⟨⟨-, long⟩, recent⟩, refreshed⟩, newer⟩, -⟩, -⟩ := retried
      exact .inr ⟨rfl, long, known, rfl, refreshed, newer, by omega, by omega⟩
    · cases authorized
      refine .inl ⟨rfl, ?_⟩
      rintro _ ⟨⟩
      omega

/-- An action needs a budget that does not defer it, and a confirmed pause or a Wi-Fi fault. -/
theorem getRecoveryAction_some {entry : Entry} {snapshot : Snapshot} {wireless : Option Wireless}
    {intent : Option Intent} {evidence : Evidence} {uptime : Nat}
      (authorized : getRecoveryAction runtime entry snapshot
      wireless intent budget evidence now uptime allow = some action) :
    (∀ known, budget = some known → known.defers now = false) ∧
      (action = .resetPaused ∧ entry.type = 6 ∧ snapshot.validPause = true ∧
        3 ≤ evidence.pauseSamples ∧
          300000 ≤ evidence.failure ∨
        entry.type = 71 ∧ ∃ radio request, wireless = some radio ∧ intent = some request ∧
          wifiFault runtime entry radio request now = true ∧
          wifiAction budget radio request now allow evidence.failure = some action) := by
  unfold getRecoveryAction at authorized
  split_ifs at authorized with sane deferred confirmed isWifi
  all_goals refine ⟨fun known found => by simpa [found] using deferred, ?_⟩
  · simp only [Bool.or_eq_true, not_or, Bool.not_eq_true', Bool.not_eq_true, Bool.not_eq_false,
      Bool.and_eq_true, decide_eq_true_eq] at sane confirmed
    obtain ⟨⟨⟨⟨⟨-, hardware⟩, adminUp⟩, lowPower⟩, -⟩, -⟩ := sane
    obtain ⟨⟨⟨⟨⟨-, long⟩, isWired⟩, paused⟩, linkUp⟩, enough⟩ := confirmed
    exact .inl ⟨(Option.some.inj authorized).symm, isWired,
      by simp [Snapshot.validPause, paused, hardware, adminUp, linkUp, lowPower], enough, long⟩
  · split at authorized
    · rename_i radio request
      split_ifs at authorized with faulty
      exact .inr ⟨Decidable.of_not_not isWifi, radio, request, rfl, rfl,
        (Bool.and_eq_true_iff.mp faulty).1, authorized⟩
    · cases authorized

end Actions

theorem countedIn_zero {start : Nat} {grants : List Grant}
    (before : ∀ grant ∈ grants, grant.start ≠ start) :
    countedIn start grants = 0 := by
  refine List.countP_eq_zero.mpr fun grant member same => ?_
  exact before grant member (eq_of_beq same)

/-- The window that a reservation counts in: the running one with room left, or a new one. -/
structure Opened (guid : Guid) (now : Nat) (trace : List Event) (start resets : Nat) : Prop where
  opened : start ≤ now
  running : now < start + hour
  apart : ∀ grant ∈ restarts guid trace, grant.start = start ∨ grant.start + hour ≤ start
  counted : countedIn start (restarts guid trace) ≤ resets
  room : resets < 2
  cooled : ∀ grant ∈ restarts guid trace, grant.time + 600 * second ≤ now

/-- The entry before it is charged. -/
def renewed (guid : Guid) (now : Nat) (budget : Option Budget) : Budget :=
  let budget := budget.getD ⟨guid, now, 0, 0, 0, 0⟩
  if 3600 * second ≤ age now budget.windowUtc then { budget with windowUtc := now, resets := 0 }
  else budget

theorem reserve_eq (guid : Guid) (action : Action) (now : Nat) (budget : Option Budget) :
    reserve guid action now budget =
      if action.restarts then
        { renewed guid now budget with
          resets := (renewed guid now budget).resets + 1, resetUtc := now, refreshRecord := 0 }
      else { renewed guid now budget with sequenceUtc := now, refreshRecord := 0 } :=
  rfl

variable {trace : List Event}

theorem renewed_opened {now : Nat} {budget : Option Budget}
    (accounted : Accounted budget guid trace)
    (open_ : ∀ known, budget = some known → known.defers now = false) :
    Opened guid now trace (renewed guid now budget).windowUtc (renewed guid now budget).resets := by
  have positive : 0 < hour := by decide
  cases budget with
  | none =>
    have same : renewed guid now none = ⟨guid, now, 0, 0, 0, 0⟩ := by
      unfold renewed age
      rw [if_neg (by simp only [Option.getD_none, second]; omega)]
      rfl
    obtain ⟨noRestarts, -⟩ := accounted
    rw [same]
    refine ⟨Nat.le_refl _, by show now < now + hour; omega, ?_, ?_, by show 0 < 2; omega, ?_⟩ <;>
      rw [noRestarts]
    · exact nofun
    · exact Nat.zero_le _
    · exact nofun
  | some known =>
    obtain ⟨cool, started, room⟩ := Budget.defers_false (open_ known rfl)
    obtain ⟨grants, counted, -⟩ := accounted
    have cooled : ∀ grant ∈ restarts guid trace, grant.time + 600 * second ≤ now := by
      intro grant member
      have before := (grants grant member).1
      omega
    by_cases expired : 3600 * second ≤ age now known.windowUtc
    · have same : renewed guid now (some known) = { known with windowUtc := now, resets := 0 } :=
        if_pos expired
      have late : known.windowUtc + hour ≤ now := by
        unfold age at expired
        unfold hour
        omega
      have before : ∀ grant ∈ restarts guid trace, grant.start + hour ≤ now := by
        intro grant member
        rcases (grants grant member).2 with same | earlier <;> omega
      rw [same]
      refine ⟨Nat.le_refl _, by show now < now + hour; omega, fun grant member => .inr (before grant member), ?_,
        by show 0 < 2; omega, cooled⟩
      refine Nat.le_of_eq (countedIn_zero fun grant member same => ?_)
      have apart := before grant member
      have same : grant.start = now := same
      omega
    · have same : renewed guid now (some known) = known := if_neg expired
      have early : now < known.windowUtc + hour := by
        unfold age at expired
        unfold hour
        omega
      rw [same]
      exact ⟨started, early, fun grant member => (grants grant member).2, counted, by omega, cooled⟩

theorem Accounted.reconnected {budget : Option Budget} (accounted : Accounted budget guid trace) :
    ∀ time ∈ reconnectTimes guid trace, ∃ known, budget = some known ∧
    time ≤ known.sequenceUtc := by
  intro time member
  cases budget with
  | none => rw [accounted.2] at member; cases member
  | some known => exact ⟨known, rfl, accounted.2.2 time member⟩

/-- The charged entry still knows the adapter's history. -/
theorem reserve_accounted {action : Action} {now : Nat} {budget : Option Budget}
    (accounted : Accounted budget guid trace)
    (open_ : ∀ known, budget = some known → known.defers now = false)
    (spaced : action = .reconnectWifi → ∀ known, budget = some known →
      known.sequenceUtc + 600 * second ≤ now) :
    Accounted (some (reserve guid action now budget)) guid trace := by
  have opened := renewed_opened accounted open_
  -- the renewed entry keeps the times of the last restart and reconnect
  have kept : ∀ known, budget = some known →
      (renewed guid now budget).resetUtc = known.resetUtc ∧ (renewed guid now budget).sequenceUtc =
        known.sequenceUtc := by
    rintro known rfl
    unfold renewed
    dsimp only [Option.getD_some]
    split <;> exact ⟨rfl, rfl⟩
  have reconnected := accounted.reconnected
  have restarted : ∀ grant ∈ restarts guid trace, ∃ known, budget = some known ∧
      grant.time ≤ known.resetUtc := by
    intro grant member
    cases budget with
    | none => rw [accounted.1] at member; cases member
    | some known => exact ⟨known, rfl, (accounted.1 grant member).1⟩
  rw [reserve_eq]
  split
  · refine ⟨fun grant member => ⟨?_, opened.apart grant member⟩,
      Nat.le_succ_of_le opened.counted, ?_⟩
    · have cooled := opened.cooled grant member
      show grant.time ≤ now
      omega
    · intro time member
      obtain ⟨known, isKnown, before⟩ := reconnected time member
      rw [(kept known isKnown).2]
      exact before
  · have isReconnect : action = .reconnectWifi := by cases action <;> simp_all [Action.restarts]
    refine ⟨fun grant member => ⟨?_, opened.apart grant member⟩, opened.counted, ?_⟩
    · obtain ⟨known, isKnown, before⟩ := restarted grant member
      rw [(kept known isKnown).1]
      exact before
    · intro time member
      obtain ⟨known, isKnown, before⟩ := reconnected time member
      have late := spaced isReconnect known isKnown
      show time ≤ now
      omega

theorem reserve_guid (action : Action) (now : Nat) {budget : Option Budget}
    (own : ∀ known, budget = some known → known.guid = guid) :
    (reserve guid action now budget).guid = guid := by
  have renewedGuid : (renewed guid now budget).guid = guid := by
    unfold renewed
    cases budget with
    | none => dsimp only [Option.getD_none]; split <;> rfl
    | some known =>
      dsimp only [Option.getD_some]
      split <;> exact own known rfl
  rw [reserve_eq]
  split <;> exact renewedGuid

theorem reserve_resets {action : Action} {now : Nat} {budget : Option Budget}
    (opened : Opened guid now trace (renewed guid now budget).windowUtc
      (renewed guid now budget).resets) :
    (reserve guid action now budget).resets ≤ 2 := by
  have room := opened.room
  rw [reserve_eq]
  split
  · exact room
  · exact Nat.le_of_lt room

/-! ## The effects of a run, one by one -/

/-- A ledger that knows every adapter's history. -/
structure Books (ledger : Ledger) (trace : List Event) : Prop where
  valid : Valid ledger
  accounted : ∀ guid, Accounted (Ledger.find ledger guid) guid trace

variable {runtime}

theorem Books.put (books : Books ledger trace)
    (named : budget.guid ≠ 0) (few : budget.resets ≤ 2)
    (accounted : Accounted (some budget) budget.guid trace) :
    Books (ledger.put budget) trace where
  valid := books.valid.put named few
  accounted guid := by
    by_cases own : guid = budget.guid
    · rw [own, find_put_self]
      exact accounted
    · rw [find_put_of_ne own]
      exact books.accounted guid

variable {world : World}

/-- A world whose ledger file was written from books that know the history. -/
theorem inv_of_books (limited : Verified (Limited runtime) world.trace)
    (windows : ∀ guid, Verified (Grant.Admissible hour 2) (restarts guid world.trace))
    (written : world.file = runtime.write ledger) (books : Books ledger world.trace) :
    Inv runtime world where
  limited := limited
  windows := windows
  accounts read isRead := by
    rw [written] at isRead
    obtain rfl := getRecoveryBudget_written runtime books.valid isRead
    exact books.accounted

theorem Inv.books (inv : Inv runtime world)
    (isRead : getRecoveryBudget world.file = some ledger) : Books ledger world.trace :=
  ⟨getRecoveryBudget_valid isRead, inv.accounts ledger isRead⟩

theorem emit_publish (limited : Verified (Limited runtime) world.trace)
    (windows : ∀ guid, Verified (Grant.Admissible hour 2) (restarts guid world.trace))
    (books : Books ledger world.trace) (utc : Nat) :
    Inv runtime (world.emit runtime utc (.publish ledger)) :=
  inv_of_books ⟨fun few short => getRecoveryBudget_write runtime books.valid few short,
    limited⟩ windows rfl
    ⟨books.valid, books.accounted⟩

/-- The entry of the adapter in the ledger, charged for a restart. -/
structure Charged (guid : Guid) (utc : Nat) (budget : Budget) (ledger : Ledger)
    (trace : List Event) : Prop where
  entry : Ledger.find ledger guid = some budget
  resetUtc : budget.resetUtc = utc
  opened : Opened guid utc trace budget.windowUtc (budget.resets - 1)
  counts : 0 < budget.resets

theorem restarts_self (guid : Guid) (utc : Nat) (budget : Budget) (trace : List Event) :
    restarts guid (.effect utc (.restart guid budget) :: trace) =
      ⟨utc, budget.windowUtc⟩ :: restarts guid trace :=
  if_pos rfl

theorem restarts_other {guid other : Guid} (differ : other ≠ guid) (utc : Nat) (budget : Budget)
    (trace : List Event) :
    restarts guid (.effect utc (.restart other budget) :: trace) = restarts guid trace :=
  if_neg differ

/-- The books still agree once the charged restart is issued. -/
theorem Books.restart {utc : Nat}
    (books : Books ledger trace) (charged : Charged guid utc budget ledger trace) :
    Books ledger (.effect utc (.restart guid budget) :: trace) where
  valid := books.valid
  accounted other := by
    by_cases own : guid = other
    · subst own
      have before := books.accounted guid
      rw [charged.entry] at before ⊢
      obtain ⟨-, -, reconnected⟩ := before
      refine ⟨fun grant member => ?_, ?_, reconnected⟩
      · rw [restarts_self] at member
        rcases List.mem_cons.mp member with rfl | member
        · exact ⟨Nat.le_of_eq charged.resetUtc.symm, .inl rfl⟩
        · have cooled := charged.opened.cooled grant member
          have resetUtc := charged.resetUtc
          exact ⟨by omega, charged.opened.apart grant member⟩
      · have counted := charged.opened.counted
        have counts := charged.counts
        rw [restarts_self]
        unfold countedIn at counted ⊢
        rw [List.countP_cons, if_pos (beq_self_eq_true _)]
        omega
    · have before := books.accounted other
      unfold Accounted at before ⊢
      rwa [restarts_other own]

theorem emit_restart (inv : Inv runtime world) {utc : Nat} {before : List Event}
    (written : world.file = runtime.write ledger)
    (published : world.trace = .effect utc (.publish ledger) :: before)
    (books : Books ledger world.trace) (charged : Charged guid utc budget ledger world.trace) :
    Inv runtime (world.emit runtime utc (.restart guid budget)) := by
  obtain ⟨own, member⟩ := find_guid charged.entry
  have few := (books.valid.entries budget member).2
  have counts := charged.counts
  have counted := charged.opened.counted
  refine inv_of_books ⟨⟨⟨ledger, before, published, member⟩, own, charged.resetUtc, ?_, few,
    charged.opened.cooled⟩, inv.limited⟩ (fun other => ?_) written (books.restart charged)
  · omega
  · show Verified _ (restarts other (.effect utc (.restart guid budget) :: world.trace))
    by_cases same : guid = other
    · subst same
      rw [restarts_self]
      refine ⟨⟨charged.opened.opened, charged.opened.running, charged.opened.apart, ?_⟩,
        inv.windows guid⟩
      show countedIn budget.windowUtc (restarts guid world.trace) < 2
      omega
    · rw [restarts_other same]
      exact inv.windows other

/-- A profile is requested; only reconnects are limited. -/
theorem Books.connect {action : Action} {utc : Nat} (books : Books ledger trace)
    (entry : Ledger.find ledger guid = some budget)
    (sequenceUtc : action = .reconnectWifi → budget.sequenceUtc = utc)
    (spaced : action = .reconnectWifi →
      ∀ time ∈ reconnectTimes guid trace, time + 600 * second ≤ utc)
    (profile : Profile) (record : Nat) (succeeds : Bool) :
    Books ledger (.effect utc (.connect action guid profile record succeeds) :: trace) where
  valid := books.valid
  accounted other := by
    have before := books.accounted other
    cases action with
    | resetPaused => exact before
    | resetWifi => exact before
    | reconnectWifi =>
      by_cases own : guid = other
      · subst own
        rw [entry] at before ⊢
        obtain ⟨restarted, counted, -⟩ := before
        refine ⟨restarted, counted, fun time member => ?_⟩
        have times : reconnectTimes guid
          (.effect utc (.connect .reconnectWifi guid profile record succeeds) :: trace) =
            utc :: reconnectTimes guid trace := if_pos rfl
        rw [times] at member
        have sequenceUtc := sequenceUtc rfl
        rcases List.mem_cons.mp member with rfl | member
        · exact Nat.le_of_eq sequenceUtc.symm
        · have apart := spaced rfl time member
          omega
      · have times : reconnectTimes other
          (.effect utc (.connect .reconnectWifi guid profile record succeeds) :: trace) =
            reconnectTimes other trace := if_neg own
        unfold Accounted at before ⊢
        rw [times]
        exact before

theorem emit_connect (inv : Inv runtime world) {action : Action} {utc : Nat}
    (written : world.file = runtime.write ledger)
    (books : Books ledger world.trace) (entry : Ledger.find ledger guid = some budget)
    (sequenceUtc : action = .reconnectWifi → budget.sequenceUtc = utc)
    (spaced : action = .reconnectWifi →
      ∀ time ∈ reconnectTimes guid world.trace, time + 600 * second ≤ utc)
    (profile : Profile) (record : Nat) (succeeds : Bool) :
    Inv runtime (world.emit runtime utc (.connect action guid profile record succeeds)) := by
  refine inv_of_books ⟨?_, inv.limited⟩ inv.windows written
    (books.connect entry sequenceUtc spaced profile record succeeds)
  cases action with
  | resetPaused => trivial
  | resetWifi => trivial
  | reconnectWifi => exact spaced rfl

/-! ## Whole runs of the executor -/

/-- A property holds before, between and after the effects. -/
def Throughout (P : World → Prop) (runtime : Runtime Ledger) (utc : Nat) :
    World → List Effect → Prop
  | world, [] => P world
  | world, effect :: effects => P world ∧
      Throughout P runtime utc (world.emit runtime utc effect) effects

theorem Throughout.take {P : World → Prop} {utc : Nat} :
    ∀ {effects : List Effect} {world : World}, Throughout P runtime utc world effects →
      ∀ count, P ((effects.take count).foldl (World.emit runtime utc) world)
  | [], _, inv, count => by
    rw [List.take_nil]
    exact inv
  | _ :: _, _, inv, 0 => inv.1
  | _ :: _, _, inv, count + 1 => Throughout.take inv.2 count

theorem entry_guid {enrolment : Enrolment} {policy : Policy} {entry : Entry}
    (enrolled : enrolment.entry guid = some (policy, entry)) :
    entry ∈ policy.adapters ∧ entry.guid = guid := by
  cases enrolment with
  | raised => cases enrolled
  | off => cases enrolled
  | on accepted =>
    unfold Enrolment.entry at enrolled
    dsimp only at enrolled
    split at enrolled
    · rename_i only isOnly
      cases enrolled
      have member : entry ∈ policy.adapters.filter fun entry => entry.guid == guid :=
        isOnly ▸ List.mem_cons_self
      obtain ⟨member, same⟩ := List.mem_filter.mp member
      exact ⟨member, eq_of_beq same⟩
    · cases enrolled

/-- What an authorized run has established. -/
theorem authorize_some {arguments : Arguments} {answers : Answers} {file : File RawLedger}
    {authorized : Authorized}
    (isAuthorized : authorize runtime arguments answers file = some authorized) :
    getRecoveryBudget file = some authorized.ledger ∧ arguments.guid ≠ 0 ∧
      authorized.entry.guid = arguments.guid ∧
      ∃ wireless policy, answers.enrolment.entry arguments.guid = some (policy, authorized.entry) ∧
        getRecoveryAction runtime authorized.entry authorized.snapshot wireless authorized.intent
          (Ledger.find authorized.ledger arguments.guid)
          (answers.evidence arguments) answers.now answers.tick
          policy.allowAdapterRestart = some arguments.action := by
  unfold authorize at isAuthorized
  split at isAuthorized
  · split at isAuthorized
    · rename_i policy entry snapshot ledger enrolled _ isRead
      split at isAuthorized
      · cases isAuthorized
      · dsimp only at isAuthorized
        split at isAuthorized
        · rename_i allowed
          cases isAuthorized
          obtain ⟨member, own⟩ := entry_guid enrolled
          exact ⟨isRead, own ▸ policy.named entry member, own, _, policy, enrolled, allowed.1⟩
        · cases isAuthorized
    · cases isAuthorized
  · cases isAuthorized

/-- What can follow a reservation. -/
inductive Follows (arguments : Arguments) (profile : Profile) (budget : Budget) (ledger : Ledger)
    (record : Nat) :
    List Effect → Prop
  | nothing : Follows arguments profile budget ledger record []
  | restart (restarts : arguments.action.restarts = true) :
      Follows arguments profile budget ledger record [.restart arguments.guid budget]
  | restartConnect (restarts : arguments.action.restarts = true) (succeeds : Bool) :
      Follows arguments profile budget ledger record [.restart arguments.guid budget,
        .connect arguments.action arguments.guid profile record succeeds]
  | connect (reconnects : arguments.action = .reconnectWifi) (succeeds : Bool) :
      Follows arguments profile budget ledger record
        [.connect arguments.action arguments.guid profile record succeeds]
  | refresh (reconnects : arguments.action = .reconnectWifi) :
      Follows arguments profile budget ledger record
        [.connect arguments.action arguments.guid profile record true,
          .publish (ledger.put { budget with refreshRecord := record })]

theorem act_follows (runtime : Runtime Ledger) (arguments : Arguments) (answers : Answers)
    (authorized : Authorized) (budget : Budget) (ledger : Ledger) :
    Follows arguments authorized.entry.wifiProfile budget ledger
      ((authorized.intent.map Intent.recordId).getD 0)
      (act runtime arguments answers authorized budget ledger) := by
  have reconnects : arguments.action.restarts = false → arguments.action = .reconnectWifi := by
    cases arguments.action <;> simp [Action.restarts]
  unfold act
  split
  · by_cases restarts : arguments.action.restarts = true
    · rw [if_pos restarts]
      split
      · split
        · rw [if_neg (by simp [restarts])]
          exact .restartConnect restarts _
        · exact .restart restarts
      · exact .restart restarts
    · have isReconnect := reconnects (Bool.eq_false_iff.mpr restarts)
      rw [if_neg restarts]
      split
      · split
        · rename_i connected
          simp only [Bool.and_eq_true] at connected
          rw [connected.1.1]
          exact .refresh isReconnect
        · exact .connect isReconnect _
      · exact .nothing
  · exact .nothing

/-- What is known once the action is reserved. -/
structure Reserved (arguments : Arguments) (utc : Nat) (budget : Budget) (ledger : Ledger)
    (trace : List Event) :
    Prop where
  books : Books ledger trace
  entry : Ledger.find ledger arguments.guid = some budget
  charged : arguments.action.restarts = true → Charged arguments.guid utc budget ledger trace
  sequenceUtc : arguments.action = .reconnectWifi → budget.sequenceUtc = utc
  spaced : arguments.action = .reconnectWifi →
    ∀ time ∈ reconnectTimes arguments.guid trace, time + 600 * second ≤ utc

theorem reserved_of_authorized (inv : Inv runtime world) {arguments : Arguments} {answers : Answers}
    {authorized : Authorized} (isAuthorized : authorize runtime arguments answers world.file =
      some authorized) (isBudget : budget = reserve arguments.guid arguments.action answers.now
      (Ledger.find authorized.ledger arguments.guid)) :
    Reserved arguments answers.now budget (authorized.ledger.put budget) world.trace := by
  obtain ⟨isRead, named, -, wireless, policy, -, allowed⟩ := authorize_some isAuthorized
  have books := inv.books isRead
  have accounted := books.accounted arguments.guid
  obtain ⟨open_, cause⟩ := getRecoveryAction_some runtime allowed
  have spaced : arguments.action = .reconnectWifi →
    ∀ known, Ledger.find authorized.ledger arguments.guid = some known →
      known.sequenceUtc + 600 * second ≤ answers.now := by
    intro isReconnect
    rw [isReconnect] at cause
    obtain ⟨other, -⟩ | ⟨-, _, _, -, -, -, wifi⟩ := cause
    · cases other
    · obtain ⟨-, old⟩ | ⟨other, -⟩ := wifiAction_some wifi
      · exact old
      · cases other
  have opened := renewed_opened accounted open_
  have own : budget.guid = arguments.guid := by
    rw [isBudget]
    exact reserve_guid _ _ fun known found => (find_guid found).1
  have few : budget.resets ≤ 2 := by
    rw [isBudget]
    exact reserve_resets opened
  have history : Accounted (some budget) budget.guid world.trace := by
    rw [own, isBudget]
    exact reserve_accounted accounted open_ spaced
  have entry : Ledger.find (authorized.ledger.put budget) arguments.guid = some budget := by
    rw [← own]
    exact find_put_self _ _
  refine ⟨books.put (own.symm ▸ named) few history, entry, fun restarts => ?_,
    fun isReconnect => ?_, fun isReconnect time member => ?_⟩
  · rw [reserve_eq, if_pos restarts] at isBudget
    have isReset : budget.resetUtc = answers.now := by rw [isBudget]
    have window : budget.windowUtc = _ := congrArg Budget.windowUtc isBudget
    have resets : budget.resets = _ + 1 := congrArg Budget.resets isBudget
    refine ⟨entry, isReset, ?_, by omega⟩
    rw [window, resets]
    exact opened
  · rw [isBudget, isReconnect]
    rfl
  · obtain ⟨known, found, before⟩ := accounted.reconnected time member
    have late := spaced isReconnect known found
    omega

/-- Publishing changes no adapter's history. -/
theorem Reserved.published {arguments : Arguments} {utc : Nat}
    (reserved : Reserved arguments utc budget ledger trace) (published : Ledger) :
    Reserved arguments utc budget ledger (.effect utc (.publish published) :: trace) where
  books := ⟨reserved.books.valid, reserved.books.accounted⟩
  entry := reserved.entry
  charged restarts := { reserved.charged restarts with
    opened := { (reserved.charged restarts).opened with } }
  sequenceUtc := reserved.sequenceUtc
  spaced := reserved.spaced

/-- The reservation and what follows it, effect by effect. -/
theorem throughout_follows (inv : Inv runtime world) {arguments : Arguments} {utc : Nat}
    (reserved : Reserved arguments utc budget ledger world.trace)
    {profile : Profile} {record : Nat} {effects : List Effect}
    (follows : Follows arguments profile budget ledger record effects) :
    Throughout (Inv runtime) runtime utc world (.publish ledger :: effects) := by
  have published := emit_publish inv.limited inv.windows reserved.books utc
  have reserved := reserved.published ledger
  have restarted := fun restarts => emit_restart published rfl rfl reserved.books
    (reserved.charged restarts)
  have connected := fun profile record succeeds =>
    emit_connect published rfl reserved.books reserved.entry
    reserved.sequenceUtc reserved.spaced profile record succeeds
  refine ⟨inv, ?_⟩
  cases follows with
  | nothing => exact published
  | restart restarts => exact ⟨published, restarted restarts⟩
  | restartConnect restarts succeeds =>
    have notReconnect : arguments.action ≠ .reconnectWifi := by
      intro isReconnect
      rw [isReconnect] at restarts
      cases restarts
    exact ⟨published, restarted restarts, emit_connect (restarted restarts) rfl
      (reserved.books.restart (reserved.charged restarts)) reserved.entry
      (fun isReconnect => absurd isReconnect notReconnect)
      (fun isReconnect => absurd isReconnect notReconnect) _ _ _⟩
  | connect reconnects succeeds => exact ⟨published, connected _ _ _⟩
  | refresh reconnects =>
    have connectedOnce := connected profile record true
    have booksAfter := reserved.books.connect reserved.entry reserved.sequenceUtc reserved.spaced
      profile record true
    obtain ⟨own, member⟩ := find_guid reserved.entry
    obtain ⟨named, few⟩ := reserved.books.valid.entries budget member
    have entry : Ledger.find ledger budget.guid = some budget := by
      rw [own]
      exact reserved.entry
    have history := booksAfter.accounted budget.guid
    rw [entry] at history
    have refreshed : Books (ledger.put { budget with refreshRecord := record }) _ :=
      booksAfter.put named few history
    exact ⟨published, connectedOnce, emit_publish connectedOnce.limited connectedOnce.windows
      refreshed utc⟩

theorem invoke_throughout (inv : Inv runtime world) (arguments : Arguments) (answers : Answers) :
    Throughout (Inv runtime) runtime answers.now world
      (invokePhysicalRecovery runtime arguments answers world.file) := by
  unfold invokePhysicalRecovery
  split
  · rename_i authorized isAuthorized
    split
    · exact throughout_follows inv (reserved_of_authorized inv isAuthorized rfl)
        (act_follows _ _ _ _ _ _)
    · exact inv
  · exact inv

/-! ## Samples do not touch the ledger -/

/-- Events of a sample. -/
def Event.sampling : Event → Bool
  | .effect .. => false
  | _ => true

theorem Inv.sampling {world world' : World} (inv : Inv runtime world)
    (file : world'.file = world.file)
    {events : List Event} (trace : world'.trace = events ++ world.trace)
    (sampling : ∀ event ∈ events, event.sampling = true) : Inv runtime world' := by
  have kept : ∀ events : List Event, (∀ event ∈ events, event.sampling = true) →
      Inv runtime { world with trace := events ++ world.trace } := by
    intro events sampling
    induction events with
    | nil => exact inv
    | cons event events ih =>
      have before := ih fun other member => sampling other (List.mem_cons_of_mem _ member)
      have isSampling := sampling event List.mem_cons_self
      cases event with
      | effect utc effect => cases isSampling
      | _ => exact ⟨⟨trivial, before.limited⟩, before.windows, before.accounts⟩
  have extended := kept events sampling
  exact ⟨trace ▸ extended.limited, trace ▸ extended.windows, trace ▸ file ▸ extended.accounts⟩

/-- One adapter's part of a sample adds events of a sample. -/
theorem sampleAdapter_sampling (runtime : Runtime Ledger) (tick : Nat) (policy : Policy)
    (ledger : Ledger)
    (answers : Guid → AdapterAnswers) (state : Script × List Event) (entry : Entry) :
    ∃ events, (sampleAdapter runtime tick policy ledger answers state entry).2 = events ++ state.2 ∧
      ∀ event ∈ events, event.sampling = true := by
  unfold sampleAdapter
  dsimp only
  split
  · exact ⟨[.looked tick entry.guid none], rfl, by simp [Event.sampling]⟩
  · rename_i look isLook
    split
    · exact ⟨[.looked tick entry.guid (some look)], rfl, by simp [Event.sampling]⟩
    · rename_i action isAction
      split
      · refine ⟨[.request tick action entry.guid look.utc, .looked tick entry.guid (some look)], ?_,
          by simp [Event.sampling]⟩
        split <;> rfl
      · exact ⟨[.looked tick entry.guid (some look)], rfl, by simp [Event.sampling]⟩

theorem foldl_sampleAdapter_sampling (runtime : Runtime Ledger) (tick : Nat) (policy : Policy)
    (ledger : Ledger)
    (answers : Guid → AdapterAnswers) : ∀ (entries : List Entry) (state : Script × List Event),
    ∃ events, (entries.foldl (sampleAdapter runtime tick policy ledger answers) state).2 =
      events ++ state.2 ∧ ∀ event ∈ events, event.sampling = true
  | [], _ => ⟨[], rfl, nofun⟩
  | entry :: entries, state => by
    obtain ⟨first, isFirst, sampling⟩ :=
      sampleAdapter_sampling runtime tick policy ledger answers state entry
    obtain ⟨rest, isRest, samplingRest⟩ :=
      foldl_sampleAdapter_sampling runtime tick policy ledger answers entries
      (sampleAdapter runtime tick policy ledger answers state entry)
    refine ⟨rest ++ first, ?_, List.forall_mem_append.mpr ⟨samplingRest, sampling⟩⟩
    rw [List.foldl_cons, isRest, isFirst, List.append_assoc]

theorem testPhysicalRecovery_sampling (runtime : Runtime Ledger) (tick : Nat)
    (answers : SampleAnswers) (world : World) :
    (testPhysicalRecovery runtime tick answers world).file = world.file ∧
      ∃ events, (testPhysicalRecovery runtime tick answers world).trace = events ++ world.trace ∧
        ∀ event ∈ events, event.sampling = true := by
  unfold testPhysicalRecovery
  split
  · exact ⟨rfl, [], rfl, nofun⟩
  · rename_i script due
    split
    · exact ⟨rfl, [.sample tick []], rfl, by simp [Event.sampling]⟩
    · exact ⟨rfl, [.sample tick []], rfl, by simp [Event.sampling]⟩
    · rename_i policy isOn
      split
      · exact ⟨rfl, [.sample tick []], rfl, by simp [Event.sampling]⟩
      · rename_i ledger isRead
        obtain ⟨events, trace, sampling⟩ :=
          foldl_sampleAdapter_sampling runtime tick policy ledger answers.adapters
          policy.adapters (script, .sample tick (policy.adapters.map Entry.guid) :: world.trace)
        refine ⟨rfl, events ++ [.sample tick (policy.adapters.map Entry.guid)], ?_,
          List.forall_mem_append.mpr ⟨sampling, by simp [Event.sampling]⟩⟩
        rw [List.append_assoc]
        exact trace

theorem step_inv {world world' : World} {label : Label} (inv : Inv runtime world)
    (step : Step runtime world label world') : Inv runtime world' := by
  cases label with
  | sample tick answers =>
    obtain rfl : world' = _ := step
    obtain ⟨file, events, trace, sampling⟩ :=
      testPhysicalRecovery_sampling runtime tick answers world
    exact inv.sampling file trace sampling
  | recover arguments answers effects =>
    obtain rfl : world' = _ := step
    exact (invoke_throughout inv arguments answers).take effects
  | restart =>
    obtain rfl : world' = _ := step
    exact ⟨inv.1, inv.2, inv.3⟩

/-- A world in which nothing has been issued, with any ledger file. -/
def Fresh (world : World) : Prop :=
  world.trace = []

theorem inv_fresh (fresh : Fresh world) : Inv runtime world := by
  obtain ⟨script, file, trace⟩ := world
  obtain rfl : trace = [] := fresh
  refine ⟨trivial, fun _ => trivial, fun ledger _ guid => ?_⟩
  cases Ledger.find ledger guid with
  | none => exact ⟨rfl, rfl⟩
  | some budget => exact ⟨nofun, Nat.zero_le _, nofun⟩

/-- **Hardware restarts are limited across crashes.**  In every sequence of samples and executor
runs, each run dying after any of its effects, whatever the clocks read: every effect rests on the
ledger as `Limited` says, each budget window holds at most two restarts of an adapter, and any hour
at most four. -/
theorem restarts_limited (runtime : Runtime Ledger) {labels : List Label} {world : World}
    (run : Run Fresh (Step runtime) labels world) :
    Verified (Limited runtime) world.trace ∧ ∀ guid,
      (∀ start, countedIn start (restarts guid world.trace) ≤ 2) ∧
      ∀ from_, (restarts guid world.trace).countP
        (fun grant => decide (from_ ≤ grant.time) && decide (grant.time ≤ from_ + hour)) ≤ 4 := by
  have inv : Inv runtime world := Run.invariant (fun _ world => Inv runtime world)
    (fun _ fresh => inv_fresh fresh)
    (fun _ _ _ _ inv step => step_inv inv step) run
  exact ⟨inv.limited, fun guid => ⟨Grant.count_start_le (inv.windows guid),
    Grant.count_span_le (inv.windows guid)⟩⟩

/-! ## Poles -/

/-- Strings are compared as they are, and ledgers are short. -/
def plainRuntime : Runtime Ledger :=
  ⟨fun profile other => profile == other, fun _ => 500⟩

def wired : Entry := ⟨1, 6, []⟩

def wiredPolicy : Policy := ⟨true, [wired], by decide, by decide⟩

def stalled : Snapshot where
  guid := 1
  index := 5
  type := 6
  hardware := true
  paused := true
  lowPower := false
  adminUp := true
  linkUp := true
  sentBytes := 100
  receivedBytes := 200

/-- A run in which everything confirms a stalled Ethernet adapter. -/
def confirming (now : Nat) : Answers where
  lease := true
  enrolment := .on wiredPolicy
  enabled := true
  snapshot := some stalled
  now := now
  wireless := none
  intent := none
  tick := 1000000
  route := .preferred 5
  filtersValid := true
  serviceRuns := true
  reserved := true
  recorded := true
  inventory := some ⟨5, true, true, true⟩
  enrolmentAgain := .on wiredPolicy
  routeAgain := .preferred 5
  fresh := some stalled
  enabledAgain := true
  freshIntent := none
  freshWireless := none
  restartCompletes := true
  radioReady := false
  scanStarts := false
  latestIntent := none
  radio := none
  latestEnrolment := .on wiredPolicy
  enabledStill := true
  routeStill := .preferred 5
  connects := false
  refreshed := false

def resetOne : Arguments := ⟨1, .resetPaused, 3, none, some 0, none⟩

/-- The ledger as enrolment creates it. -/
def enrolledWorld : World :=
  ⟨none, .text 26 (some ⟨true, []⟩), []⟩

/-- A run of the executor to its end, at a number of seconds after some beginning. -/
def restartAt (seconds : Nat) (world : World) : World :=
  ((invokePhysicalRecovery plainRuntime resetOne
    (confirming (10 ^ 17 + seconds * second)) world.file).take 9).foldl
    (World.emit plainRuntime (10 ^ 17 + seconds * second)) world

def restartLabel (seconds : Nat) : Label :=
  .recover resetOne (confirming (10 ^ 17 + seconds * second)) 9

/-- Four restarts, two in each of two windows. -/
def restartedFour : World :=
  restartAt 4200 (restartAt 3600 (restartAt 3000 (restartAt 0 enrolledWorld)))

theorem restartedFour_run : Run Fresh (Step plainRuntime)
    [restartLabel 4200, restartLabel 3600, restartLabel 3000, restartLabel 0] restartedFour :=
  .next (.next (.next (.next (.start (rfl : enrolledWorld.trace = [])) rfl) rfl) rfl) rfl

theorem restarts_limited_four : (restarts 1 restartedFour.trace).length = 4 ∧
    (restarts 1 restartedFour.trace).countP (fun grant => decide (10 ^ 17 + 3000 * second ≤
      grant.time) &&
      decide (grant.time ≤ 10 ^ 17 + 3000 * second + hour)) ≤ 4 :=
  ⟨by decide +kernel, ((restarts_limited plainRuntime restartedFour_run).2 1).2 _⟩

/-- **Three restarts in twenty minutes:** the last one of the first window and both of the next. -/
theorem three_restarts_in_twenty_minutes :
    (∃ labels, Run Fresh (Step plainRuntime) labels restartedFour) ∧
    (restarts 1 restartedFour.trace).map Grant.time =
      [10 ^ 17 + 4200 * second, 10 ^ 17 + 3600 * second, 10 ^ 17 + 3000 * second,
        10 ^ 17 + 0 * second] := by
  refine ⟨⟨_, restartedFour_run⟩, ?_⟩
  decide +kernel

end ProgramSplit.Windows.Recovery
