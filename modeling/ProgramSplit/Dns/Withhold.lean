/-
# Dns.Withhold — when a direct answer is withheld

The Windows DNS Client merges a lookup into an identical one in flight, so a
selected application's lookup may receive the answer of another process's direct
exchange. `directAnswerUnsafe` is asked before a direct answer is delivered and
looks at the present entry of the key. The entry forgets tunnel evidence once the
exchange that claimed it has been answered for a reuse window (`retire`), and the
window (3 s) is shorter than an exchange (4 s): an event or a take of the key that
arrives in between can drop the evidence the lookup needs
(`delivered_after_selected`).

* `delivered_undisturbed` — in every run in which no event or take of a key finds
  forgettable tunnel evidence while a direct exchange of the key is in flight, and
  every lookup comes within a lifetime of its decision, a delivered direct answer
  had no selected event, no unknown event, no loss and no dropped event between
  the decision and the lookup.
-/
import ProgramSplit.Dns.DirectRoute

namespace ProgramSplit.Dns

open Lib Dispatcher

set_option autoImplicit false

/-- Tunnel evidence that `retire` would drop at `now`: claimed by a tunnel decision
whose exchange has been answered for a reuse window. -/
def Pending.forgettable (reuseWindow : Nat) (p : Pending) (now : Nat) : Bool :=
  p.tunnel && p.answered && !(p.retire reuseWindow now).tunnel

/-- The event retires the entry: `addResolved` always retires an answered entry,
`decide` only once its own answer is a reuse window old. -/
def Retires (h : Hints) : Event → WString → Prop
  | .recorded key _ _ now, k =>
    key = k ∧ ∃ p, h.entry k = some p ∧ p.forgettable h.reuseWindow now = true
  | .refused _ key now, k | .waited _ key now, k =>
    key = k ∧ ∃ p, h.entry k = some p ∧ p.forgettable h.reuseWindow now = true ∧
      h.reuseWindow ≤ now - p.answeredAt
  | _, _ => False

/-- The condition on a step: it does not retire forgettable tunnel evidence of a key
while a direct exchange of the key is in flight, and it is not a lookup made a
lifetime or more after its decision. -/
def Undisturbed (s : Dispatcher) (e : Event) : Prop :=
  (∀ i route, (s.handlers i).inFlight? = some route → route.tunnel = false →
    ¬ Retires s.hints e route.key) ∧
  ∀ i route now, e = .delivered i route now → now < route.decidedAt + lifetime

/-- Runs whose every step meets the condition. -/
abbrev ReachesUndisturbed : List Event → Dispatcher → Prop :=
  Run Initial fun s e s' => Undisturbed s e ∧ Step s e s'

/-- What holds of a handler's direct decision while it is in flight; `mid` is what
has happened since. -/
structure Flight (s : Dispatcher) (route : Route) (mid : List Event) : Prop where
  since : route.decidedAt ≤ s.clock
  after : ∀ e ∈ mid, ∀ t, e.time? = some t → route.decidedAt ≤ t
  selected : ∀ source g t, source.evidence = .selected → Event.recorded route.key source g t ∈ mid →
    t + lifetime ≤ s.clock ∨ ∃ p, s.hints.entry route.key = some p ∧ p.tunnel = true

/-- Every direct decision in flight, with the events since its handler made it. -/
def Flights (events : List Event) (s : Dispatcher) : Prop :=
  ∀ i route, (s.handlers i).inFlight? = some route → route.tunnel = false →
    ∀ mid before, events = mid ++ Event.decided i route :: before →
      (∀ other, Event.decided i other ∉ mid) → Flight s route mid

/-! ## Tunnel evidence survives undisturbed steps -/

variable {events : List Event} {s s' : Dispatcher} {e : Event} {key : WString} {p : Pending}
  {window now : Nat}

theorem lapse_of_tunnel (tunnel : p.tunnel = true) :
    (p.lapse now).entry = some { p with decision := .tunnel } := by
  unfold Pending.lapse
  rw [if_neg (by simp [tunnel]), if_pos tunnel]

theorem lapse_of_plain (plain : p.tunnel = false) : (p.lapse now).route = none := by
  unfold Pending.lapse
  rw [if_neg (show ¬ p.tunnel = true by simp [plain])]
  split_ifs <;> rfl

/-- `decide` keeps tunnel evidence, or finds it forgettable and gives no route. -/
theorem decide_keeps_tunnel (tunnel : p.tunnel = true) (allowed : Bool) :
    (∃ q, (p.decide window allowed now).entry = some q ∧ q.tunnel = true) ∨
      p.forgettable window now = true ∧ window ≤ now - p.answeredAt ∧
        (p.decide window allowed now).route = none := by
  unfold Pending.decide
  split_ifs with answered newer ended reuse claimed direct
  · exact Or.inl ⟨_, rfl, tunnel⟩
  · have decision : p.decision = .tunnel := by simpa [tunnel] using newer
    have old : window ≤ now - p.answeredAt := ended.resolve_left (by simp [decision])
    cases kept : (p.retire window now).tunnel with
    | true =>
      exact Or.inl ⟨_, lapse_of_tunnel kept, kept⟩
    | false =>
      exact Or.inr ⟨by simp [Pending.forgettable, tunnel, answered, kept], old,
        lapse_of_plain kept⟩
  · exact Or.inl ⟨_, rfl, tunnel⟩
  · exact Or.inl ⟨_, rfl, tunnel⟩
  · exact Or.inl ⟨_, rfl, tunnel⟩
  · exact absurd (Or.inl tunnel) claimed
  · exact absurd (Or.inl tunnel) claimed

theorem add_keeps_tunnel (tunnel : p.tunnel = true) (live : now < p.expires)
    (kept : p.forgettable window now = false) (evidence : Evidence) (g : Nat) :
    (p.add window evidence g now).tunnel = true := by
  have renewed : (p.renew window now).tunnel = true := by
    unfold Pending.renew
    split_ifs with expired answered
    · omega
    · simpa [Pending.forgettable, tunnel, answered] using kept
    · exact tunnel
  simp [Pending.add, renewed]

theorem complete_tunnel (g : Nat) :
    (p.complete window (some g) now).tunnel = p.tunnel := by
  rw [complete_eq]
  split_ifs <;> simp

theorem swept_keeps_tunnel {old new : Option Pending} (swept : Hints.Swept now old new)
    (found : old = some p) : new = some p ∨ p.expires ≤ now := by
  rcases swept with rfl | ⟨q, same, expired, rfl⟩
  · exact Or.inl found
  · rw [found] at same
    cases same
    exact Or.inr expired

/-- One step keeps the tunnel evidence of a key until its entry expires, unless the
step retires it. -/
theorem step_keeps_tunnel (effect : Effect s e s') (found : s.hints.entry key = some p)
    (tunnel : p.tunnel = true) (kept : ¬ Retires s.hints e key) :
    (∃ q, s'.hints.entry key = some q ∧ q.tunnel = true) ∨ p.expires ≤ s'.clock := by
  cases effect with
  | @recorded _ key' source generation now later clock hints stamped handlers =>
    rw [clock]
    by_cases same : key = key'
    · subst same
      by_cases live : now < p.expires
      · refine Or.inl ⟨_, hints.own, ?_⟩
        rw [found]
        refine add_keeps_tunnel tunnel live ?_ _ _
        by_contra forgettable
        exact kept ⟨rfl, p, found, by simpa using forgettable⟩
      · exact Or.inr (Nat.not_lt.mp live)
    · exact (swept_keeps_tunnel (hints.others key same) found).imp (fun h => ⟨p, h, tunnel⟩) id
  | dropped later clock hints handlers =>
    rw [clock]
    exact (swept_keeps_tunnel (hints.entries key) found).imp (fun h => ⟨p, h, tunnel⟩) id
  | @lost _ now later clock hints handlers =>
    rw [hints]
    rcases s.hints.lostEvents_entry now key with same | ⟨q, found', plain, _⟩
    · exact Or.inl ⟨p, same.trans found, tunnel⟩
    · rw [found] at found'
      cases found'
      rw [tunnel] at plain
      cases plain
  | @decided _ i route allowDirect q later clock hints stamped spared handlers =>
    rw [clock]
    by_cases same : key = route.key
    · subst same
      rcases hints.own with ⟨none_, _⟩ | ⟨p', found', _, left, routed⟩
      · cases none_
      · rw [found] at found'
        cases found'
        rcases decide_keeps_tunnel tunnel _ with ⟨q, entry, held⟩ | ⟨_, _, none_⟩
        · exact Or.inl ⟨q, left.trans entry, held⟩
        · rw [none_] at routed
          cases routed
    · exact (swept_keeps_tunnel (hints.others key same) found).imp (fun h => ⟨p, h, tunnel⟩) id
  | @consulted _ _ key' allowDirect now route later clock which hints handlers =>
    rw [clock]
    by_cases same : key = key'
    · subst same
      rcases hints.own with ⟨_, swept⟩ | ⟨p', found', _, left, _⟩
      · exact (swept_keeps_tunnel swept found).imp (fun h => ⟨p, h, tunnel⟩) id
      · rw [found] at found'
        cases found'
        rcases decide_keeps_tunnel tunnel _ with ⟨q, entry, held⟩ | ⟨forgettable, old, _⟩
        · exact Or.inl ⟨q, left.trans entry, held⟩
        · obtain ⟨i, rfl | rfl⟩ := which <;>
            exact absurd ⟨rfl, p, found, forgettable, old⟩ kept
    · exact (swept_keeps_tunnel (hints.others key same) found).imp (fun h => ⟨p, h, tunnel⟩) id
  | quiet later which hints handlers =>
    refine Or.inl ⟨p, ?_, tunnel⟩
    rw [hints]
    exact found
  | delivered later clock hints confirming safe handlers =>
    exact Or.inl ⟨p, by rw [hints]; exact found, tunnel⟩
  | @completed _ i route now later clock hints closing handlers =>
    rw [hints, Hints.complete_entry]
    split_ifs with same
    · subst same
      rw [found]
      exact Or.inl ⟨_, rfl, (complete_tunnel _).trans tunnel⟩
    · exact Or.inl ⟨p, found, tunnel⟩

theorem Dispatcher.Effect.clock_le (effect : Effect s e s') : s.clock ≤ s'.clock := by
  cases effect <;> omega

theorem Dispatcher.Effect.time_le (effect : Effect s e s') {t : Nat} (at_ : e.time? = some t) :
    s.clock ≤ t := by
  cases effect with
  | recorded later => cases at_; exact later
  | dropped later => cases at_; exact later
  | lost later => cases at_; exact later
  | decided => cases at_
  | consulted later clock which => obtain ⟨_, rfl | rfl⟩ := which <;> cases at_
  | quiet later which =>
    rcases which with rfl | rfl | ⟨_, _, rfl⟩ | ⟨_, rfl⟩ | ⟨_, _, _, rfl⟩ | ⟨_, _, _, rfl⟩ <;>
      cases at_
  | delivered => cases at_
  | completed => cases at_

/-- A handler's decision in flight was in flight before, unless this step made it. -/
theorem Dispatcher.Effect.inFlight (effect : Effect s e s') {i : Nat} {route : Route}
    (at_ : (s'.handlers i).inFlight? = some route) (other : ∀ r, e ≠ .decided i r) :
    (s.handlers i).inFlight? = some route := by
  cases effect with
  | recorded later clock hints stamped handlers => rwa [handlers] at at_
  | dropped later clock hints handlers => rwa [handlers] at at_
  | lost later clock hints handlers => rwa [handlers] at at_
  | @decided _ j r allowDirect q later clock hints stamped spared handlers =>
    have apart : i ≠ j := fun same => other r (by rw [same])
    rwa [handlers.2 i apart] at at_
  | consulted later clock which hints handlers => exact handlers.inFlight i route at_
  | quiet later which hints handlers => exact handlers.inFlight i route at_
  | delivered later clock hints confirming safe handlers => exact handlers.inFlight i route at_
  | completed later clock hints closing handlers => exact handlers.inFlight i route at_

theorem Dispatcher.Effect.decided_clock {i : Nat} {route : Route} (effect : Effect s (.decided i route) s') :
    s'.clock = route.decidedAt := by
  cases effect with
  | decided later clock => exact clock
  | consulted later clock which => obtain ⟨_, h | h⟩ := which <;> cases h
  | quiet later which => simp at which

theorem Dispatcher.Effect.selected_entry {source : Source} {g t : Nat}
    (selected : source.evidence = .selected) (effect : Effect s (.recorded key source g t) s') :
    ∃ p, s'.hints.entry key = some p ∧ p.tunnel = true := by
  cases effect with
  | recorded later clock hints => exact ⟨_, hints.own, by simp [Pending.add, selected]⟩
  | consulted later clock which => obtain ⟨_, h | h⟩ := which <;> cases h
  | quiet later which => simp at which

/-! ## Direct exchanges in flight -/

theorem Flights.initial (s : Dispatcher) (fresh : s.Initial) : Flights [] s := by
  intro i route at_
  simp [fresh.2.2 i, Handler.inFlight?] at at_

/-- **An undisturbed step keeps what a direct exchange in flight relies on.** -/
theorem Flights.step (flights : Flights events s) (inv : Inv events s) (ok : Undisturbed s e)
    (taken : Step s e s') : Flights (e :: events) s' := by
  intro i route at_ direct mid before split fresh
  have effect := taken.effect
  have later := effect.clock_le
  rcases cons_split split with ⟨rfl, first, _⟩ | ⟨mid, rfl, rest⟩
  · subst first
    exact ⟨effect.decided_clock.ge, by simp, by simp⟩
  · have before_ := effect.inFlight at_ fun r same => fresh r (by simp [same])
    have old := flights i route before_ direct mid before rest
      fun other mem => fresh other (List.mem_cons_of_mem _ mem)
    refine ⟨old.since.trans later, fun e' mem t time => ?_, fun source g t selected mem => ?_⟩
    · rcases List.mem_cons.mp mem with rfl | mem
      · exact old.since.trans (effect.time_le time)
      · exact old.after e' mem t time
    · rcases List.mem_cons.mp mem with first | mem
      · subst first
        exact Or.inr (effect.selected_entry selected)
      · rcases old.selected source g t selected mem with gone | ⟨p, found, tunnel⟩
        · exact Or.inl (gone.trans later)
        · rcases step_keeps_tunnel effect found tunnel (ok.1 i route before_ direct) with
            kept | expired
          · exact Or.inr kept
          · have outlives := ((inv.keys route.key).live p found).1.outlives source g t
              (by simp [rest, mem])
            exact Or.inl (by omega)

/-- A direct answer is delivered only past every block and quarantine, and without
tunnel evidence. -/
theorem directAnswerUnsafe_false {h : Hints} (safe : h.directAnswerUnsafe key true now = false) :
    h.directBlockedUntil ≤ now ∧ h.overloadedUntil ≤ now ∧
      ∀ p, h.entry key = some p → p.tunnel = false ∧ p.unknownUntil ≤ now := by
  unfold Hints.directAnswerUnsafe at safe
  simp only [Bool.not_true, Bool.false_eq_true, if_false] at safe
  split at safe
  · cases safe
  · refine ⟨by omega, by omega, fun p found => ?_⟩
    rw [found] at safe
    simpa using safe

/-- **A delivered direct answer was not merged into.** In every run whose steps are
undisturbed, nothing that should withhold a delivered direct answer happened between
its handler's decision and the lookup: no selected event and no unknown event of the
key, no loss and no dropped event. -/
theorem delivered_undisturbed {events mid before : List Event} {s : Dispatcher} {i now : Nat}
    {route : Route} (run : ReachesUndisturbed (.delivered i route now :: events) s)
    (direct : route.tunnel = false) (split : events = mid ++ Event.decided i route :: before)
    (latest : ∀ other, Event.decided i other ∉ mid) :
    (∀ source g t, source.Selected → Event.recorded route.key source g t ∉ mid) ∧
      (∀ source g t, source.Unknown → Event.recorded route.key source g t ∉ mid) ∧
      (∀ t, Event.lost t ∉ mid) ∧ ∀ t, Event.dropped t ∉ mid := by
  cases run with
  | @next _ _ s₀ _ before_ taken =>
    obtain ⟨ok, taken⟩ := taken
    have both : Inv events s₀ ∧ Flights events s₀ :=
      Run.invariant_of_ok Undisturbed (fun events s => Inv events s ∧ Flights events s)
        (fun s fresh => ⟨Inv.initial s fresh, Flights.initial s fresh⟩)
        (fun _ _ _ _ h ok taken => ⟨h.1.step taken, h.2.step h.1 ok taken⟩) before_
    obtain ⟨inv, flights⟩ := both
    have soon := ok.2 i route now rfl
    have within : ∀ e ∈ mid, e ∈ events := fun e mem => by simp [split, mem]
    cases taken.effect with
    | consulted later clock which => obtain ⟨_, h | h⟩ := which <;> cases h
    | quiet later which => simp at which
    | delivered later clock hints confirming safe handlers =>
      have flight := flights i route (by rw [confirming]; rfl) direct mid before split latest
      obtain ⟨unblocked, spared, clear⟩ := directAnswerUnsafe_false safe
      refine ⟨fun source g t selected mem => ?_, fun source g t unknown mem => ?_, fun t mem => ?_,
        fun t mem => ?_⟩
      · have after := flight.after _ mem t rfl
        rcases flight.selected source g t (Source.evidence_selected.mpr selected) mem with
          old | ⟨p, found, tunnel⟩
        · omega
        · rw [(clear p found).1] at tunnel
          cases tunnel
      · have after := flight.after _ mem t rfl
        rcases (inv.keys route.key).unknown source g t (Source.evidence_unknown.mpr unknown)
          (within _ mem) with old | ⟨p, found, quarantine⟩
        · omega
        · have := (clear p found).2
          omega
      · have after := flight.after _ mem t rfl
        have := inv.blocked t (within _ mem)
        omega
      · have after := flight.after _ mem t rfl
        have := inv.overloaded t (within _ mem)
        omega

/-- Enough for a step to be undisturbed: no entry holds tunnel evidence, and a
delivered answer is looked up in time. -/
def plain (s : Dispatcher) (e : Event) : Bool :=
  (s.hints.hints.entries.all fun entry => !entry.2.tunnel) &&
    match e with
    | .delivered _ route now => now < route.decidedAt + lifetime
    | _ => true

theorem undisturbed_of_plain (checked : plain s e = true) : Undisturbed s e := by
  simp only [plain, Bool.and_eq_true, List.all_eq_true] at checked
  have noTunnel : ∀ k p, s.hints.entry k = some p → p.tunnel = false := fun k p found => by
    simpa using checked.1 _ (AList.mem_lookup_iff.mp found)
  refine ⟨fun i route _ _ retires => ?_, fun i route now same => ?_⟩
  · unfold Retires at retires
    split at retires
    · obtain ⟨_, p, found, forgettable⟩ := retires
      simp [Pending.forgettable, noTunnel _ p found] at forgettable
    · obtain ⟨_, p, found, forgettable, _⟩ := retires
      simp [Pending.forgettable, noTunnel _ p found] at forgettable
    · obtain ⟨_, p, found, forgettable, _⟩ := retires
      simp [Pending.forgettable, noTunnel _ p found] at forgettable
    · exact retires
  · subst same
    simpa using checked.2

/-! ## Poles -/

/-- The query of an unlisted process, answered and delivered with nothing between. -/
theorem delivered_undisturbed_alone :
    ∃ s, ReachesUndisturbed
        ([.delivered 0 ⟨makeKey [0x61] 1, false, 1, 2⟩ 5, .exchanged 0 4, .exchanged 0 3] ++
          [.decided 0 ⟨makeKey [0x61] 1, false, 1, 2⟩, .waited 0 (makeKey [0x61] 1) 1,
            .recorded (makeKey [0x61] 1) ⟨[0x75], ∅⟩ 1 1, .classified]) s ∧
      ∀ t, Event.lost t ∉ [Event.exchanged 0 4, .exchanged 0 3] := by
  obtain ⟨s, run⟩ : ∃ s, ReachesUndisturbed _ s :=
    run_of_schedule (fun _ _ _ passed taken => ⟨undisturbed_of_plain passed, taken⟩)
      (start ∅ defaultReuseWindow) (start_initial _ _)
      [.classify 0 [0x61] 1 [0x75], .record 0 1, .take 0 [0x61] 1 1 1, .pass 0 true 2 2, .send 0 3,
        .respond 0 true 4, .confirm 0 true 5]
      (show _ = some
        ([.delivered 0 ⟨makeKey [0x61] 1, false, 1, 2⟩ 5, .exchanged 0 4, .exchanged 0 3] ++
          [.decided 0 ⟨makeKey [0x61] 1, false, 1, 2⟩, .waited 0 (makeKey [0x61] 1) 1,
            .recorded (makeKey [0x61] 1) ⟨[0x75], ∅⟩ 1 1, .classified]) by decide +kernel)
  exact ⟨s, run, (delivered_undisturbed run rfl rfl (by simp)).2.2.1⟩

/-- Handler 0's direct exchange of `a` is in flight when a selected process asks for
`a`; handler 1 claims and answers that lookup through the tunnel. More than a reuse
window later, and within handler 0's four seconds, an unlisted event retires the
evidence, and handler 0's answer is delivered. -/
theorem delivered_after_selected :
    ∃ mid before s route now source g t,
      Reaches (.delivered 0 route now :: (mid ++ Event.decided 0 route :: before)) s ∧
        route.tunnel = false ∧ (∀ other, Event.decided 0 other ∉ mid) ∧
        source.Selected ∧ Event.recorded route.key source g t ∈ mid := by
  obtain ⟨s, run⟩ := reaches_of_schedule {[0x73]} defaultReuseWindow
    [.classify 0 [0x61] 1 [0x75], .record 0 1, .take 0 [0x61] 1 1 1, .pass 0 true 2 2, .send 0 3,
      .classify 0 [0x61] 1 [0x73], .record 0 100000000,
      .take 1 [0x61] 1 150000000 150000000, .send 1 160000000, .respond 1 true 190000000,
      .complete 1 200000000,
      .classify 0 [0x61] 1 [0x75], .record 0 3300000000,
      .respond 0 true 3900000000, .confirm 0 true 3950000000]
    (show _ = some (.delivered 0 ⟨makeKey [0x61] 1, false, 1, 2⟩ 3950000000 ::
      ([.exchanged 0 3900000000, .recorded (makeKey [0x61] 1) ⟨[0x75], {[0x73]}⟩ 3 3300000000, .classified,
        .completed 1 ⟨makeKey [0x61] 1, true, 2, 150000000⟩ 200000000, .exchanged 1 190000000,
        .exchanged 1 160000000, .decided 1 ⟨makeKey [0x61] 1, true, 2, 150000000⟩,
        .recorded (makeKey [0x61] 1) ⟨[0x73], {[0x73]}⟩ 2 100000000, .classified, .exchanged 0 3] ++
      .decided 0 ⟨makeKey [0x61] 1, false, 1, 2⟩ ::
      [.waited 0 (makeKey [0x61] 1) 1, .recorded (makeKey [0x61] 1) ⟨[0x75], {[0x73]}⟩ 1 1, .classified]))
      by decide +kernel)
  exact ⟨_, _, s, _, _, ⟨[0x73], {[0x73]}⟩, 2, 100000000, run, rfl, by simp, ⟨by simp, by decide⟩, by simp⟩

end ProgramSplit.Dns
