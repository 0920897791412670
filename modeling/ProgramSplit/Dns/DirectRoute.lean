/-
# Dns.DirectRoute — a direct route never goes against fresh evidence

`Inv` carries the invariant of every key (`KeyInv`), the block times set by lost
and dropped events, and the provenance of the decisions handlers act on, through
every step of the dispatcher (`Inv.step`) and so through every run
(`reaches_inv`).

* `take_direct_evidence` — when `take` returns the direct route, an unlisted event
  of the key is less than a lifetime old; no unknown, lost or dropped event is;
  and every selected event that young was answered through the tunnel at least a
  reuse window ago.
-/
import ProgramSplit.Dns.Evidence

namespace ProgramSplit.Dns

open Lib Dispatcher

set_option autoImplicit false

/-- When an attribution event or a loss happened. -/
def Event.time? : Event → Option Nat
  | .recorded _ _ _ now => some now
  | .dropped now => some now
  | .lost now => some now
  | _ => none

/-- The invariant of a run of the dispatcher. -/
structure Inv (events : List Event) (s : Dispatcher) : Prop where
  past : ∀ e ∈ events, ∀ t, e.time? = some t → t ≤ s.clock
  keys : ∀ key, KeyInv key s.hints.reuseWindow events s.clock s.hints.generations
    (s.hints.entry key)
  blocked : ∀ t, Event.lost t ∈ events → t + lifetime ≤ s.hints.directBlockedUntil
  overloaded : ∀ t, Event.dropped t ∈ events → t + lifetime ≤ s.hints.overloadedUntil
  issued : ∀ i route, (s.handlers i).route? = some route → Event.decided i route ∈ events

theorem Inv.initial (s : Dispatcher) (fresh : s.Initial) : Inv [] s := by
  obtain ⟨⟨included, window, hints⟩, _, idle⟩ := fresh
  refine ⟨by simp, fun key => ?_, by simp, by simp, fun i route h => ?_⟩
  · rw [hints]
    exact KeyInv.initial key window s.clock
  · simp [idle i, Handler.route?] at h

variable {events : List Event} {s s' : Dispatcher} {e : Event}

theorem Inv.past_cons (inv : Inv events s) (later : s.clock ≤ s'.clock)
    (own : ∀ t, e.time? = some t → t ≤ s'.clock) :
    ∀ e' ∈ e :: events, ∀ t, e'.time? = some t → t ≤ s'.clock := by
  intro e' mem t at_
  rcases List.mem_cons.mp mem with rfl | mem
  · exact own t at_
  · exact (inv.past e' mem t at_).trans later

/-- The invariant of a key a step consulted. -/
theorem Inv.consulted (inv : Inv events s) {key : WString} {allowDirect : Bool} {now : Nat}
    {route : Option Bool} (later : s.clock ≤ now)
    (hints : s.hints.Consulted key allowDirect now s'.hints route) (k : WString) :
    ∀ {e' : Event}, e'.Beside k →
      KeyInv k s'.hints.reuseWindow (e' :: events) now s'.hints.generations (s'.hints.entry k) := by
  intro e' beside
  have moved := (inv.keys k).cons later le_rfl beside
  rw [hints.reuseWindow, hints.generations]
  by_cases same : k = key
  · subst same
    rcases hints.own with ⟨_, swept⟩ | ⟨p, found, _, left, _⟩
    · exact moved.sweep swept
    · rw [left]
      rw [found] at moved
      exact moved.decide _
  · exact moved.sweep (hints.others k same)

/-- The entry a decision was made on, and what a direct one says about it. -/
theorem Inv.decided_entry (inv : Inv events s) {key : WString} {allowDirect tunnel : Bool}
    {now : Nat} (later : s.clock ≤ now)
    (hints : s.hints.Consulted key allowDirect now s'.hints (some tunnel)) :
    KeyInv key s'.hints.reuseWindow events now s'.hints.generations (s'.hints.entry key) ∧
      ∀ q, s'.hints.entry key = some q → tunnel = false → q.tunnel = false := by
  rw [hints.reuseWindow, hints.generations]
  rcases hints.own with ⟨none_, _⟩ | ⟨p, found, _, left, routed⟩
  · cases none_
  · have moved := (inv.keys key).advance later
    rw [found] at moved
    rw [left]
    refine ⟨moved.decide _, fun q entry direct => ?_⟩
    subst direct
    obtain ⟨_, _, q', entry', plain⟩ := decide_direct (moved.live p rfl).1.toShape routed.symm
    rw [entry'] at entry
    cases entry
    exact plain

/-- What a step has to show: the keys; a block time that starts with the step, or stays where the
step is no loss; and no route but the one it decides. -/
theorem Inv.extend (inv : Inv events s) (later : s.clock ≤ s'.clock)
    (own : ∀ t, e.time? = some t → t ≤ s'.clock)
    (keys : ∀ key, KeyInv key s'.hints.reuseWindow (e :: events) s'.clock s'.hints.generations
    (s'.hints.entry key)) (blocked : s'.hints.directBlockedUntil = s'.clock + lifetime ∨
      (∀ t, e ≠ .lost t) ∧ s'.hints.directBlockedUntil = s.hints.directBlockedUntil)
    (overloaded : s'.hints.overloadedUntil = s'.clock + lifetime ∨
      (∀ t, e ≠ .dropped t) ∧ s'.hints.overloadedUntil = s.hints.overloadedUntil)
    (routes : ∀ i route, (s'.handlers i).route? = some route → (s.handlers i).route? = some route ∨
      e = .decided i route) :
    Inv (e :: events) s' := by
  have past := inv.past_cons later own
  refine ⟨past, keys, fun t mem => ?_, fun t mem => ?_, fun i route at_ => ?_⟩
  · rcases blocked with starts | ⟨other, stays⟩
    · have := past _ mem t rfl
      omega
    · rw [stays]
      exact inv.blocked t ((List.mem_cons.mp mem).resolve_left (other t).symm)
  · rcases overloaded with starts | ⟨other, stays⟩
    · have := past _ mem t rfl
      omega
    · rw [stays]
      exact inv.overloaded t ((List.mem_cons.mp mem).resolve_left (other t).symm)
  · rcases routes i route at_ with kept | rfl
    · exact List.mem_cons_of_mem _ (inv.issued i route kept)
    · exact List.mem_cons_self

theorem Event.not_loss (untimed : e.time? = none) : (∀ t, e ≠ .lost t) ∧ ∀ t, e ≠ .dropped t := by
  constructor <;> rintro t rfl <;> cases untimed

/-- Steps that touch no hint keep the invariant. -/
theorem Inv.same (inv : Inv events s) (later : s.clock ≤ s'.clock)
    (hints : SameHints s.hints s'.hints) (handlers : NoNewRoute s s')
    (beside : ∀ key, e.Beside key) (untimed : e.time? = none) : Inv (e :: events) s' := by
  have entry : ∀ key, s'.hints.entry key = s.hints.entry key := fun key => by rw [hints]; rfl
  have other := Event.not_loss untimed
  refine inv.extend later (by simp [untimed]) (fun key => ?_) (.inr ⟨other.1, by rw [hints]⟩)
    (.inr ⟨other.2, by rw [hints]⟩)
    fun i route at_ => .inl (handlers.route i route at_)
  rw [entry key, hints]
  exact (inv.keys key).cons later le_rfl (beside key)

/-- **Every step keeps the invariant.** -/
theorem Inv.step (inv : Inv events s) (taken : Step s e s') : Inv (e :: events) s' := by
  cases taken.effect with
  | @recorded _ key source generation now later clock hints stamped handlers =>
    refine inv.extend (clock ▸ later) (by simp [Event.time?, clock]) (fun k => ?_)
      (.inr ⟨by simp, hints.directBlockedUntil⟩) (.inr ⟨by simp, hints.overloadedUntil⟩)
      fun i route at_ => .inl (handlers ▸ at_)
    rw [stamped, hints.generations, hints.reuseWindow, clock]
    by_cases same : k = key
    · subst same
      rw [hints.own]
      have moved := (inv.keys k).advance later
      refine moved.record (fun _ g t mem => ?_) source
      exact (inv.past _ mem t rfl).trans later
    · have moved := (inv.keys k).cons later (Nat.le_succ _)
        (e := .recorded key source (s.hints.generations + 1) now)
        ⟨fun _ _ _ h => by cases h; exact same rfl, by simp⟩
      exact moved.sweep (hints.others k same)
  | @dropped _ now later clock hints handlers =>
    refine inv.extend (clock ▸ later) (by simp [Event.time?, clock]) (fun k => ?_)
      (.inr ⟨by simp, hints.directBlockedUntil⟩) (.inl (by rw [hints.overloadedUntil, clock]))
      fun i route at_ => .inl (handlers ▸ at_)
    rw [hints.generations, hints.reuseWindow, clock]
    exact ((inv.keys k).cons later le_rfl ⟨by simp, by simp⟩).sweep (hints.entries k)
  | @lost _ now later clock hints handlers =>
    refine inv.extend (clock ▸ later) (by simp [Event.time?, clock]) (fun k => ?_)
      (.inl (by rw [hints, clock]; rfl)) (.inr ⟨by simp, by rw [hints]; rfl⟩) fun i route at_ =>
      .inl (handlers ▸ at_)
    have moved := (inv.keys k).cons later le_rfl (e := .lost now) ⟨by simp, by simp⟩
    rw [hints, clock]
    rcases s.hints.lostEvents_entry now k with same | ⟨p, found, plain, past, gone⟩
    · rw [same]
      exact moved
    · rw [gone]
      rw [found] at moved
      exact moved.remove (Or.inr ⟨plain, past⟩)
  | @decided _ i route allowDirect q later clock hints stamped spared handlers =>
    refine inv.extend (clock ▸ later) (by simp [Event.time?]) (fun k => ?_)
      (.inr ⟨by simp, hints.directBlockedUntil⟩)
      (.inr ⟨by simp, hints.overloadedUntil⟩) fun j other at_ => ?_
    · rw [clock]
      by_cases same : k = route.key
      · subst same
        have consulted := inv.decided_entry later hints
        rw [stamped.1] at consulted ⊢
        exact consulted.1.decided stamped.2 (consulted.2 q rfl)
      · exact inv.consulted later hints k ⟨by simp, fun j other h => by cases h; exact Ne.symm same⟩
    · by_cases own : j = i
      · subst own
        rw [handlers.1] at at_
        cases at_
        exact .inr rfl
      · exact .inl (handlers.2 j own ▸ at_)
  | @consulted _ _ key allowDirect now route later clock which hints handlers =>
    obtain ⟨i, which⟩ := which
    have beside : ∀ k, e.Beside k := by
      rcases which with rfl | rfl <;> exact fun k => ⟨by simp, by simp⟩
    have untimed : e.time? = none := by rcases which with rfl | rfl <;> rfl
    have other := Event.not_loss untimed
    refine inv.extend (clock ▸ later) (by simp [untimed]) (fun k => ?_)
      (.inr ⟨other.1, hints.directBlockedUntil⟩)
      (.inr ⟨other.2, hints.overloadedUntil⟩) fun j other at_ => .inl (handlers.route j other at_)
    rw [clock]
    exact inv.consulted later hints k (beside k)
  | quiet later which hints handlers =>
    have beside : ∀ k, e.Beside k := by
      rcases which with rfl | rfl | ⟨_, _, rfl⟩ | ⟨_, rfl⟩ | ⟨_, _, _, rfl⟩ | ⟨_, _, _, rfl⟩ <;>
        exact fun k => ⟨by simp, by simp⟩
    have untimed : e.time? = none := by
      rcases which with rfl | rfl | ⟨_, _, rfl⟩ | ⟨_, rfl⟩ | ⟨_, _, _, rfl⟩ | ⟨_, _, _, rfl⟩ <;> rfl
    exact inv.same later hints handlers beside untimed
  | delivered later clock hints confirming safe handlers =>
    exact inv.same (clock ▸ later) (by rw [SameHints, hints]) handlers
      (fun k => ⟨by simp, by simp⟩) rfl
  | @completed _ i route now later clock hints closing handlers =>
    have fields := s.hints.complete_fields route.key (some route.generation) now
    refine inv.extend (clock ▸ later) (by simp [Event.time?]) (fun k => ?_)
      (.inr ⟨by simp, by rw [hints, fields.2.1]⟩)
      (.inr ⟨by simp, by rw [hints, fields.2.2.1]⟩) fun j other at_ => .inl (handlers.route j other at_)
    have moved := (inv.keys k).advance later
    rw [hints, clock, fields.1, fields.2.2.2, Hints.complete_entry]
    split_ifs with same
    · subst same
      cases found : s.hints.entry route.key with
      | none =>
        rw [found] at moved
        exact moved.cons le_rfl le_rfl ⟨by simp, by simp⟩
      | some p =>
        rw [found] at moved
        exact moved.complete rfl (inv.issued i route closing)
    · exact moved.cons le_rfl le_rfl ⟨by simp, by simp⟩

theorem reaches_inv (run : Reaches events s) : Inv events s :=
  Run.invariant Inv Inv.initial (fun _ _ _ _ inv taken => inv.step taken) run

/-- **A direct route never goes against fresh evidence.** When `take` returns the
direct route for a key at time `d`: an unlisted event of the key was recorded in
`(d - 10s, d]`; no unknown event of the key, no loss and no dropped event happened
then; and every selected event of the key recorded then was followed by a tunnel
decision for the key and, later, by a completed exchange of the key at least a
reuse window before `d`. -/
theorem take_direct_evidence {events : List Event} {s : Dispatcher} {i : Nat} {route : Route}
    (run : Reaches (.decided i route :: events) s) (direct : route.tunnel = false) :
    (∃ source g u, source.Unlisted ∧ Event.recorded route.key source g u ∈ events ∧
      route.decidedAt < u + lifetime ∧ u ≤ route.decidedAt) ∧
    (∀ t, (∃ source g, source.Unknown ∧ Event.recorded route.key source g t ∈ events) ∨
      Event.lost t ∈ events ∨ Event.dropped t ∈ events → t + lifetime ≤ route.decidedAt) ∧
    ∀ since before source g t, source.Selected →
      events = since ++ Event.recorded route.key source g t :: before →
      route.decidedAt < t + lifetime →
        ∃ c, TunnelAnswered route.key since c ∧ c + s.hints.reuseWindow ≤ route.decidedAt := by
  cases run with
  | @next _ _ s₀ _ before taken =>
    have inv := reaches_inv before
    cases taken.effect with
    | consulted later clock which => obtain ⟨_, h | h⟩ := which <;> cases h
    | quiet later which => simp at which
    | @decided _ _ _ allowDirect q later clock hints stamped spared handlers =>
      rcases hints.own with ⟨none_, _⟩ | ⟨p, found, live, left, routed⟩
      · cases none_
      have key := (inv.keys route.key).advance later
      rw [found] at key
      have good := (key.live p rfl).1
      rw [direct] at routed
      obtain ⟨plain, evidence, _⟩ := decide_direct good.toShape routed.symm
      have allowed := Hints.decide_direct_allowed routed.symm
      simp only [Hints.directAllowed, Bool.and_eq_true, Nat.ble_eq] at allowed
      refine ⟨?_, fun t fresh => ?_, fun since earlier source g t selected split young => ?_⟩
      · obtain ⟨source, g, u, unlisted, mem, within⟩ := good.direct evidence plain
        have := inv.past _ mem u rfl
        exact ⟨source, g, u, Source.evidence_unlisted.mp unlisted, mem, by omega, by omega⟩
      · rcases fresh with ⟨source, g, unknown, mem⟩ | mem | mem
        · rcases key.unknown source g t (Source.evidence_unknown.mpr unknown) mem with
            old | ⟨q, same, quarantine⟩
          · exact old
          · cases same
            omega
        · have := inv.blocked t mem
          omega
        · have := inv.overloaded t mem
          have := spared direct
          omega
      · rw [hints.reuseWindow]
        rcases key.selected since earlier source g t (Source.evidence_selected.mpr selected)
          split with old | answered | ⟨q, same, held⟩
        · omega
        · exact answered
        · cases same
          rw [held.tunnel] at plain
          cases plain

/-- An unlisted process asks for `a`, and the query that follows is routed direct. -/
theorem take_direct_evidence_unlisted :
    ∃ events s, Reaches (.decided 0 ⟨makeKey [0x61] 1, false, 1, 2⟩ :: events) s ∧
      ∃ source g u, source.Unlisted ∧ Event.recorded (makeKey [0x61] 1) source g u ∈ events ∧
        2 < u + lifetime ∧ u ≤ 2 := by
  obtain ⟨s, run⟩ : ∃ s, Reaches [.decided 0 ⟨makeKey [0x61] 1, false, 1, 2⟩,
      .waited 0 (makeKey [0x61] 1) 1, .recorded (makeKey [0x61] 1) ⟨[0x62], ∅⟩ 1 1, .classified] s :=
    reaches_of_schedule ∅ defaultReuseWindow
      [.classify 0 [0x61] 1 [0x62], .record 0 1, .take 0 [0x61] 1 1 1, .pass 0 true 2 2]
      (by decide +kernel)
  exact ⟨_, s, run, (take_direct_evidence run rfl).1⟩

end ProgramSplit.Dns
