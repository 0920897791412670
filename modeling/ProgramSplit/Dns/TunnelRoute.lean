/-
# Dns.TunnelRoute — a selected application stands behind every tunnel route

An entry carries tunnel evidence over from one exchange to the next, long after the event that brought it.

* `Effect.tunnels` — which steps let a key route into the tunnel.
* `tunnel_route_asked` — **in every run, a query is routed into the tunnel only if a selected
  application has asked for that name and type before.**
-/
import ProgramSplit.Dns.Dispatcher

namespace ProgramSplit.Dns

open Lib Dispatcher

set_option autoImplicit false

/-- The entry may route into the tunnel, now or once it is retired. -/
def Pending.Tunnels (p : Pending) : Prop :=
  p.tunnel = true ∨ p.decision = .tunnel ∨ p.selectedAnswered = true

/-- A key without an entry counts as one with a fresh entry. -/
def Hints.Tunnels (h : Hints) (key : WString) : Prop :=
  ((h.entry key).getD {}).Tunnels

variable {p : Pending} {window now : Nat} {key : WString} {events : List Event}
    {s s' : Dispatcher} {e : Event}

theorem retire_tunnels (tunnels : (p.retire window now).Tunnels) : p.Tunnels := by
  grind [Pending.Tunnels, Pending.retire]

theorem decide_tunnels {allowed : Bool} :
    (((p.decide window allowed now).entry.getD {}).Tunnels → p.Tunnels) ∧
    ((p.decide window allowed now).route = some true → p.Tunnels) := by
  unfold Pending.decide Pending.lapse
  grind [Pending.Tunnels, retire_tunnels]

theorem add_tunnels {evidence : Evidence} {g : Nat} (tunnels : (p.add window evidence g now).Tunnels) :
    evidence = .selected ∨ p.Tunnels := by
  unfold Pending.add Pending.renew at tunnels
  grind [Pending.Tunnels, retire_tunnels]

theorem complete_tunnels {entry : Option Pending} {g : Option Nat}
    (tunnels : ((entry.map fun p : Pending => p.complete window g now).getD
      {}).Tunnels) : (entry.getD {}).Tunnels := by
  cases entry with
  | none => exact tunnels
  | some p =>
    simp only [Option.map_some, Option.getD_some, Pending.complete, Pending.credit] at tunnels ⊢
    grind [Pending.Tunnels]

theorem swept_tunnels {old new : Option Pending} (swept : Hints.Swept now old new)
    (tunnels : (new.getD {}).Tunnels) :
    (old.getD {}).Tunnels := by
  rcases swept with rfl | ⟨_, _, _, rfl⟩
  · exact tunnels
  · simp [Pending.Tunnels] at tunnels

theorem consulted_tunnels {h h' : Hints} {k : WString} {allow : Bool} {route : Option Bool}
    (hints : h.Consulted k allow now h' route) (tunnels : h'.Tunnels key) : h.Tunnels key := by
  by_cases own : key = k
  · subst own
    rcases hints.own with ⟨-, swept⟩ | ⟨p, found, -, left, -⟩
    · exact swept_tunnels swept tunnels
    · rw [Hints.Tunnels, left] at tunnels
      rw [Hints.Tunnels, found]
      exact decide_tunnels.1 tunnels
  · exact swept_tunnels (hints.others key own) tunnels

/-- A key that may tunnel after a step could before, or the step records a selected event of it. -/
theorem Dispatcher.Effect.tunnels (effect : Effect s e s') (tunnels : s'.hints.Tunnels key) :
    s.hints.Tunnels key ∨ ∃ source g t, source.Selected ∧ e = .recorded key source g t := by
  cases effect with
  | @recorded _ k source g now _ _ hints =>
    by_cases own : key = k
    · subst own
      rw [Hints.Tunnels, hints.own] at tunnels
      rcases add_tunnels tunnels with selected | before
      · exact .inr ⟨source, g, now, Source.evidence_selected.mp selected, rfl⟩
      · exact .inl before
    · exact .inl (swept_tunnels (hints.others key own) tunnels)
  | dropped _ _ hints => exact .inl (swept_tunnels (hints.entries key) tunnels)
  | @lost _ now _ _ hints =>
    rw [Hints.Tunnels, hints] at tunnels
    rcases s.hints.lostEvents_entry now key with kept | ⟨_, _, _, _, gone⟩
    · rw [kept] at tunnels
      exact .inl tunnels
    · simp [gone, Pending.Tunnels] at tunnels
  | decided _ _ hints => exact .inl (consulted_tunnels hints tunnels)
  | consulted _ _ _ hints => exact .inl (consulted_tunnels hints tunnels)
  | quiet _ _ hints => exact .inl (by rw [hints] at tunnels; exact tunnels)
  | delivered _ _ hints => exact .inl (hints ▸ tunnels)
  | completed _ _ hints =>
    rw [Hints.Tunnels, hints, Hints.complete_entry] at tunnels
    split_ifs at tunnels with own
    · exact .inl (own ▸ complete_tunnels tunnels)
    · exact .inl tunnels

theorem tunnels_asked (run : Reaches events s) :
    ∀ key, s.hints.Tunnels key → ∃ source g t, source.Selected ∧ Event.recorded key source g t ∈ events := by
  refine Run.invariant (fun events s => ∀ key, s.hints.Tunnels key →
    ∃ source g t, source.Selected ∧ .recorded key source g t ∈ events) ?_ ?_ run
  · rintro s ⟨⟨included, window, hints⟩, -⟩ key tunnels
    simp [Hints.Tunnels, hints, Hints.entry, Pending.Tunnels] at tunnels
  · intro events e s s' asked taken key tunnels
    rcases taken.effect.tunnels tunnels with before | ⟨source, g, t, selected, rfl⟩
    · obtain ⟨source, g, t, selected, recorded⟩ := asked key before
      exact ⟨source, g, t, selected, List.mem_cons_of_mem _ recorded⟩
    · exact ⟨source, g, t, selected, List.mem_cons_self⟩

/-- **A selected application stands behind every tunnel route.** -/
theorem tunnel_route_asked {i : Nat} {route : Route} (run : Reaches (.decided i route :: events) s)
    (tunnel : route.tunnel = true) :
    ∃ source g t, source.Selected ∧ Event.recorded route.key source g t ∈ events := by
  cases run with
  | next before taken =>
    cases taken.effect with
    | consulted _ _ which => obtain ⟨_, h | h⟩ := which <;> cases h
    | quiet _ which => simp at which
    | decided _ _ hints =>
      refine tunnels_asked before _ ?_
      rcases hints.own with ⟨none_, -⟩ | ⟨p, found, -, -, routed⟩
      · cases none_
      · rw [Hints.Tunnels, found]
        exact decide_tunnels.2 (routed.symm.trans (congrArg some tunnel))

/-- A selected process asks for `a`, and the query that follows goes into the tunnel. -/
theorem tunnel_route_asked_selected :
    ∃ events s, Reaches (.decided 0 ⟨makeKey [0x61] 1, true, 1, 2⟩ :: events) s ∧
      ∃ source g t, source.Selected ∧ Event.recorded (makeKey [0x61] 1) source g t ∈ events := by
  obtain ⟨s, run⟩ : ∃ s, Reaches [.decided 0 ⟨makeKey [0x61] 1, true, 1, 2⟩,
      .recorded (makeKey [0x61] 1) ⟨[0x62], {[0x62]}⟩ 1 1, .classified] s :=
    reaches_of_schedule {[0x62]} defaultReuseWindow
      [.classify 0 [0x61] 1 [0x62], .record 0 1, .take 0 [0x61] 1 2 2] (by decide +kernel)
  exact ⟨_, s, run, tunnel_route_asked run rfl⟩

end ProgramSplit.Dns
