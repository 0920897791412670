/-
# Dns.Dispatcher — query handlers and attribution events, interleaved

The dispatcher of `dns-dispatcher.cpp` as a transition system over the locked
sections of `Hints`: attribution events (`addResolved`, split at the point where
it takes the lock, since it reads the included set before), losses, reloads, and
any number of UDP and TCP query handlers. A handler takes a route, exchanges the
packet upstream for at most four seconds, asks `directAnswerUnsafe` before it
delivers a direct answer, and completes the exchange unless the answer was
withheld (`handleUdpQuery`, `handleTcpClient`). `barrier` is its result here;
`Dns.Barrier` is about what that result means.

`exec` is the executable step. `exec_effect` is its one inversion: what the step
did to the hints, to the clock and to the decisions handlers carry.
-/
import Mathlib.Logic.Function.Basic
import ProgramSplit.Lib.Run
import ProgramSplit.Dns.Hints

namespace ProgramSplit.Dns

open Lib

set_option autoImplicit false

/-- A call of `addResolved` that has classified its path and waits for the lock. -/
structure Call where
  name : WString
  type : UInt16
  source : Source

/-- A route `take` returned, as its handler keeps it. -/
structure Route where
  key : WString
  tunnel : Bool
  generation : Nat
  decidedAt : Nat
  deriving DecidableEq, Repr

/-- Where a query handler stands. -/
inductive Handler
  | idle
  | taking (key : WString)
  | routed (route : Route)
  | exchanging (route : Route) (deadline : Nat)
  | confirming (route : Route)
  | closing (route : Route)
  deriving DecidableEq, Repr

/-- The decision a handler still acts on. -/
def Handler.route? : Handler → Option Route
  | .idle => none
  | .taking _ => none
  | .routed route => some route
  | .exchanging route _ => some route
  | .confirming route => some route
  | .closing route => some route

/-- The decision of a handler that has not looked the hints up again yet. -/
def Handler.inFlight? : Handler → Option Route
  | .routed route => some route
  | .exchanging route _ => some route
  | .confirming route => some route
  | _ => none

structure Dispatcher where
  hints : Hints
  clock : Nat
  calls : Nat → Option Call
  handlers : Nat → Handler

/-- A fresh process: `Hints`' constructor, no call and no handler yet. -/
def Dispatcher.Initial (s : Dispatcher) : Prop :=
  (∃ included reuseWindow, s.hints = { included, reuseWindow }) ∧
    (∀ c, s.calls c = none) ∧ ∀ i, s.handlers i = .idle

/-- The fresh process at clock 0. -/
def Dispatcher.start (included : Finset WString) (reuseWindow : Nat) : Dispatcher where
  hints := { included, reuseWindow }
  clock := 0
  calls _ := none
  handlers _ := .idle

/-- `kDirectBudgetMilliseconds`: the budget of one upstream exchange. -/
def directBudget : Nat := 4 * second

/-- A scheduling choice; the times are those the section reads from the clock. -/
inductive Action
  | classify (call : Nat) (name : WString) (type : UInt16) (path : WString)
  | record (call : Nat) (now : Nat)
  | lose (now : Nat)
  | reload (included : Finset WString)
  | take (handler : Nat) (name : WString) (type : UInt16) (checked now : Nat)
  | pass (handler : Nat) (passed : Bool) (checked now : Nat)
  | send (handler : Nat) (now : Nat)
  | respond (handler : Nat) (answered : Bool) (now : Nat)
  | confirm (handler : Nat) (passed : Bool) (now : Nat)
  | complete (handler : Nat) (now : Nat)
  | hangUp (handler : Nat)

/-- What a step of the dispatcher did. -/
inductive Event
  | classified
  | reloaded
  | recorded (key : WString) (source : Source) (generation : Nat) (now : Nat)
  | dropped (now : Nat)
  | lost (now : Nat)
  | decided (handler : Nat) (route : Route)
  | refused (handler : Nat) (key : WString) (now : Nat)
  | waited (handler : Nat) (key : WString) (now : Nat)
  | exchanged (handler : Nat) (now : Nat)
  | delivered (handler : Nat) (route : Route) (now : Nat)
  | withheld (handler : Nat) (route : Route) (now : Nat)
  | completed (handler : Nat) (route : Route) (now : Nat)
  | hungUp (handler : Nat)
  deriving DecidableEq

namespace Dispatcher

def setHandler (s : Dispatcher) (i : Nat) (handler : Handler) : Dispatcher :=
  { s with handlers := Function.update s.handlers i handler }

/-- A section of `take` has run for `key` at `now`. -/
def afterTake (s : Dispatcher) (i : Nat) (key : WString) (now : Nat) :
    Hints × Hints.Taken → Dispatcher × Event
  | (h, .refused) => ({ s with hints := h, clock := now }.setHandler i .idle, .refused i key now)
  | (h, .waiting) =>
    ({ s with hints := h, clock := now }.setHandler i (.taking key), .waited i key now)
  | (h, .routed tunnel generation _) =>
    let route : Route := { key, tunnel, generation, decidedAt := now }
    ({ s with hints := h, clock := now }.setHandler i (.routed route), .decided i route)

def exec (s : Dispatcher) : Action → Option (Dispatcher × Event)
  | .classify c name type path =>
    match s.calls c with
    | some _ => none
    | none =>
      let call : Call := { name, type, source := ⟨path, s.hints.included⟩ }
      some ({ s with calls := Function.update s.calls c (some call) }, .classified)
  | .record c now =>
    match s.calls c with
    | none => none
    | some call =>
      if now < s.clock then none
      else
        let (h, kept) := s.hints.addResolved call.name call.type call.source.evidence now
        some ({ s with hints := h, clock := now, calls := Function.update s.calls c none },
          if kept then .recorded (makeKey call.name call.type) call.source h.generations now
          else .dropped now)
  | .lose now =>
    if now < s.clock then none
    else some ({ s with hints := s.hints.lostEvents now, clock := now }, .lost now)
  | .reload included => some ({ s with hints := s.hints.setIncluded included }, .reloaded)
  | .take i name type checked now =>
    match s.handlers i with
    | .idle =>
      if checked < s.clock ∨ now < checked then none
      else
        let key := makeKey name type
        some (s.afterTake i key now (s.hints.takeFast key checked now))
    | _ => none
  | .pass i passed checked now =>
    match s.handlers i with
    | .taking key =>
      if checked < s.clock ∨ now < checked then none
      else some (s.afterTake i key now (s.hints.takeFinal key passed checked now))
    | _ => none
  | .send i now =>
    match s.handlers i with
    | .routed route =>
      if now < s.clock then none
      else
        some ({ s with clock := now }.setHandler i (.exchanging route (now + directBudget)),
          .exchanged i now)
    | _ => none
  | .respond i answered now =>
    match s.handlers i with
    | .exchanging route deadline =>
      if now < s.clock ∨ deadline < now then none
      else
        -- only a direct answer is confirmed; a failed exchange is completed as it is
        let next := if answered && !route.tunnel then Handler.confirming route
          else .closing route
        some ({ s with clock := now }.setHandler i next, .exchanged i now)
    | _ => none
  | .confirm i passed now =>
    match s.handlers i with
    | .confirming route =>
      if now < s.clock then none
      else if s.hints.directAnswerUnsafe route.key passed now then
        some ({ s with clock := now }.setHandler i .idle, .withheld i route now)
      else some ({ s with clock := now }.setHandler i (.closing route), .delivered i route now)
    | _ => none
  | .complete i now =>
    match s.handlers i with
    | .closing route =>
      if now < s.clock then none
      else
        let h := s.hints.complete route.key (some route.generation) now
        some ({ s with hints := h, clock := now }.setHandler i .idle, .completed i route now)
    | _ => none
  -- `sendDnsFrame` failed: the TCP client is dropped without `complete`
  | .hangUp i =>
    match s.handlers i with
    | .closing _ => some (s.setHandler i .idle, .hungUp i)
    | _ => none

abbrev Step : Dispatcher → Event → Dispatcher → Prop :=
  Exec exec

/-- The events of a run, latest first, and the state it reached. -/
abbrev Reaches : List Event → Dispatcher → Prop :=
  Run Initial Step

theorem start_initial (included : Finset WString) (reuseWindow : Nat) :
    (start included reuseWindow).Initial :=
  ⟨⟨included, reuseWindow, rfl⟩, fun _ => rfl, fun _ => rfl⟩

theorem reaches_of_schedule (included : Finset WString) (reuseWindow : Nat)
    (actions : List Action) {events : List Event}
    (done : (schedule exec (fun _ _ => true) (start included reuseWindow) actions []).map Prod.snd =
      some events) : ∃ s, Reaches events s :=
  run_of_schedule (fun _ _ _ _ taken => taken) _ (start_initial included reuseWindow) actions done

/-! ## What a step did -/

/-- The hints of two states agree in everything but the included set. -/
def SameHints (h h' : Hints) : Prop :=
  h' = { h with included := h'.included }

/-- No handler gained a decision. -/
structure NoNewRoute (s s' : Dispatcher) : Prop where
  route : ∀ i route, (s'.handlers i).route? = some route → (s.handlers i).route? = some route
  inFlight : ∀ i route, (s'.handlers i).inFlight? = some route →
    (s.handlers i).inFlight? = some route

/-- Handler `i` alone has moved: `take` returned `route` to it. -/
def RouteOf (s s' : Dispatcher) (i : Nat) (route : Route) : Prop :=
  s'.handlers i = .routed route ∧ ∀ j, j ≠ i → s'.handlers j = s.handlers j

/-- One constructor for each kind of locked section. -/
inductive Effect (s : Dispatcher) : Event → Dispatcher → Prop
  | recorded {s' key source generation now} (later : s.clock ≤ now) (clock : s'.clock = now)
      (hints : s.hints.Recorded key source.evidence now s'.hints)
      (stamped : generation = s'.hints.generations) (handlers : s'.handlers = s.handlers) :
      Effect s (.recorded key source generation now) s'
  | dropped {s' now} (later : s.clock ≤ now) (clock : s'.clock = now)
      (hints : s.hints.Dropped now s'.hints) (handlers : s'.handlers = s.handlers) :
      Effect s (.dropped now) s'
  | lost {s' now} (later : s.clock ≤ now) (clock : s'.clock = now)
      (hints : s'.hints = s.hints.lostEvents now) (handlers : s'.handlers = s.handlers) :
      Effect s (.lost now) s'
  | decided {s' i route allowDirect q} (later : s.clock ≤ route.decidedAt)
      (clock : s'.clock = route.decidedAt)
      (hints : s.hints.Consulted route.key allowDirect route.decidedAt s'.hints
        (some route.tunnel))
      (stamped : s'.hints.entry route.key = some q ∧ route.generation = q.generation)
      (spared : route.tunnel = false → s.hints.overloadedUntil ≤ route.decidedAt)
      (handlers : RouteOf s s' i route) :
      Effect s (.decided i route) s'
  | consulted {s' e key allowDirect now route} (later : s.clock ≤ now) (clock : s'.clock = now)
      (which : ∃ i, e = .refused i key now ∨ e = .waited i key now)
      (hints : s.hints.Consulted key allowDirect now s'.hints route)
      (handlers : NoNewRoute s s') : Effect s e s'
  | quiet {s' e} (later : s.clock ≤ s'.clock)
      (which : e = .classified ∨ e = .reloaded ∨ (∃ i now, e = .exchanged i now) ∨
        (∃ i, e = .hungUp i) ∨ (∃ i key now, e = .refused i key now) ∨
        ∃ i route now, e = .withheld i route now)
      (hints : SameHints s.hints s'.hints) (handlers : NoNewRoute s s') : Effect s e s'
  | delivered {s' i route now} (later : s.clock ≤ now) (clock : s'.clock = now)
      (hints : s'.hints = s.hints) (confirming : s.handlers i = .confirming route)
      (safe : s.hints.directAnswerUnsafe route.key true now = false)
      (handlers : NoNewRoute s s') : Effect s (.delivered i route now) s'
  | completed {s' i route now} (later : s.clock ≤ now) (clock : s'.clock = now)
      (hints : s'.hints = s.hints.complete route.key (some route.generation) now)
      (closing : (s.handlers i).route? = some route) (handlers : NoNewRoute s s') :
      Effect s (.completed i route now) s'

theorem SameHints.refl (h : Hints) : SameHints h h := rfl

theorem noNewRoute_of_eq {s s' : Dispatcher} (same : s'.handlers = s.handlers) :
    NoNewRoute s s' := by
  constructor <;> intro i route h <;> rwa [same] at h

/-- Moving one handler to a place with the decision it had, or with none. -/
theorem noNewRoute_setHandler {s s' : Dispatcher} {i : Nat} {handler : Handler}
    (moved : s'.handlers = Function.update s.handlers i handler)
    (route : handler.route? = none ∨ handler.route? = (s.handlers i).route?)
    (inFlight : handler.inFlight? = none ∨ handler.inFlight? = (s.handlers i).inFlight?) :
    NoNewRoute s s' := by
  have kept : ∀ view : Handler → Option Route, view handler = none ∨ view handler = view (s.handlers i) →
      ∀ j r, view (s'.handlers j) = some r → view (s.handlers j) = some r := by
    intro view either j r has
    rw [moved] at has
    by_cases same : j = i
    · subst same
      rw [Function.update_self] at has
      rcases either with gone | kept
      · rw [gone] at has; cases has
      · rw [← kept]; exact has
    · rwa [Function.update_of_ne same] at has
  exact ⟨kept Handler.route? route, kept Handler.inFlight? inFlight⟩

theorem routeOf_setHandler (s : Dispatcher) (h : Hints) (now : Nat) (i : Nat) (route : Route) :
    RouteOf s ({ s with hints := h, clock := now }.setHandler i (.routed route)) i route := by
  refine ⟨by simp [setHandler], fun j other => ?_⟩
  simp [setHandler, Function.update_of_ne other]

/-- The first section of `take` as an effect. -/
theorem takeFast_effect {s : Dispatcher} (i : Nat) (key : WString) (checked : Nat) {now : Nat}
    (later : s.clock ≤ now) :
    Effect s (s.afterTake i key now (s.hints.takeFast key checked now)).2
      (s.afterTake i key now (s.hints.takeFast key checked now)).1 := by
  rcases Hints.takeFast_spec s.hints key checked now with
    eq | ⟨h, route, consulted, eq | ⟨q, reused, rfl, found, eq⟩⟩
  all_goals rw [eq]
  · exact .quiet later (by simp [afterTake]) (SameHints.refl _)
      (noNewRoute_setHandler rfl (.inl rfl) (.inl rfl))
  · exact .consulted later rfl ⟨i, .inr rfl⟩ consulted (noNewRoute_setHandler rfl (.inl rfl) (.inl rfl))
  · exact .decided later rfl consulted ⟨found, rfl⟩ (by simp) (routeOf_setHandler s h now i _)

/-- The second section of `take` as an effect. -/
theorem takeFinal_effect {s : Dispatcher} (i : Nat) (key : WString) (passed : Bool)
    {checked now : Nat} (later : s.clock ≤ now) (ordered : checked ≤ now) :
    Effect s (s.afterTake i key now (s.hints.takeFinal key passed checked now)).2
      (s.afterTake i key now (s.hints.takeFinal key passed checked now)).1 := by
  rcases Hints.takeFinal_spec s.hints key passed checked now with
    eq | ⟨spared, h, route, consulted, eq | ⟨tunnel, q, reused, rfl, found, eq⟩⟩
  all_goals rw [eq]
  · exact .quiet later (by simp [afterTake]) (SameHints.refl _)
      (noNewRoute_setHandler rfl (.inl rfl) (.inl rfl))
  · exact .consulted later rfl ⟨i, .inl rfl⟩ consulted (noNewRoute_setHandler rfl (.inl rfl) (.inl rfl))
  · exact .decided later rfl consulted ⟨found, rfl⟩ (fun _ => spared.trans ordered)
      (routeOf_setHandler s h now i _)

/-- **Every step is one of the effects.** -/
theorem exec_effect {s s' : Dispatcher} {action : Action} {e : Event}
    (taken : s.exec action = some (s', e)) : Effect s e s' := by
  revert taken
  fun_cases exec s action <;> intro taken <;> try cases taken
  case case2 => exact .quiet le_rfl (.inl rfl) (SameHints.refl _) (noNewRoute_of_eq rfl)
  case case5 now call _ later h kept added =>
    have spec := Hints.addResolved_spec s.hints call.name call.type call.source.evidence now
    rw [added] at spec
    by_cases isKept : kept = true
    · rw [if_pos isKept] at spec ⊢
      exact .recorded (Nat.not_lt.mp later) rfl spec rfl rfl
    · rw [if_neg isKept] at spec ⊢
      exact .dropped (Nat.not_lt.mp later) rfl spec rfl
  case case7 now later => exact .lost (Nat.not_lt.mp later) rfl rfl rfl
  case case8 included => exact .quiet le_rfl (.inr (.inl rfl)) rfl (noNewRoute_of_eq rfl)
  case case10 i name type checked now _ ordered key =>
    have effect := takeFast_effect i key checked (show s.clock ≤ now by omega)
    rw [Option.some.injEq] at taken
    rwa [taken] at effect
  case case13 i passed checked now key ordered _ =>
    have effect := takeFinal_effect i key passed (show s.clock ≤ now by omega) (show checked ≤ now by omega)
    rw [Option.some.injEq] at taken
    rwa [taken] at effect
  case case16 i now route at_ later =>
    exact .quiet (Nat.not_lt.mp later) (by simp) (SameHints.refl _)
      (noNewRoute_setHandler rfl (.inr (by simp [at_, Handler.route?]))
        (.inr (by simp [at_, Handler.inFlight?])))
  case case19 i answered now route deadline at_ later next =>
    refine .quiet (show s.clock ≤ now by omega) (by simp) (SameHints.refl _)
      (noNewRoute_setHandler rfl (.inr ?_) ?_)
    · rw [at_]
      unfold next
      split_ifs <;> rfl
    · rw [at_]
      unfold next
      split_ifs
      · exact .inr rfl
      · exact .inl rfl
  case case22 later _ =>
    exact .quiet (Nat.not_lt.mp later) (by simp) (SameHints.refl _)
      (noNewRoute_setHandler rfl (.inl rfl) (.inl rfl))
  case case23 i passed now route at_ later safe =>
    have passed_ : passed = true := by
      cases passed
      · simp [Hints.directAnswerUnsafe] at safe
      · rfl
    subst passed_
    exact .delivered (Nat.not_lt.mp later) rfl rfl at_ (by simpa using safe)
      (noNewRoute_setHandler rfl (.inr (by simp [at_, Handler.route?])) (.inl rfl))
  case case26 i now route at_ later _ =>
    exact .completed (Nat.not_lt.mp later) rfl rfl (by simp [at_, Handler.route?])
      (noNewRoute_setHandler rfl (.inl rfl) (.inl rfl))
  case case28 =>
    exact .quiet le_rfl (by simp) (SameHints.refl _) (noNewRoute_setHandler rfl (.inl rfl) (.inl rfl))

theorem Step.effect {s s' : Dispatcher} {e : Event} (taken : Step s e s') : Effect s e s' :=
  exec_effect taken.choose_spec

end Dispatcher

end ProgramSplit.Dns
