/-
# Dns.Resolvers — which physical resolver is asked first

`DirectResolvers`, `directExchange`, `currentRoutes`/`setRoutes` and the reloader of
`dns-dispatcher.cpp`: queries on threads of their own take the current resolver list and
run exchanges over it, and all of them share one preferred index and the time until which
it is asked first. A reload replaces the list and then resets the two.

The index carries no list, so a query that began before a reload can set it afterwards.

* `order_perm` — the order is a permutation of the list's indexes, whatever the state;
* `Effect.lengthens` — only an answer after a silent resolver 0 moves the time forward;
* `stand_in_on_current_evidence` — while stand-in answers are recorded by queries on the
  current list and no order falls between the swap and the reset, a stand-in is asked
  first only on evidence about the current list;
* `stale_answer_prefers` — an interleaving that breaks this.
-/
import ProgramSplit.Dns.Hints
import ProgramSplit.Lib.Run
import Mathlib.Logic.Function.Basic

namespace ProgramSplit.Dns.Direct

open Lib

set_option autoImplicit false

/-! ## `DirectResolvers` -/

def millisecond : Nat := 1000000

/-- How long a stand-in is asked first: `std::chrono::seconds(60)`. -/
def preferFor : Nat := 60 * second

/-- The physical resolvers of one `Routes`, with the reload that installed them.
`resolverList` returns no empty list. -/
structure Routes where
  version : Nat
  directDns : List Nat
  nonempty : directDns ≠ []
  deriving DecidableEq, Repr

def Routes.count (r : Routes) : Nat := r.directDns.length

/-- The fields of `DirectResolvers`. -/
structure Preference where
  preferred : Nat := 0
  probePrimaryAt : Nat := 0
  deriving DecidableEq, Repr

/-- The index `order` starts with. -/
def Preference.first (p : Preference) (now count : Nat) : Nat :=
  if now < p.probePrimaryAt ∧ p.preferred < count then p.preferred else 0

def Preference.order (p : Preference) (now count : Nat) : List Nat :=
  p.first now count :: (List.range count).filter (· ≠ p.first now count)

def Preference.answered (p : Preference) (now index : Nat) (primaryFailed : Bool) : Preference where
  preferred := index
  probePrimaryAt :=
    if index = 0 then 0 else if primaryFailed then now + preferFor else p.probePrimaryAt

theorem Preference.first_lt (p : Preference) (now : Nat) {count : Nat} (some_ : 0 < count) :
    p.first now count < count := by
  unfold Preference.first
  split_ifs with current
  · exact current.2
  · exact some_

/-- The order is a permutation of the indexes. -/
theorem order_perm (p : Preference) (now : Nat) (r : Routes) :
    (p.order now r.count).Perm (List.range r.count) := by
  have inside : p.first now r.count ∈ List.range r.count :=
    List.mem_range.mpr (p.first_lt now (List.length_pos_iff.mpr r.nonempty))
  have rest : (List.range r.count).filter (· ≠ p.first now r.count) =
      (List.range r.count).erase (p.first now r.count) := by
    rw [List.nodup_range.erase_eq_filter]
    exact List.filter_congr fun index _ => by rw [Bool.eq_iff_iff]; simp
  rw [Preference.order, rest]
  exact (List.perm_cons_erase inside).symm

/-! ## The threads -/

/-- Where a query is. Inside `directExchange` the list holds the resolvers still to be
asked, the next one first. -/
inductive Query
  | idle
  /-- Between exchanges, with the routes it started with. -/
  | holding (routes : Routes)
  /-- At the head of the loop. -/
  | looping (routes : Routes) (left : List Nat) (primaryFailed : Bool) (deadline : Nat)
      (shareRemaining : Bool)
  /-- In `exchange` with the first of them. -/
  | asking (routes : Routes) (left : List Nat) (primaryFailed : Bool) (deadline : Nat)
      (shareRemaining : Bool) (timeout : Nat)
  /-- With a response of that resolver, before `state.answered`. -/
  | replied (routes : Routes) (index : Nat) (primaryFailed : Bool)
  deriving DecidableEq, Repr

/-- What the loop remembers of resolver 0. -/
def Query.failed? : Query → Option Bool
  | .looping _ _ failed _ _ => some failed
  | .asking _ _ failed _ _ _ => some failed
  | .replied _ _ failed => some failed
  | _ => none

structure State where
  clock : Nat
  routes : Routes
  /-- The reloader has set the routes and not yet reset the preference. -/
  reloading : Bool
  preference : Preference
  queries : Nat → Query

def State.Initial (s : State) : Prop :=
  s.reloading = false ∧ s.preference = {} ∧ ∀ i, s.queries i = .idle

def State.start (directDns : List Nat) (nonempty : directDns ≠ []) : State where
  clock := 0
  routes := ⟨0, directDns, nonempty⟩
  reloading := false
  preference := {}
  queries _ := .idle

def State.set (s : State) (i : Nat) (query : Query) : State :=
  { s with queries := Function.update s.queries i query }

/-- `kPerResolverMilliseconds`. -/
def perResolverMilliseconds : Nat := 1200

/-- `remainingMilliseconds`. -/
def remainingMilliseconds (deadline now : Nat) : Nat := (deadline - now) / millisecond

/-- The time one resolver gets, of the number still to be asked. -/
def exchangeTimeout (remaining left : Nat) (shareRemaining : Bool) : Nat :=
  if left = 1 then remaining
  else if shareRemaining then max 1 (remaining / left)
  else min remaining perResolverMilliseconds

/-- A scheduling choice. -/
inductive Action
  | tick (by_ : Nat)
  | take (i : Nat)
  | order (i deadline : Nat) (shareRemaining : Bool)
  | ask (i : Nat)
  | silent (i : Nat)
  | reply (i : Nat)
  | answered (i : Nat)
  | leave (i : Nat)
  | abandon (i : Nat)
  | setRoutes (directDns : List Nat)
  | reset

/-- What a step did. -/
inductive Event
  | quiet
  | ordered (i : Nat) (routes : Routes) (now : Nat) (result : List Nat)
  | silent (i : Nat) (index : Nat)
  | answered (i : Nat) (routes : Routes) (index : Nat) (now : Nat)
  | reloaded
  deriving DecidableEq, Repr

def exec (s : State) : Action → Option (State × Event)
  | .tick by_ => some ({ s with clock := s.clock + by_ }, .quiet)
  | .take i =>
    match s.queries i with
    | .idle => some (s.set i (.holding s.routes), .quiet)
    | _ => none
  | .order i deadline share =>
    match s.queries i with
    | .holding r =>
      let order := s.preference.order s.clock r.count
      some (s.set i (.looping r order false deadline share), .ordered i r s.clock order)
    | _ => none
  | .ask i =>
    match s.queries i with
    | .looping r (index :: left) failed deadline share =>
      let remaining := remainingMilliseconds deadline s.clock
      if remaining = 0 then none
      else
        let timeout := exchangeTimeout remaining (left.length + 1) share
        some (s.set i (.asking r (index :: left) failed deadline share timeout), .quiet)
    | _ => none
  | .silent i =>
    match s.queries i with
    | .asking r (index :: left) failed deadline share _ =>
      some (s.set i (.looping r left (failed || index == 0) deadline share), .silent i index)
    | _ => none
  | .reply i =>
    match s.queries i with
    | .asking r (index :: _) failed _ _ _ => some (s.set i (.replied r index failed), .quiet)
    | _ => none
  | .answered i =>
    match s.queries i with
    | .replied r index failed =>
      some ({ s with preference := s.preference.answered s.clock index failed }.set i (.holding r),
        .answered i r index s.clock)
    | _ => none
  -- the loop ends without an answer: every resolver was asked, or no time is left
  | .leave i =>
    match s.queries i with
    | .looping r left _ deadline _ =>
      if left = [] ∨ remainingMilliseconds deadline s.clock = 0 then some (s.set i (.holding r), .quiet)
      else none
    | _ => none
  -- an exception, or the end of the query
  | .abandon i => some (s.set i .idle, .quiet)
  | .setRoutes directDns =>
    if nonempty : directDns ≠ [] then
      if s.reloading then none
      else some ({ s with routes := ⟨s.routes.version + 1, directDns, nonempty⟩, reloading := true }, .quiet)
    else none
  | .reset =>
    if s.reloading then some ({ s with preference := {}, reloading := false }, .reloaded) else none

abbrev Step : State → Event → State → Prop := Exec exec

abbrev Reaches : List Event → State → Prop := Run State.Initial Step

/-! ## Evidence -/

/-- In its present exchange, query `i` asked resolver 0 without an answer. -/
def primarySilent (i : Nat) : List Event → Bool
  | [] => false
  | .ordered j _ _ _ :: earlier => if j = i then false else primarySilent i earlier
  | .silent j index :: earlier => if j = i ∧ index = 0 then true else primarySilent i earlier
  | _ :: earlier => primarySilent i earlier

/-- A query on this list asked resolver 0 without an answer and was answered by another
at time `t`. -/
def FailedOver (events : List Event) (routes : Routes) (t : Nat) : Prop :=
  ∃ later earlier i index, events = later ++ .answered i routes index t :: earlier ∧ index ≠ 0 ∧
    primarySilent i earlier = true

/-- A query on this list was answered by this resolver. -/
def AnsweredBy (events : List Event) (routes : Routes) (index : Nat) : Prop :=
  ∃ i t, Event.answered i routes index t ∈ events

theorem FailedOver.cons {events : List Event} {routes : Routes} {t : Nat}
    (evidence : FailedOver events routes t) (e : Event) : FailedOver (e :: events) routes t := by
  obtain ⟨later, earlier, i, index, split, standIn, silent⟩ := evidence
  exact ⟨e :: later, earlier, i, index, by rw [split, List.cons_append], standIn, silent⟩

theorem AnsweredBy.cons {events : List Event} {routes : Routes} {index : Nat}
    (evidence : AnsweredBy events routes index) (e : Event) : AnsweredBy (e :: events) routes index := by
  obtain ⟨i, t, mem⟩ := evidence
  exact ⟨i, t, List.mem_cons_of_mem _ mem⟩

/-! ## What a step does -/

/-- The steps, by what they do to the shared state. -/
inductive Effect (s : State) : Event → State → Prop
  /-- One query moves on by itself; it remembers what it did. -/
  | private_ (i : Nat) (query : Query)
      (keeps : query.failed? = none ∨ query.failed? = (s.queries i).failed?) :
      Effect s .quiet (s.set i query)
  | tick (by_ : Nat) : Effect s .quiet { s with clock := s.clock + by_ }
  | ordered (i deadline : Nat) (share : Bool) (r : Routes) (held : s.queries i = .holding r) :
      Effect s (.ordered i r s.clock (s.preference.order s.clock r.count))
        (s.set i (.looping r (s.preference.order s.clock r.count) false deadline share))
  | silent (i index : Nat) (query : Query) (failed : Bool) (before : (s.queries i).failed? = some failed)
      (after : query.failed? = some (failed || index == 0)) : Effect s (.silent i index) (s.set i query)
  | answered (i index : Nat) (r : Routes) (failed : Bool) (replied : s.queries i = .replied r index failed) :
      Effect s (.answered i r index s.clock)
        ({ s with preference := s.preference.answered s.clock index failed }.set i (.holding r))
  | setRoutes (routes : Routes) :
      Effect s .quiet { s with routes := routes, reloading := true }
  | reset : Effect s .reloaded { s with preference := {}, reloading := false }

theorem Step.effect {s s' : State} {e : Event} (taken : Step s e s') : Effect s e s' := by
  obtain ⟨action, taken⟩ := taken
  revert taken
  fun_cases exec s action <;> intro taken <;> cases taken
  case case1 by_ => exact .tick by_
  case case2 i at_ => exact .private_ i _ (.inl rfl)
  case case4 i deadline share r held _ => exact .ordered i deadline share r held
  case case7 i r index left failed deadline share at_ _ _ _ => exact .private_ i _ (.inr (at_ ▸ rfl))
  case case9 i r index left failed deadline share _ at_ => exact .silent i index _ failed (at_ ▸ rfl) rfl
  case case11 i r index left failed _ _ _ at_ => exact .private_ i _ (.inr (at_ ▸ rfl))
  case case13 i r index failed at_ => exact .answered i index r failed at_
  case case15 i _ _ _ _ _ _ _ => exact .private_ i _ (.inl rfl)
  case case18 i => exact .private_ i _ (.inl rfl)
  case case20 => exact .setRoutes _
  case case22 => exact .reset

variable {events : List Event} {s s' : State} {e : Event}

theorem set_failed (s : State) (i j : Nat) (query : Query) :
    ((s.set i query).queries j).failed? = if j = i then query.failed? else (s.queries j).failed? := by
  simp only [State.set, Function.update_apply]
  split_ifs <;> rfl

/-- The queries remember exactly whether resolver 0 was silent in their exchange. -/
def Remembers (events : List Event) (s : State) : Prop :=
  ∀ i failed, (s.queries i).failed? = some failed → failed = primarySilent i events

theorem Remembers.step (remembers : Remembers events s) (effect : Effect s e s') :
    Remembers (e :: events) s' := by
  intro j failed at_
  cases effect with
  | private_ i query keeps =>
    rw [set_failed] at at_
    split_ifs at at_ with same
    · subst same
      obtain none_ | kept := keeps
      · rw [none_] at at_
        cases at_
      · exact remembers j failed (kept ▸ at_)
    · exact remembers j failed at_
  | tick by_ => exact remembers j failed at_
  | ordered i deadline share r held =>
    rw [set_failed] at at_
    simp only [primarySilent]
    split_ifs at at_ with same
    · cases at_
      rw [if_pos same.symm]
    · rw [if_neg (Ne.symm same)]
      exact remembers j failed at_
  | silent i index query before failedBefore after =>
    rw [set_failed] at at_
    simp only [primarySilent]
    split_ifs at at_ with same
    · subst same
      rw [after] at at_
      cases at_
      rw [remembers j before failedBefore]
      by_cases primary : index = 0
      · simp [primary]
      · simp [primary]
    · rw [if_neg fun h => same h.1.symm]
      exact remembers j failed at_
  | answered i index r before replied =>
    rw [set_failed] at at_
    split_ifs at at_ with same
    · cases at_
    · exact remembers j failed at_
  | setRoutes routes => exact remembers j failed at_
  | reset => exact remembers j failed at_

/-- **Only a failed probe of resolver 0 moves the time forward.** -/
theorem Effect.lengthens (effect : Effect s e s') (remembers : Remembers events s)
    (longer : s.preference.probePrimaryAt < s'.preference.probePrimaryAt) :
    ∃ i routes index, e = .answered i routes index s.clock ∧ index ≠ 0 ∧
      primarySilent i events = true ∧ s'.preference.probePrimaryAt = s.clock + preferFor := by
  cases effect with
  | answered i index r failed replied =>
    have isFailed := remembers i failed (by rw [replied]; rfl)
    change s.preference.probePrimaryAt < (s.preference.answered s.clock index failed).probePrimaryAt at longer
    simp only [Preference.answered] at longer
    split_ifs at longer with primary silent
    · omega
    · refine ⟨i, r, index, rfl, primary, by rw [← isFailed, silent], ?_⟩
      change (s.preference.answered s.clock index failed).probePrimaryAt = _
      simp [Preference.answered, primary, silent]
    · omega
  | reset => exact absurd longer (Nat.not_lt_zero _)
  | private_ | tick | ordered | silent | setRoutes => exact absurd longer (lt_irrefl _)

/-! ## Runs without stale evidence -/

/-- A stand-in's answer is recorded by a query on the current list, and no order falls
between a swap of the list and its reset while a stand-in is preferred. -/
def Timely (s : State) : Event → Prop
  | .answered _ routes index _ => index = 0 ∨ routes = s.routes
  | .ordered .. => s.reloading = true → s.preference.probePrimaryAt ≤ s.clock ∨ s.preference.preferred = 0
  | _ => True

instance (s : State) : (e : Event) → Decidable (Timely s e)
  | .answered .. => inferInstanceAs (Decidable (_ ∨ _))
  | .ordered .. => inferInstanceAs (Decidable (_ → _))
  | .quiet | .silent .. | .reloaded => inferInstanceAs (Decidable True)

abbrev ReachesTimely : List Event → State → Prop :=
  Run State.Initial fun s e s' => Timely s e ∧ Step s e s'

/-- Outside a reload, what is preferred rests on evidence about the current list. -/
structure Inv (events : List Event) (s : State) : Prop where
  remembers : Remembers events s
  past : ∀ i routes index t, Event.answered i routes index t ∈ events → t ≤ s.clock
  window : s.reloading = false → 0 < s.preference.probePrimaryAt →
    ∃ t, FailedOver events s.routes t ∧ s.preference.probePrimaryAt = t + preferFor
  standIn : s.reloading = false → s.preference.preferred ≠ 0 →
    AnsweredBy events s.routes s.preference.preferred

theorem Inv.initial (s : State) (fresh : s.Initial) : Inv [] s := by
  obtain ⟨-, preference, idle⟩ := fresh
  constructor
  · intro i failed at_
    rw [idle i] at at_
    cases at_
  · simp
  · simp [preference]
  · simp [preference]

/-- A step that leaves the shared state alone keeps its evidence. -/
theorem Inv.same (inv : Inv events s) (remembers : Remembers (e :: events) s')
    (past : ∀ i routes index t, e = .answered i routes index t → t ≤ s'.clock)
    (later : s.clock ≤ s'.clock) (routes : s'.routes = s.routes) (reloading : s'.reloading = s.reloading)
    (preference : s'.preference = s.preference) : Inv (e :: events) s' := by
  refine ⟨remembers, fun i r index t mem => ?_, fun idle positive => ?_, fun idle nonzero => ?_⟩
  · obtain first | mem := List.mem_cons.mp mem
    · exact past i r index t first.symm
    · exact (inv.past i r index t mem).trans later
  · rw [preference, routes] at *
    obtain ⟨t, evidence, at_⟩ := inv.window (reloading ▸ idle) positive
    exact ⟨t, evidence.cons e, at_⟩
  · rw [preference, routes] at *
    exact (inv.standIn (reloading ▸ idle) nonzero).cons e

theorem Inv.step (inv : Inv events s) (timely : Timely s e) (taken : Step s e s') : Inv (e :: events) s' := by
  have effect := taken.effect
  have remembers := inv.remembers.step effect
  cases effect with
  | private_ | ordered | silent => exact inv.same remembers nofun le_rfl rfl rfl rfl
  | tick by_ => exact inv.same remembers nofun (Nat.le_add_right _ _) rfl rfl rfl
  | answered i index r failed replied =>
    have past : ∀ j routes k t, Event.answered j routes k t ∈ .answered i r index s.clock :: events →
        t ≤ s.clock := by
      intro j routes k t mem
      obtain first | mem := List.mem_cons.mp mem
      · cases first
        exact le_rfl
      · exact inv.past j routes k t mem
    refine ⟨remembers, past, fun idle positive => ?_, fun idle nonzero => ?_⟩
    · change 0 < (s.preference.answered s.clock index failed).probePrimaryAt at positive
      change ∃ t, FailedOver _ s.routes t ∧ (s.preference.answered s.clock index failed).probePrimaryAt = _
      by_cases primary : index = 0
      · simp [Preference.answered, primary] at positive
      have current : r = s.routes := timely.resolve_left primary
      have isFailed := inv.remembers i failed (by rw [replied]; rfl)
      cases failed with
      | true =>
        refine ⟨s.clock, ⟨[], events, i, index, by rw [current]; rfl, primary, isFailed.symm⟩, ?_⟩
        simp [Preference.answered, primary]
      | false =>
        -- an answer of the stand-in alone leaves the time and its evidence
        have same : (s.preference.answered s.clock index false).probePrimaryAt =
            s.preference.probePrimaryAt := by
          simp [Preference.answered, primary]
        rw [same] at positive ⊢
        obtain ⟨t, evidence, at_⟩ := inv.window idle positive
        exact ⟨t, evidence.cons _, at_⟩
    · have current : r = s.routes := timely.resolve_left nonzero
      exact ⟨i, s.clock, by rw [← current]; exact List.mem_cons_self⟩
  | setRoutes routes =>
    refine ⟨remembers, fun i r index t mem => ?_, fun idle => (nomatch idle), fun idle => (nomatch idle)⟩
    obtain first | mem := List.mem_cons.mp mem
    · cases first
    · exact inv.past i r index t mem
  | reset =>
    refine ⟨remembers, fun i r index t mem => ?_, fun _ no => ?_, fun _ no => ?_⟩
    · obtain first | mem := List.mem_cons.mp mem
      · cases first
      · exact inv.past i r index t mem
    · exact absurd no (lt_irrefl 0)
    · exact absurd rfl no

theorem reachesTimely_inv (run : ReachesTimely events s) : Inv events s :=
  Run.invariant_of_ok Timely Inv Inv.initial (fun _ _ _ _ inv ok taken => inv.step ok taken) run

/-- **A stand-in is preferred only on current evidence.** Of every step of a timely run:
an order is a permutation of its list's indexes, and starts with index 0 unless within
the last 60 seconds a query on the current list asked resolver 0 without an answer and
was answered by another, and then with an index that answered a query on the current
list; and the time moves forward only with an answer after resolver 0 was silent. -/
theorem stand_in_on_current_evidence {events : List Event} {s s' : State} {e : Event}
    (run : ReachesTimely events s) (timely : Timely s e) (taken : Step s e s') :
    (∀ i routes now result, e = .ordered i routes now result →
      result.Perm (List.range routes.count) ∧
      (result.head? = some 0 ∨
        (∃ t, FailedOver events s.routes t ∧ t ≤ now ∧ now < t + preferFor) ∧
        ∃ index, result.head? = some index ∧ AnsweredBy events s.routes index)) ∧
    (s.preference.probePrimaryAt < s'.preference.probePrimaryAt →
      ∃ i routes index, e = .answered i routes index s.clock ∧ index ≠ 0 ∧
        primarySilent i events = true ∧ s'.preference.probePrimaryAt = s.clock + preferFor) := by
  have inv := reachesTimely_inv run
  refine ⟨?_, taken.effect.lengthens inv.remembers⟩
  rintro i routes now result rfl
  have effect := taken.effect
  cases effect with
  | ordered _ deadline share _ held =>
    refine ⟨order_perm _ _ _, ?_⟩
    simp only [Preference.order, List.head?_cons, Option.some.injEq, exists_eq_left']
    by_cases zero : s.preference.first s.clock routes.count = 0
    · exact .inl zero
    right
    have current : s.clock < s.preference.probePrimaryAt ∧ s.preference.preferred < routes.count := by
      by_contra no
      exact zero (if_neg no)
    have first : s.preference.first s.clock routes.count = s.preference.preferred := if_pos current
    have nonzero : s.preference.preferred ≠ 0 := first ▸ zero
    have idle : s.reloading = false := by
      by_contra busy
      obtain late | none_ := timely (by simpa using busy)
      · omega
      · exact nonzero none_
    obtain ⟨t, evidence, at_⟩ := inv.window idle (by omega)
    obtain ⟨later, earlier, j, index, split, -⟩ := id evidence
    have before : t ≤ s.clock := inv.past j s.routes index t (by simp [split])
    rw [first]
    exact ⟨⟨t, evidence, before, by omega⟩, inv.standIn idle nonzero⟩

/-! ## Poles -/

def sampleStart : State := .start [10, 11] (by decide)

theorem sampleStart_initial : sampleStart.Initial := ⟨rfl, rfl, fun _ => rfl⟩

/-- Query 0 asks resolver 0 without an answer and gets one from resolver 1. -/
def failover : List Action :=
  [.take 0, .order 0 (4 * second) false, .ask 0, .tick second, .silent 0, .ask 0, .reply 0]

/-- What a schedule did, and the list it ends with. -/
def outcome (check : State → Event → Bool) (actions : List Action) : Option (Routes × List Event) :=
  (schedule exec check sampleStart actions []).map fun (s, events) => (s.routes, events)

theorem outcome_run {step : State → Event → State → Prop} {check : State → Event → Bool}
    (admits : ∀ s e s', check s e = true → Exec exec s e s' → step s e s')
    {actions : List Action} {events : List Event} {routes : Routes}
    (ran : outcome check actions = some (routes, events)) :
    ∃ s, Run State.Initial step events s ∧ s.routes = routes := by
  obtain ⟨⟨s, _⟩, done, same⟩ := Option.map_eq_some_iff.mp ran
  obtain ⟨rfl, rfl⟩ := Prod.mk.inj same
  exact ⟨s, schedule_run admits actions (.start sampleStart_initial) done, rfl⟩

/-- With the answer recorded in time, the next query starts with resolver 1, on evidence. -/
theorem stand_in_on_current_evidence_failover :
    ∃ (events : List Event) (s : State) (t : Nat), FailedOver events s.routes t ∧ t ≤ second ∧
      second < t + preferFor ∧ AnsweredBy events s.routes 1 := by
  have ran : outcome (fun s e => decide (Timely s e))
        (failover ++ [.answered 0, .take 1, .order 1 (8 * second) false]) =
      some (sampleStart.routes, [.ordered 1 sampleStart.routes second [1, 0], .quiet,
        .answered 0 sampleStart.routes 1 second, .quiet, .quiet, .silent 0 0, .quiet, .quiet,
        .ordered 0 sampleStart.routes 0 [0, 1], .quiet]) := by
    decide +kernel
  obtain ⟨s', run, -⟩ := outcome_run
    (fun s e s' ok taken => (⟨of_decide_eq_true ok, taken⟩ : Timely s e ∧ Step s e s')) ran
  cases run with
  | @next events _ s _ before taken =>
    have holds := (stand_in_on_current_evidence before taken.1 taken.2).1 _ _ _ _ rfl
    obtain zero | ⟨⟨t, evidence, from_, until_⟩, index, head, answered⟩ := holds.2
    · cases zero
    · cases head
      exact ⟨_, s, t, evidence, from_, until_, answered⟩

/-- An order by query 1 that starts with resolver 1, although no query with the current
resolvers has had an answer. -/
def Unfounded (events : List Event) (s : State) : Prop :=
  ∃ now earlier, events = .ordered 1 s.routes now [1, 0] :: earlier ∧
    ∀ i r index t, Event.answered i r index t ∈ earlier → r.directDns ≠ s.routes.directDns

/-- The answers of a history came from other lists. -/
def onlyOtherLists (directDns : List Nat) (events : List Event) : Bool :=
  events.all fun
    | .answered _ r _ _ => r.directDns != directDns
    | _ => true

theorem unfounded_of_outcome {actions : List Action} {routes : Routes} {now : Nat} {earlier : List Event}
    (ran : outcome (fun _ _ => true) actions = some (routes, .ordered 1 routes now [1, 0] :: earlier))
    (others : onlyOtherLists routes.directDns earlier = true) :
    ∃ events s, Reaches events s ∧ Unfounded events s := by
  obtain ⟨s, run, rfl⟩ := outcome_run (fun _ _ _ _ taken => taken) ran
  refine ⟨_, s, run, now, earlier, rfl, fun i r index t mem => ?_⟩
  simpa using List.all_eq_true.mp others _ mem

/-- **A query from before a reload sets the preference after it.** Query 0 began on the
list 10, 11; the reload to 20, 21 and its reset are over when its answer is recorded, and
query 1 then asks resolver 21 first. -/
theorem stale_answer_prefers : ∃ events s, Reaches events s ∧ Unfounded events s := by
  have ran : outcome (fun _ _ => true) (failover ++ [.setRoutes [20, 21], .reset, .answered 0, .take 1,
        .order 1 (8 * second) false]) =
      some (⟨1, [20, 21], by decide⟩, [.ordered 1 ⟨1, [20, 21], by decide⟩ second [1, 0], .quiet,
        .answered 0 sampleStart.routes 1 second, .reloaded, .quiet, .quiet, .quiet, .silent 0 0, .quiet,
        .quiet, .ordered 0 sampleStart.routes 0 [0, 1], .quiet]) := by
    decide +kernel
  exact unfounded_of_outcome ran (by decide)

-- and without a late answer: query 1 takes the new list and orders before the reset
example : ∃ events s, Reaches events s ∧ Unfounded events s := by
  have ran : outcome (fun _ _ => true) (failover ++ [.answered 0, .setRoutes [20, 21], .take 1,
        .order 1 (8 * second) false]) =
      some (⟨1, [20, 21], by decide⟩, [.ordered 1 ⟨1, [20, 21], by decide⟩ second [1, 0], .quiet, .quiet,
        .answered 0 sampleStart.routes 1 second, .quiet, .quiet, .silent 0 0, .quiet, .quiet,
        .ordered 0 sampleStart.routes 0 [0, 1], .quiet]) := by
    decide +kernel
  exact unfounded_of_outcome ran (by decide)

end ProgramSplit.Dns.Direct
