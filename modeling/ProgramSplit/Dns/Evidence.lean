/-
# Dns.Evidence — what a direct route rests on

The entry of a key is one mutable record that `addResolved`, `decide`, `retire`,
`complete`, `expire` and `lostEvents` all rewrite, and that drops evidence on
purpose. `KeyInv` relates it to the whole history of the key:

* an entry without tunnel evidence expires no later than its last unlisted event
  or its quarantine allows;
* an unknown event holds the quarantine for its lifetime;
* a selected event keeps tunnel evidence in the entry until a tunnel exchange
  decided after the event has been answered for a whole reuse window.

`take_direct_evidence` reads the invariant off at a direct decision.
-/
import ProgramSplit.Dns.Dispatcher

namespace ProgramSplit.Dns

open Lib

set_option autoImplicit false

/-- In `since` (latest first), a tunnel decision for the key was followed by a
completed exchange of the key at `at_`. -/
def TunnelAnswered (key : WString) (since : List Event) (at_ : Nat) : Prop :=
  ∃ later earlier i route, since = later ++ Event.completed i route at_ :: earlier ∧
    route.key = key ∧ ∃ j chosen, Event.decided j chosen ∈ earlier ∧ chosen.key = key ∧
      chosen.tunnel = true

theorem TunnelAnswered.cons {key : WString} {since : List Event} {at_ : Nat}
    (answered : TunnelAnswered key since at_) (e : Event) : TunnelAnswered key (e :: since) at_ := by
  obtain ⟨later, earlier, i, route, rfl, rest⟩ := answered
  exact ⟨e :: later, earlier, i, route, rfl, rest⟩

/-- The tunnel evidence an entry holds for a selected event: its own event, not
yet answered, or the credit of an exchange decided after it. -/
structure Held (key : WString) (since : List Event) (p : Pending) : Prop where
  tunnel : p.tunnel = true
  credit : p.selected = false ∨ p.answered = true ∧ p.decision = .tunnel →
    p.selectedAnswered = true ∧ ∃ c, c ≤ p.selectedAnsweredAt ∧ TunnelAnswered key since c

theorem Held.cons {key : WString} {since : List Event} {p : Pending} (held : Held key since p)
    (e : Event) : Held key (e :: since) p where
  tunnel := held.tunnel
  credit h := by
    obtain ⟨credited, c, bound, answered⟩ := held.credit h
    exact ⟨credited, c, bound, answered.cons e⟩

/-- How the fields of an entry, also a fresh one, go together. -/
structure Shape (key : WString) (window : Nat) (events : List Event) (clock : Nat)
    (p : Pending) : Prop where
  selected : p.selected = true → p.tunnel = true
  credited : p.selectedAnswered = true → p.tunnel = true ∧ p.selectedAnsweredAt ≤ clock
  quarantine : p.unknownUntil ≤ p.expires
  bounded : p.expires ≤ clock + lifetime ∨
    p.selectedAnswered = true ∧ p.expires ≤ p.selectedAnsweredAt + window
  direct : p.direct = true → p.tunnel = false → ∃ source g u,
    source.evidence = .unlisted ∧ Event.recorded key source g u ∈ events ∧
    p.expires ≤ max (u + lifetime) p.unknownUntil
  chosen : p.decision = .direct → p.direct = true

/-- What an entry of the map says about the history of its key. -/
structure EntryInv (key : WString) (window : Nat) (events : List Event) (clock : Nat)
    (p : Pending) : Prop extends Shape key window events clock p where
  outlives : ∀ source g t, Event.recorded key source g t ∈ events →
    t + lifetime ≤ p.expires ∨ t + lifetime ≤ clock
  newest : ∀ source g t, Event.recorded key source g t ∈ events → g ≤ p.generation
  consistent : ∀ i route, Event.decided i route ∈ events → route.key = key →
    route.generation = p.generation → route.tunnel = false → p.tunnel = false

/-- The invariant of one key. -/
structure KeyInv (key : WString) (window : Nat) (events : List Event) (clock generations : Nat)
    (entry : Option Pending) : Prop where
  live : ∀ p, entry = some p → EntryInv key window events clock p ∧ p.generation ≤ generations
  unknown : ∀ source g t, source.evidence = .unknown → Event.recorded key source g t ∈ events →
    t + lifetime ≤ clock ∨ ∃ p, entry = some p ∧ t + lifetime ≤ p.unknownUntil
  selected : ∀ since before source g t, source.evidence = .selected →
    events = since ++ Event.recorded key source g t :: before →
    t + lifetime ≤ clock ∨ (∃ c, TunnelAnswered key since c ∧ c + window ≤ clock) ∨
      ∃ p, entry = some p ∧ Held key since p
  ordered : ∀ since before source g t,
    events = since ++ Event.recorded key source g t :: before →
      ∀ i route, Event.decided i route ∈ before → route.key = key → route.generation < g
  stamped : ∀ source g t, Event.recorded key source g t ∈ events → g ≤ generations
  issued : ∀ i route, Event.decided i route ∈ events → route.key = key →
    route.generation ≤ generations

/-- Where an element of a longer history lies. -/
theorem cons_split {α : Type} {e x : α} {events since before : List α}
    (split : e :: events = since ++ x :: before) :
    (since = [] ∧ x = e ∧ before = events) ∨
      ∃ since', since = e :: since' ∧ events = since' ++ x :: before := by
  cases since with
  | nil =>
    simp only [List.nil_append, List.cons.injEq] at split
    exact Or.inl ⟨rfl, split.1.symm, split.2.symm⟩
  | cons head tail =>
    simp only [List.cons_append, List.cons.injEq] at split
    exact Or.inr ⟨tail, by rw [split.1], split.2⟩

theorem KeyInv.initial (key : WString) (window clock : Nat) : KeyInv key window [] clock 0 none where
  live := by simp
  unknown := by simp
  selected := by simp
  ordered := by simp
  stamped := by simp
  issued := by simp

/-! ## Events of other keys, and time passing -/

/-- An event that neither records evidence of the key nor decides on it. -/
def Event.Beside (key : WString) (e : Event) : Prop :=
  (∀ source g t, e ≠ .recorded key source g t) ∧ ∀ i route, e = .decided i route → route.key ≠ key

variable {key : WString} {window clock now generations : Nat} {events : List Event}
  {entry : Option Pending} {p q : Pending} {e : Event}

theorem Event.Beside.recorded (beside : e.Beside key) {source : Source} {g t : Nat}
    (mem : Event.recorded key source g t ∈ e :: events) :
    Event.recorded key source g t ∈ events := by
  rcases List.mem_cons.mp mem with same | mem
  · exact absurd same.symm (beside.1 source g t)
  · exact mem

theorem Event.Beside.decided (beside : e.Beside key) {i : Nat} {route : Route}
    (mem : Event.decided i route ∈ e :: events) (same : route.key = key) :
    Event.decided i route ∈ events := by
  rcases List.mem_cons.mp mem with first | mem
  · exact absurd same (beside.2 i route first.symm)
  · exact mem

theorem Shape.cons (shape : Shape key window events clock p) (later : clock ≤ now) (e : Event) :
    Shape key window (e :: events) now p where
  selected := shape.selected
  credited h := ⟨(shape.credited h).1, (shape.credited h).2.trans later⟩
  quarantine := shape.quarantine
  bounded := shape.bounded.imp (fun h => h.trans (by omega)) id
  direct h h' := by
    obtain ⟨source, g, u, unlisted, mem, bound⟩ := shape.direct h h'
    exact ⟨source, g, u, unlisted, List.mem_cons_of_mem _ mem, bound⟩
  chosen := shape.chosen

theorem EntryInv.cons (inv : EntryInv key window events clock p) (later : clock ≤ now)
    (beside : e.Beside key) : EntryInv key window (e :: events) now p where
  toShape := inv.toShape.cons later e
  outlives source g t mem :=
    (inv.outlives source g t (beside.recorded mem)).imp id (·.trans later)
  newest source g t mem := inv.newest source g t (beside.recorded mem)
  consistent i route mem same := inv.consistent i route (beside.decided mem same) same

/-- What became of a selected event, once one more event has followed it. -/
theorem KeyInv.selected_cons (inv : KeyInv key window events clock generations entry)
    (later : clock ≤ now) {since before : List Event} {source : Source} {g t : Nat}
    (selected : source.evidence = .selected)
    (split : events = since ++ Event.recorded key source g t :: before) (e : Event) :
    t + lifetime ≤ now ∨ (∃ c, TunnelAnswered key (e :: since) c ∧ c + window ≤ now) ∨
      ∃ p, entry = some p ∧ Held key since p :=
  (inv.selected since before source g t selected split).imp (·.trans later)
    (Or.imp_left fun ⟨c, answered, bound⟩ => ⟨c, answered.cons e, bound.trans later⟩)

theorem KeyInv.cons (inv : KeyInv key window events clock generations entry) (later : clock ≤ now)
    {generations' : Nat} (grown : generations ≤ generations') (beside : e.Beside key) :
    KeyInv key window (e :: events) now generations' entry where
  live p found := ⟨(inv.live p found).1.cons later beside, (inv.live p found).2.trans grown⟩
  unknown source g t is mem := (inv.unknown source g t is (beside.recorded mem)).imp (·.trans later) id
  selected since before source g t is split := by
    rcases cons_split split with ⟨_, first, _⟩ | ⟨since, rfl, rest⟩
    · exact absurd first.symm (beside.1 _ _ _)
    · exact (inv.selected_cons later is rest e).imp_right
        (Or.imp_right fun ⟨p, found, held⟩ => ⟨p, found, held.cons e⟩)
  ordered since before source g t split := by
    rcases cons_split split with ⟨_, first, _⟩ | ⟨since, rfl, rest⟩
    · exact absurd first.symm (beside.1 _ _ _)
    · exact inv.ordered since before source g t rest
  stamped source g t mem := (inv.stamped source g t (beside.recorded mem)).trans grown
  issued i route mem same := (inv.issued i route (beside.decided mem same) same).trans grown

/-- The marks of an exchange on an entry say nothing about the evidence it holds. -/
theorem EntryInv.mark (inv : EntryInv key window events clock p) (answered : Bool) (at_ : Nat)
    {decision : Decision} (chosen : decision = .direct → p.direct = true) :
    EntryInv key window events clock
      { p with answered := answered, answeredAt := at_, decision := decision } :=
  { inv with chosen }

/-- Time alone keeps the invariant. -/
theorem KeyInv.advance (inv : KeyInv key window events clock generations entry)
    (later : clock ≤ now) : KeyInv key window events now generations entry where
  live p found :=
    have good := (inv.live p found).1
    ⟨{ good with
       credited := fun h => ⟨(good.credited h).1, (good.credited h).2.trans later⟩
       bounded := good.bounded.imp (fun h => h.trans (by omega)) id
       outlives := fun source g t mem => (good.outlives source g t mem).imp id (·.trans later) },
      (inv.live p found).2⟩
  unknown source g t is mem := (inv.unknown source g t is mem).imp (·.trans later) id
  selected since before source g t is split :=
    (inv.selected since before source g t is split).imp (·.trans later)
      (Or.imp_left fun ⟨c, answered, bound⟩ => ⟨c, answered, bound.trans later⟩)
  ordered := inv.ordered
  stamped := inv.stamped
  issued := inv.issued

/-! ## Entries that go, and entries that are rewritten -/

/-- An entry may go once it has expired, or once it holds neither tunnel evidence
nor a quarantine. -/
theorem KeyInv.remove (inv : KeyInv key window events clock generations (some p))
    (gone : p.expires ≤ clock ∨ p.tunnel = false ∧ p.unknownUntil ≤ clock) :
    KeyInv key window events clock generations none where
  live := by simp
  unknown source' g t is mem := by
    rcases inv.unknown source' g t is mem with old | ⟨q, found, quarantine⟩
    · exact Or.inl old
    · cases found
      have := (inv.live p rfl).1.quarantine
      exact Or.inl (by omega)
  selected since before source g t is split := by
    rcases inv.selected since before source g t is split with old | answered | ⟨q, found, held⟩
    · exact Or.inl old
    · exact Or.inr (Or.inl answered)
    · cases found
      rcases gone with expired | ⟨plain, _⟩
      · have outlives := (inv.live p rfl).1.outlives source g t (by simp [split])
        exact Or.inl (by omega)
      · rw [held.tunnel] at plain
        cases plain
  ordered := inv.ordered
  stamped := inv.stamped
  issued := inv.issued

theorem KeyInv.sweep {old new : Option Pending}
    (inv : KeyInv key window events clock generations old) (swept : Hints.Swept clock old new) :
    KeyInv key window events clock generations new := by
  rcases swept with rfl | ⟨p, rfl, expired, rfl⟩
  · exact inv
  · exact inv.remove (Or.inl expired)

/-- An entry may be rewritten in place when it keeps its quarantine and, for every
selected event, either the evidence or an exchange answered long enough ago. -/
theorem KeyInv.replace (inv : KeyInv key window events clock generations (some p))
    (good : EntryInv key window events clock q) (same : q.generation = p.generation)
    (quarantine : q.unknownUntil = p.unknownUntil)
    (kept : ∀ since, Held key since p → Held key since q ∨
      ∃ c, TunnelAnswered key since c ∧ c + window ≤ clock) :
    KeyInv key window events clock generations (some q) where
  live r found := by
    cases found
    exact ⟨good, same.trans_le (inv.live p rfl).2⟩
  unknown source' g t is mem := by
    rcases inv.unknown source' g t is mem with old | ⟨r, found, bound⟩
    · exact Or.inl old
    · cases found
      exact Or.inr ⟨q, rfl, quarantine ▸ bound⟩
  selected since before source g t is split := by
    rcases inv.selected since before source g t is split with old | answered | ⟨r, found, held⟩
    · exact Or.inl old
    · exact Or.inr (Or.inl answered)
    · cases found
      rcases kept since held with held | answered
      · exact Or.inr (Or.inr ⟨q, rfl, held⟩)
      · exact Or.inr (Or.inl answered)
  ordered := inv.ordered
  stamped := inv.stamped
  issued := inv.issued

/-! ## `retire` -/

/-- `recentSelected` of `retire`. -/
theorem retire_selectedAnswered : (p.retire window now).selectedAnswered = true ↔
    p.selectedAnswered = true ∧ now - p.selectedAnsweredAt < window := by
  simp [Pending.retire]

theorem retire_tunnel : (p.retire window now).tunnel = true ↔
    p.tunnel = true ∧ p.decision ≠ .tunnel ∨ (p.retire window now).selectedAnswered = true := by
  simp [Pending.retire]

theorem Shape.retire (shape : Shape key window events now p) :
    Shape key window events now (p.retire window now) where
  selected h := by
    simp only [Pending.retire, Bool.and_eq_true, Bool.or_eq_true] at h ⊢
    exact Or.inl h.1
  credited h := ⟨retire_tunnel.mpr (Or.inr h), (shape.credited (retire_selectedAnswered.mp h).1).2⟩
  quarantine := shape.quarantine
  bounded := by
    rcases shape.bounded with bound | ⟨credited, bound⟩
    · exact Or.inl bound
    · by_cases recent : now - p.selectedAnsweredAt < window
      · exact Or.inr ⟨retire_selectedAnswered.mpr ⟨credited, recent⟩, bound⟩
      · have := (shape.credited credited).2
        exact Or.inl (show p.expires ≤ now + lifetime by omega)
  direct h := by simp [Pending.retire] at h
  chosen h := by simp [Pending.retire] at h

theorem EntryInv.retire (inv : EntryInv key window events now p) :
    EntryInv key window events now (p.retire window now) where
  toShape := inv.toShape.retire
  outlives := inv.outlives
  newest := inv.newest
  consistent i route mem same stamp direct := by
    have plain := inv.consistent i route mem same stamp direct
    by_contra tunnel
    rcases retire_tunnel.mp (by simpa using tunnel) with ⟨h, _⟩ | h
    · rw [plain] at h; cases h
    · have := (inv.credited (retire_selectedAnswered.mp h).1).1
      rw [plain] at this; cases this

/-- Retiring an answered entry keeps a selected event's evidence until its answered
exchange is a reuse window old. -/
theorem Held.retire {since : List Event} (held : Held key since p)
    (shape : Shape key window events now p) (answered : p.answered = true) :
    Held key since (p.retire window now) ∨ ∃ c, TunnelAnswered key since c ∧ c + window ≤ now := by
  by_cases own : p.selected = true ∧ p.decision ≠ .tunnel
  · -- the selected event is unclaimed: it stays as it is
    refine Or.inl ⟨retire_tunnel.mpr (Or.inl ⟨held.tunnel, own.2⟩), fun h => ?_⟩
    simp [Pending.retire, held.tunnel, own] at h
  · have claimed : p.selected = false ∨ p.answered = true ∧ p.decision = .tunnel := by
      by_cases h : p.selected = true
      · exact Or.inr ⟨answered, by simpa [h] using own⟩
      · exact Or.inl (by simpa using h)
    obtain ⟨credited, c, bound, done⟩ := held.credit claimed
    by_cases recent : now - p.selectedAnsweredAt < window
    · have credit := retire_selectedAnswered.mpr ⟨credited, recent⟩
      exact Or.inl ⟨retire_tunnel.mpr (Or.inr credit), fun _ => ⟨credit, c, bound, done⟩⟩
    · have := (shape.credited credited).2
      exact Or.inr ⟨c, done, by omega⟩

theorem KeyInv.retire (inv : KeyInv key window events now generations (some p))
    (answered : p.answered = true) :
    KeyInv key window events now generations (some (p.retire window now)) :=
  have good := (inv.live p rfl).1
  inv.replace good.retire rfl rfl fun _ held => held.retire good.toShape answered

/-! ## `decide` -/

/-- Claiming the evidence for the tunnel. -/
theorem KeyInv.claim (inv : KeyInv key window events clock generations (some p)) (answered : Bool)
    (open_ : answered = false) :
    KeyInv key window events clock generations
      (some { p with answered := answered, decision := .tunnel }) := by
  have good := (inv.live p rfl).1
  refine inv.replace (good.mark answered _ nofun) rfl rfl fun since held =>
    Or.inl ⟨held.tunnel, fun h => held.credit (Or.inl ?_)⟩
  simpa [open_] using h

theorem KeyInv.lapse (inv : KeyInv key window events now generations (some p))
    (answered : p.answered = true) :
    KeyInv key window events now generations ((p.retire window now).lapse now).entry := by
  have retired := inv.retire answered
  unfold Pending.lapse
  split_ifs with gone tunnel
  · exact retired.remove (Or.inr gone)
  · exact retired.claim false rfl
  · exact retired

theorem KeyInv.decide (inv : KeyInv key window events now generations (some p)) (allowed : Bool) :
    KeyInv key window events now generations (p.decide window allowed now).entry := by
  have good := (inv.live p rfl).1
  unfold Pending.decide
  split_ifs with answered newer ended reuse tunnel direct
  · exact inv.claim false rfl
  · exact inv.lapse answered
  · exact inv
  · exact inv
  · exact inv.claim p.answered (by simpa using answered)
  · -- a direct decision rewrites nothing but itself, and there is no tunnel evidence to keep
    have plain : p.tunnel = false := by simpa using (not_or.mp tunnel).1
    have evidence : p.direct = true := direct.2.elim id good.chosen
    refine inv.replace (good.mark _ _ fun _ => evidence) rfl rfl fun since held => ?_
    rw [held.tunnel] at plain
    cases plain
  · exact inv

/-- A direct route: there is direct evidence and no tunnel evidence. -/
theorem decide_direct {allowed : Bool} (shape : Shape key window events clock p)
    (routed : (p.decide window allowed now).route = some false) :
    p.tunnel = false ∧ p.direct = true ∧
      ∃ q, (p.decide window allowed now).entry = some q ∧ q.tunnel = false := by
  unfold Pending.decide at routed ⊢
  split_ifs at routed ⊢ with answered newer ended reuse tunnel direct
  · cases routed
  · exact absurd routed (Hints.lapse_route _ _)
  · -- the reused route of an answered entry
    have notTunnel : p.decision ≠ .tunnel := by
      intro h
      simp [h] at routed
    have plain : p.tunnel = false := by simpa [notTunnel] using newer
    have chosen : p.decision = .direct := by
      cases h : p.decision with
      | pending => simp [h] at ended
      | direct => rfl
      | tunnel => exact absurd h notTunnel
    exact ⟨plain, shape.chosen chosen, p, rfl, plain⟩
  · cases routed
  · have plain : p.tunnel = false := by simpa using (not_or.mp tunnel).1
    exact ⟨plain, direct.2.elim id shape.chosen, _, rfl, plain⟩

/-- A decision on the evidence of the entry joins the history. -/
theorem KeyInv.decided (inv : KeyInv key window events clock generations (some q)) {i : Nat}
    {route : Route} (stamp : route.generation = q.generation)
    (plain : route.tunnel = false → q.tunnel = false) :
    KeyInv key window (.decided i route :: events) clock generations (some q) where
  live r found := by
    cases found
    have good := (inv.live q rfl).1
    refine ⟨{ toShape := good.toShape.cons le_rfl _, outlives := ?_, newest := ?_, consistent := ?_ },
      (inv.live q rfl).2⟩
    · exact fun source g t mem => good.outlives source g t (by simpa using mem)
    · exact fun source g t mem => good.newest source g t (by simpa using mem)
    · intro j other mem of_key stamped direct
      rcases List.mem_cons.mp mem with first | mem
      · cases first
        exact plain direct
      · exact good.consistent j other mem of_key stamped direct
  unknown source g t is mem := inv.unknown source g t is (by simpa using mem)
  selected since before source g t is split := by
    rcases cons_split split with ⟨_, first, _⟩ | ⟨since, rfl, rest⟩
    · cases first
    · exact (inv.selected_cons le_rfl is rest _).imp_right
        (Or.imp_right fun ⟨p, found, held⟩ => ⟨p, found, held.cons _⟩)
  ordered since before source g t split := by
    rcases cons_split split with ⟨_, first, _⟩ | ⟨since, rfl, rest⟩
    · cases first
    · exact inv.ordered since before source g t rest
  stamped source g t mem := inv.stamped source g t (by simpa using mem)
  issued j other mem of_key := by
    rcases List.mem_cons.mp mem with first | mem
    · cases first
      exact stamp.trans_le (inv.live q rfl).2
    · exact inv.issued j other mem of_key

/-! ## `addResolved` -/

theorem Shape.fresh : Shape key window events clock {} where
  selected := by simp
  credited := by simp
  quarantine := le_rfl
  bounded := Or.inl (Nat.zero_le _)
  direct := by simp
  chosen := by simp

/-- What `addResolved` keeps of the entry is never an answered one. -/
theorem renew_answered : (p.renew window now).answered = false := by
  unfold Pending.renew
  split_ifs with expired answered
  · rfl
  · rfl
  · simpa using answered

theorem KeyInv.renew_shape (inv : KeyInv key window events now generations entry) :
    Shape key window events now ((entry.getD {}).renew window now) := by
  cases entry with
  | none =>
    unfold Pending.renew
    split_ifs <;> exact Shape.fresh
  | some p =>
    have shape := (inv.live p rfl).1.toShape
    unfold Pending.renew
    split_ifs
    · exact Shape.fresh
    · exact shape.retire
    · exact shape

/-- The new event gives the entry its lifetime, its generation and its evidence. -/
theorem Shape.add (shape : Shape key window events now (p.renew window now))
    (source : Source) (g : Nat) :
    Shape key window (.recorded key source g now :: events) now
      (p.add window source.evidence g now) := by
  have plain : ∀ h : (p.renew window now).tunnel = false,
      (p.renew window now).expires ≤ now + lifetime := by
    intro h
    rcases shape.bounded with bound | ⟨credited, _⟩
    · exact bound
    · rw [(shape.credited credited).1] at h
      cases h
  refine ⟨?_, ?_, ?_, ?_, ?_, ?_⟩
  · intro h
    simp only [Pending.add, Bool.or_eq_true] at h ⊢
    exact h.imp shape.selected id
  · intro h
    simp only [Pending.add, Bool.or_eq_true] at h ⊢
    exact ⟨Or.inl (shape.credited h).1, (shape.credited h).2⟩
  · have := shape.quarantine
    simp only [Pending.add]
    split_ifs <;> omega
  · rcases shape.bounded with bound | ⟨credited, bound⟩
    · exact Or.inl (show max _ _ ≤ _ by omega)
    · by_cases longer : now + lifetime ≤ (p.renew window now).expires
      · refine Or.inr ⟨credited, ?_⟩
        show max _ _ ≤ (p.renew window now).selectedAnsweredAt + window
        omega
      · exact Or.inl (show max _ _ ≤ _ by omega)
  · intro direct noTunnel
    simp only [Pending.add, Bool.or_eq_true, Bool.or_eq_false_iff] at direct noTunnel ⊢
    have bound := plain noTunnel.1
    rcases direct with direct | unlisted
    · obtain ⟨source', g', u, is, mem, within⟩ := shape.direct direct noTunnel.1
      cases kind : source.evidence with
      | selected => simp [kind] at noTunnel
      | unlisted => exact ⟨source, g, now, kind, by simp, by omega⟩
      | unknown => exact ⟨source', g', u, is, List.mem_cons_of_mem _ mem, by simp; omega⟩
    · exact ⟨source, g, now, by simpa using unlisted, by simp, by omega⟩
  · intro h
    simp only [Pending.add, Bool.or_eq_true] at h ⊢
    exact Or.inl (shape.chosen h)

theorem Held.add {since : List Event} (held : Held key since (p.renew window now))
    (source : Source) (g : Nat) : Held key since (p.add window source.evidence g now) where
  tunnel := by simp [Pending.add, held.tunnel]
  credit h := by
    have unanswered : (p.add window source.evidence g now).answered = false := renew_answered
    refine held.credit (Or.inl ?_)
    rcases h with plain | ⟨answered, _⟩
    · simp only [Pending.add, Bool.or_eq_false_iff] at plain
      exact plain.1
    · rw [unanswered] at answered
      cases answered

/-- What `addResolved` keeps of the entry keeps every selected event's evidence. -/
theorem KeyInv.renew_held (inv : KeyInv key window events now generations (some p))
    {since before : List Event} {source : Source} {g t : Nat}
    (split : events = since ++ Event.recorded key source g t :: before)
    (held : Held key since p) :
    t + lifetime ≤ now ∨ (∃ c, TunnelAnswered key since c ∧ c + window ≤ now) ∨
      Held key since (p.renew window now) := by
  have good := (inv.live p rfl).1
  unfold Pending.renew
  split_ifs with expired answered
  · have outlives := good.outlives source g t (by simp [split])
    exact Or.inl (by omega)
  · exact Or.inr ((held.retire good.toShape answered).symm)
  · exact Or.inr (Or.inr held)

/-- **Recording an event keeps the invariant of its key.** -/
theorem KeyInv.record (inv : KeyInv key window events now generations entry)
    (past : ∀ source g t, Event.recorded key source g t ∈ events → t ≤ now)
    (source : Source) :
    KeyInv key window (.recorded key source (generations + 1) now :: events) now
      (generations + 1)
      (some ((entry.getD {}).add window source.evidence (generations + 1) now)) where
  live q found := by
    cases found
    refine ⟨{ toShape := inv.renew_shape.add source _, outlives := ?_, newest := ?_,
              consistent := ?_ }, le_rfl⟩
    · intro source' g t mem
      refine Or.inl (show t + lifetime ≤ max _ (now + lifetime) from ?_)
      rcases List.mem_cons.mp mem with first | mem
      · cases first
        omega
      · have := past source' g t mem
        omega
    · intro source' g t mem
      rcases List.mem_cons.mp mem with first | mem
      · cases first
        exact le_rfl
      · exact (inv.stamped source' g t mem).trans (Nat.le_succ _)
    · -- no decision carries the new generation yet
      intro i route mem same stamp
      have issued := inv.issued i route (by simpa using mem) same
      have : route.generation = generations + 1 := stamp
      omega
  unknown source' g t is mem := by
    rcases List.mem_cons.mp mem with first | mem
    · cases first
      exact Or.inr ⟨_, rfl, by simp [Pending.add, is]⟩
    · rcases inv.unknown source' g t is mem with old | ⟨p, rfl, quarantine⟩
      · exact Or.inl old
      · have := past _ g t mem
        have bound := (inv.live p rfl).1.quarantine
        by_cases expired : p.expires ≤ now
        · exact Or.inl (by omega)
        · refine Or.inr ⟨_, rfl, ?_⟩
          have kept : (p.renew window now).unknownUntil = p.unknownUntil := by
            unfold Pending.renew
            split_ifs <;> rfl
          simp only [Pending.add, Option.getD_some]
          split_ifs <;> omega
  selected since before source' g t is split := by
    rcases cons_split split with ⟨rfl, first, _⟩ | ⟨since, rfl, rest⟩
    · cases first
      refine Or.inr (Or.inr ⟨_, rfl, by simp [Pending.add, is], fun h => ?_⟩)
      have unanswered : ((entry.getD {}).add window .selected (generations + 1) now).answered =
        false := renew_answered
      simp [Pending.add, is] at h unanswered
      rw [unanswered] at h
      cases h.1
    · rcases inv.selected_cons le_rfl is rest _ with old | answered | ⟨p, rfl, held⟩
      · exact Or.inl old
      · exact Or.inr (Or.inl answered)
      · rcases inv.renew_held rest held with old | ⟨c, answered, bound⟩ | held
        · exact Or.inl old
        · exact Or.inr (Or.inl ⟨c, answered.cons _, bound⟩)
        · exact Or.inr (Or.inr ⟨_, rfl, (held.add source (generations + 1)).cons _⟩)
  ordered since before source' g t split := by
    rcases cons_split split with ⟨rfl, first, rfl⟩ | ⟨since, rfl, rest⟩
    · cases first
      intro i route mem same
      exact Nat.lt_succ_of_le (inv.issued i route mem same)
    · exact inv.ordered since before source' g t rest
  stamped source' g t mem := by
    rcases List.mem_cons.mp mem with first | mem
    · cases first
      exact le_rfl
    · exact (inv.stamped source' g t mem).trans (Nat.le_succ _)
  issued i route mem same := (inv.issued i route (by simpa using mem) same).trans (Nat.le_succ _)

/-! ## `complete` -/

theorem complete_eq (g : Nat) : p.complete window (some g) now =
    if g = p.generation then { p.credit window now with answered := true, answeredAt := now }
    else p.credit window now := rfl

@[simp] theorem credit_tunnel : (p.credit window now).tunnel = p.tunnel := by
  unfold Pending.credit; split <;> rfl

@[simp] theorem credit_generation : (p.credit window now).generation = p.generation := by
  unfold Pending.credit; split <;> rfl

@[simp] theorem credit_unknownUntil : (p.credit window now).unknownUntil = p.unknownUntil := by
  unfold Pending.credit; split <;> rfl

theorem Shape.credit (shape : Shape key window events now p) :
    Shape key window events now (p.credit window now) := by
  unfold Pending.credit
  split_ifs with own
  · have tunnel := shape.selected own.2
    refine ⟨shape.selected, fun _ => ⟨tunnel, le_rfl⟩, ?_, ?_, ?_, shape.chosen⟩
    · exact shape.quarantine.trans (le_max_left _ _)
    · rcases shape.bounded with bound | ⟨credited, bound⟩
      · by_cases longer : now + window ≤ p.expires
        · exact Or.inl (show max _ _ ≤ _ by omega)
        · exact Or.inr ⟨rfl, show max _ _ ≤ now + window by omega⟩
      · have := (shape.credited credited).2
        exact Or.inr ⟨rfl, show max _ _ ≤ now + window by omega⟩
    · intro _ plain
      have : p.tunnel = false := plain
      rw [tunnel] at this
      cases this
  · exact shape

theorem EntryInv.complete (inv : EntryInv key window events now p) (g : Nat) :
    EntryInv key window events now (p.complete window (some g) now) := by
  have longer : p.expires ≤ (p.credit window now).expires := by
    unfold Pending.credit
    split
    · exact le_max_left _ _
    · exact le_rfl
  have credited : EntryInv key window events now (p.credit window now) :=
    { toShape := inv.toShape.credit, newest := by simpa using inv.newest
      consistent := by simpa using inv.consistent
      outlives := fun source g t mem => (inv.outlives source g t mem).imp (·.trans longer) id }
  rw [complete_eq]
  split_ifs
  · exact credited.mark true now credited.chosen
  · exact credited

/-- Completing the exchange of a decision taken since a selected event credits that
event; completing an older one leaves its evidence open. -/
theorem Held.complete {since : List Event} {i : Nat} {route : Route} (held : Held key since p)
    (shape : Shape key window events now p) (same : route.key = key)
    (claims : route.generation = p.generation →
      Event.decided i route ∈ since ∧ route.tunnel = true) :
    Held key (.completed i route now :: since)
      (p.complete window (some route.generation) now) := by
  have kept : ∀ c, c ≤ p.selectedAnsweredAt → TunnelAnswered key since c →
      p.selectedAnswered = true → (p.credit window now).selectedAnswered = true ∧
        ∃ c, c ≤ (p.credit window now).selectedAnsweredAt ∧
          TunnelAnswered key (.completed i route now :: since) c := by
    intro c bound answered credited
    have := (shape.credited credited).2
    unfold Pending.credit
    split_ifs
    · exact ⟨rfl, c, show c ≤ now by omega, answered.cons _⟩
    · exact ⟨credited, c, bound, answered.cons _⟩
  have credit_selected : (p.credit window now).selected = p.selected := by
    unfold Pending.credit; split <;> rfl
  have credit_decision : (p.credit window now).decision = p.decision := by
    unfold Pending.credit; split <;> rfl
  have credit_answered : (p.credit window now).answered = p.answered := by
    unfold Pending.credit; split <;> rfl
  rw [complete_eq]
  split_ifs with current
  · obtain ⟨decided, tunnel⟩ := claims current
    refine ⟨credit_tunnel.trans held.tunnel, fun h => ?_⟩
    by_cases own : p.decision = .tunnel ∧ p.selected = true
    · -- this very exchange is the answered one
      have answered : TunnelAnswered key (.completed i route now :: since) now :=
        ⟨[], since, i, route, rfl, same, i, route, decided, same, tunnel⟩
      simp only [Pending.credit, own, and_self, if_true]
      exact ⟨trivial, now, le_rfl, answered⟩
    · have plain : p.selected = false := by
        rcases h with h | ⟨_, h⟩
        · exact credit_selected.symm.trans h
        · have : p.decision = .tunnel := credit_decision.symm.trans h
          simpa [this] using own
      obtain ⟨credited, c, bound, answered⟩ := held.credit (Or.inl plain)
      exact kept c bound answered credited
  · refine ⟨credit_tunnel.trans held.tunnel, fun h => ?_⟩
    rw [credit_selected, credit_answered, credit_decision] at h
    obtain ⟨credited, c, bound, answered⟩ := held.credit h
    exact kept c bound answered credited

/-- **Completing an exchange keeps the invariant of its key.** -/
theorem KeyInv.complete (inv : KeyInv key window events now generations (some p)) {i : Nat}
    {route : Route} (same : route.key = key) (issued : Event.decided i route ∈ events) :
    KeyInv key window (.completed i route now :: events) now generations
      (some (p.complete window (some route.generation) now)) := by
  have good := (inv.live p rfl).1
  have generation : (p.complete window (some route.generation) now).generation = p.generation := by
    rw [complete_eq]; split_ifs <;> simp
  have unknownUntil :
      (p.complete window (some route.generation) now).unknownUntil = p.unknownUntil := by
    rw [complete_eq]; split_ifs <;> simp
  have beside : (Event.completed i route now).Beside key := ⟨by simp, by simp⟩
  have moved := inv.cons le_rfl le_rfl beside
  refine { live := ?_, unknown := ?_, selected := ?_, ordered := moved.ordered
           stamped := moved.stamped, issued := moved.issued }
  · intro q found
    cases found
    exact ⟨(good.complete _).cons le_rfl beside, generation.trans_le (inv.live p rfl).2⟩
  · intro source g t is mem
    rcases moved.unknown source g t is mem with old | ⟨q, found, quarantine⟩
    · exact Or.inl old
    · cases found
      exact Or.inr ⟨_, rfl, unknownUntil ▸ quarantine⟩
  · intro since before source g t is split
    rcases cons_split split with ⟨_, first, _⟩ | ⟨since, rfl, rest⟩
    · cases first
    · rcases inv.selected_cons le_rfl is rest _ with old | answered | ⟨q, found, held⟩
      · exact Or.inl old
      · exact Or.inr (Or.inl answered)
      · cases found
        refine Or.inr (Or.inr ⟨_, rfl, held.complete good.toShape same fun current => ?_⟩)
        -- a decision on the entry's own generation came after the event
        have newest := good.newest source g t (by simp [rest])
        constructor
        · rw [rest] at issued
          rcases List.mem_append.mp issued with mem | mem
          · exact mem
          · rcases List.mem_cons.mp mem with first | mem
            · cases first
            · have := inv.ordered since before _ g t rest i route mem same
              omega
        · by_contra direct
          have plain := good.consistent i route issued same current (by simpa using direct)
          rw [held.tunnel] at plain
          cases plain

end ProgramSplit.Dns
