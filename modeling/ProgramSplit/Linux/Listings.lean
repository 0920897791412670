/-
# Linux.Listings — ruleset listings reused while the generation is unchanged

`RulesetListings` of `inventory.py` beside the kernel it reads.  A transaction gives the ruleset a
generation that was never seen before; a table bound to the socket that made it vanishes with that
socket, and the generation stays.  A call reads the generation, runs the tool and reads the
generation again, and the kernel may move between any two of these.

* `ownerBound` — `_owner_bound`, on the parsed listing.
* `Sys.next` — one event: of the kernel, or the next step of the call.
* `Cache.Current` — **a kept listing of the present generation is the present ruleset**, and no
  owner-bound table is left.
* `listings_never_stale` — every text that is returned from the cache, or by a run with the same
  generation around it, is what the tool prints at a moment of that call.
* `torn_listing_returned` — a run with a transaction in its middle is returned as it is.
-/
import ProgramSplit.Lib.Run
import ProgramSplit.Lib.FiniteMap
import ProgramSplit.Linux.NftMarks

namespace ProgramSplit.Linux.Listings

set_option autoImplicit false

open Lib

/-! ## The nft listing -/

/-- The items a `for` loop goes through, if the value can be iterated. -/
def items : Json → Option (List Json)
  | .list items | .tuple items => some items
  | .dict fields => some (fields.map fun field => .str field.1)
  | .str value => some (value.toList.map fun c => .str (String.singleton c))
  | _ => none

/-- `flags == 'owner' or (isinstance(flags, list) and 'owner' in flags)` -/
def isOwner : Json → Bool
  | .str flag => flag = "owner"
  | .list flags => flags.any fun
      | .str flag => flag = "owner"
      | _ => false
  | _ => false

/-- The entry is a table whose flags say that a socket owns it. -/
def ownedTable : Json → Bool
  | .dict entry =>
    match entry.lookup "table" with
    | some (.dict table) => isOwner ((table.lookup "flags").getD (.list []))
    | _ => false
  | _ => false

/-- `_owner_bound`: true unless the listing is nft JSON whose tables carry no "owner" flag. -/
def ownerBound (loads : String → Option Json) (listing : String) : Bool :=
  match loads listing with
  | some (.dict fields) =>
    match (fields.lookup "nftables").bind items with
    | some entries => entries.any ownedTable
    | none => true
  | _ => true

/-! ## The kernel and its tools -/

inductive Command
  | nft
  | iptablesSave
  | ip6tablesSave
  deriving DecidableEq, Repr

/-- The rulesets of a kernel and what the tools print for them, counters and the contents of dynamic
sets left aside. -/
structure Tools (Rules : Type) where
  prints : Command → Rules → String → Prop
  loads : String → Option Json
  owned : Rules → Prop
  /-- nft lists every table with its flags. -/
  flagged : ∀ rules text, prints .nft rules text → owned rules →
    ∃ fields entries entry, loads text = some (.dict fields) ∧
    fields.lookup "nftables" = some (.list entries) ∧
      entry ∈ entries ∧ ownedTable entry = true

theorem Tools.not_owned {Rules : Type} (tools : Tools Rules) {rules : Rules} {text : String}
    (printed : tools.prints .nft rules text) (free : ownerBound tools.loads text = false) :
    ¬ tools.owned rules := by
  intro owned
  obtain ⟨fields, entries, entry, parsed, listed, member, flag⟩ := tools.flagged rules text printed owned
  rw [ownerBound, parsed] at free
  simp only [listed, Option.bind_some, items] at free
  exact absurd flag (by simpa using List.any_eq_false.mp free entry member)

/-! ## Calls -/

section Model

variable {Gen Rules : Type}

/-- `entries` and `owner_free`. -/
structure Cache (Gen : Type) where
  entries : FiniteMap Command (Gen × String) := ∅
  ownerFree : Option Gen := none

/-- Where the call is: before its first read, while the tool runs without a generation, while it runs
after a generation was read, and before the second read.  The rulesets are those of the moments of
the tool's run. -/
inductive Phase (Gen Rules : Type)
  | idle
  | called (argv : Command)
  | unread (argv : Command)
  | listing (argv : Command) (before : Gen) (during : List Rules)
  | listed (argv : Command) (before : Gen) (during : List Rules) (output : String)

/-- A returned text, with the rulesets of the moments of its call.  `output` is what the tool printed
in this call, `settled` that the generation around it was read twice and the same. -/
structure Return (Rules : Type) where
  argv : Command
  text : String
  moments : List Rules
  output : Option String
  settled : Bool

structure Sys (Gen Rules : Type) where
  gen : Gen
  rules : Rules
  seen : List Gen
  cache : Cache Gen := {}
  phase : Phase Gen Rules := .idle
  moments : List Rules := []
  returned : List (Return Rules) := []

inductive Event (Gen Rules : Type)
  | commit (gen : Gen) (rules : Rules)
  | vanish (rules : Rules)
  | call (argv : Command)
  | read (fails : Bool)
  | finish (output : String)
  | raises
  | reread (fails : Bool)

/-- The moment joins those of the call and of the tool's run. -/
def Phase.observe (rules : Rules) : Phase Gen Rules → Phase Gen Rules
  | .listing argv before during => .listing argv before (rules :: during)
  | phase => phase

def Sys.move (s : Sys Gen Rules) (rules : Rules) : Sys Gen Rules :=
  { s with rules, phase := s.phase.observe rules, moments := rules :: s.moments }

/-- The call is over. -/
def Sys.finish (s : Sys Gen Rules) (cache : Cache Gen) (argv : Command) (text : String)
    (output : Option String) (settled : Bool) : Sys Gen Rules :=
  { s with cache, phase := .idle, returned := ⟨argv, text, s.moments, output, settled⟩ :: s.returned }

/-- A kept listing that may be returned. -/
def Cache.hit [DecidableEq Gen] (c : Cache Gen) (argv : Command) (before : Gen) : Option String :=
  match c.entries.lookup argv with
  | some (gen, text) => if gen = before ∧ c.ownerFree = some before then some text else none
  | none => none

/-- What the cache becomes after a run of the tool. -/
def Cache.keep [DecidableEq Gen] (loads : String → Option Json) (c : Cache Gen) (argv : Command)
    (before : Gen) (output : String) (stable : Bool) : Cache Gen :=
  let ownerFree :=
    if argv = .nft then if stable && !ownerBound loads output then some before else none else c.ownerFree
  if stable ∧ ownerFree = some before then ⟨c.entries.insert argv (before, output), ownerFree⟩
  else ⟨c.entries.erase argv, ownerFree⟩

/-- One event.  The first read decides at once whether a kept listing is returned; the second one
decides what is kept, and the call returns. -/
def Sys.next [DecidableEq Gen] (loads : String → Option Json) (s : Sys Gen Rules) :
    Event Gen Rules → Option (Sys Gen Rules)
  | .commit gen rules => some { s.move rules with gen, seen := gen :: s.seen }
  | .vanish rules => some (s.move rules)
  | .call argv =>
    match s.phase with
    | .idle => some { s with phase := .called argv, moments := [s.rules] }
    | _ => none
  | .read fails =>
    match s.phase with
    | .called argv =>
      if fails then some { s with cache := {}, phase := .unread argv }
      else
        match s.cache.hit argv s.gen with
        | some text => some (s.finish s.cache argv text none false)
        | none => some { s with phase := .listing argv s.gen [s.rules] }
    | _ => none
  | .finish output =>
    match s.phase with
    | .unread argv => some (s.finish s.cache argv output (some output) false)
    | .listing argv before during => some { s with phase := .listed argv before during output }
    | _ => none
  | .raises =>
    match s.phase with
    | .unread _ | .listing _ _ _ => some { s with phase := .idle }
    | _ => none
  | .reread fails =>
    match s.phase with
    | .listed argv before _ output =>
      let stable := !fails && decide (s.gen = before)
      some (s.finish (s.cache.keep loads argv before output stable) argv output (some output) stable)
    | _ => none

/-- What is assumed of the kernel and the tools: every commit has a new generation, only an
owner-bound table vanishes without one, and a run between two reads of the same generation shows the
ruleset at some moment of the run. -/
def Admitted (tools : Tools Rules) (s : Sys Gen Rules) : Event Gen Rules → Prop
  | .commit gen _ => gen ∉ s.seen
  | .vanish _ => tools.owned s.rules
  | .reread false =>
    match s.phase with
    | .listed argv before during output =>
      s.gen = before → ∃ rules ∈ during, tools.prints argv rules output
    | _ => True
  | _ => True

def Start (s : Sys Gen Rules) : Prop :=
  ∃ gen rules, s = { gen, rules, seen := [gen] }

def Steps [DecidableEq Gen] (tools : Tools Rules) (s : Sys Gen Rules) (e : Event Gen Rules)
    (s' : Sys Gen Rules) : Prop :=
  Admitted tools s e ∧ s.next tools.loads e = some s'

/-! ## What the cache holds -/

section Invariant

variable (tools : Tools Rules)

/-- A kept listing of the present generation is the present ruleset, in which no table is owner-bound;
so it stays the present one until the next commit. -/
structure Cache.Current (cache : Cache Gen) (seen : List Gen) (gen : Gen) (rules : Rules) : Prop where
  free : ∀ g, cache.ownerFree = some g → g ∈ seen ∧ (g = gen → ¬ tools.owned rules)
  kept : ∀ argv g text, cache.entries.lookup argv = some (g, text) →
    g ∈ seen ∧ (g = gen → ¬ tools.owned rules ∧ tools.prints argv rules text)

/-- While no transaction commits, a moment without owner-bound tables is the present one, and if the
generation is known to have none then every moment is such. -/
structure Watched (cache : Cache Gen) (seen : List Gen) (gen : Gen) (rules : Rules) (before : Gen)
    (during : List Rules) : Prop where
  seen : before ∈ seen
  still : before = gen → ∀ m ∈ during, ¬ tools.owned m → m = rules
  free : before = gen → cache.ownerFree = some before → ∀ m ∈ during, ¬ tools.owned m

/-- What is known of the call in progress. -/
def Phase.Known (s : Sys Gen Rules) : Phase Gen Rules → Prop
  | .idle => True
  | .called _ | .unread _ => s.rules ∈ s.moments
  | .listing _ before during =>
    s.rules ∈ s.moments ∧ s.rules ∈ during ∧ during ⊆ s.moments ∧
      Watched tools s.cache s.seen s.gen s.rules before during
  | .listed _ before during _ =>
    during ⊆ s.moments ∧ Watched tools s.cache s.seen s.gen s.rules before during

/-- The text is what the tool prints at a moment of the call, or what a run of the tool in this call
printed without a settled generation around it. -/
def Return.Fresh (r : Return Rules) : Prop :=
  (∃ rules ∈ r.moments, tools.prints r.argv rules r.text) ∨ (r.output = some r.text ∧ r.settled = false)

structure Inv (s : Sys Gen Rules) : Prop where
  gen : s.gen ∈ s.seen
  cache : s.cache.Current tools s.seen s.gen s.rules
  phase : s.phase.Known tools s
  returned : ∀ r ∈ s.returned, r.Fresh tools

variable {tools}

variable {seen : List Gen} {gen : Gen} {rules : Rules}

theorem Cache.Current.empty :
    ({} : Cache Gen).Current tools seen gen rules where
  free _ none := by cases none
  kept _ _ _ none := by cases none

variable {cache : Cache Gen}

/-- A commit makes every kept listing one of an earlier generation. -/
theorem Cache.Current.commit {gen gen' : Gen} {rules rules' : Rules}
    (current : cache.Current tools seen gen rules) (new : gen' ∉ seen) :
    cache.Current tools (gen' :: seen) gen' rules' where
  free g isFree := by
    have old := (current.free g isFree).1
    exact ⟨List.mem_cons_of_mem _ old, fun same => absurd (same ▸ old) new⟩
  kept argv g text isKept := by
    have old := (current.kept argv g text isKept).1
    exact ⟨List.mem_cons_of_mem _ old, fun same => absurd (same ▸ old) new⟩

/-- Where a table can vanish there is no listing of the present generation. -/
theorem Cache.Current.vanish {rules rules' : Rules}
    (current : cache.Current tools seen gen rules) (owned : tools.owned rules) :
    cache.Current tools seen gen rules' where
  free g isFree := by
    obtain ⟨old, free⟩ := current.free g isFree
    exact ⟨old, fun same => absurd owned (free same)⟩
  kept argv g text isKept := by
    obtain ⟨old, free⟩ := current.kept argv g text isKept
    exact ⟨old, fun same => absurd owned (free same).1⟩

theorem Cache.Current.hit [DecidableEq Gen]
    (current : cache.Current tools seen gen rules) {argv : Command} {text : String}
    (found : cache.hit argv gen = some text) : tools.prints argv rules text := by
  unfold Cache.hit at found
  split at found
  next g text' isKept =>
    split at found
    next matching =>
      obtain rfl := Option.some.inj found
      exact ((current.kept argv g text' isKept).2 matching.1).2
    next => cases found
  next => cases found

theorem Watched.commit {gen gen' : Gen} {rules rules' : Rules} {before : Gen}
    {during during' : List Rules} (watched : Watched tools cache seen gen rules before during)
      (new : gen' ∉ seen) :
    Watched tools cache (gen' :: seen) gen' rules' before during' where
  seen := List.mem_cons_of_mem _ watched.seen
  still same := absurd (same ▸ watched.seen) new
  free same := absurd (same ▸ watched.seen) new

theorem Watched.vanish {rules rules' : Rules} {before : Gen}
    {during : List Rules} (watched : Watched tools cache seen gen rules before during)
    (current : cache.Current tools seen gen rules) (owned : tools.owned rules) :
    Watched tools cache seen gen rules' before during where
  seen := watched.seen
  still same m member free := by
    have isRules := watched.still same m member free
    exact absurd owned (isRules ▸ free)
  free same isFree := by
    have none := (current.free before isFree).2 same
    exact absurd owned none

theorem Watched.observe {before : Gen}
    {during : List Rules} (watched : Watched tools cache seen gen rules before during)
    (current : cache.Current tools seen gen rules) :
    Watched tools cache seen gen rules before (rules :: during) where
  seen := watched.seen
  still same m member free := by
    rcases List.mem_cons.mp member with rfl | earlier
    · rfl
    · exact watched.still same m earlier free
  free same isFree m member := by
    rcases List.mem_cons.mp member with rfl | earlier
    · exact (current.free before isFree).2 same
    · exact watched.free same isFree m earlier

/-- The kernel moves on during a call. -/
theorem Phase.Known.move {s : Sys Gen Rules} {gen' : Gen} {seen' : List Gen} {rules' : Rules}
    (known : s.phase.Known tools s) (current : s.cache.Current tools seen' gen' rules')
    (watch : ∀ before during, Watched tools s.cache s.seen s.gen s.rules before during →
      Watched tools s.cache seen' gen' rules' before during) :
    (s.phase.observe rules').Known tools { s.move rules' with gen := gen', seen := seen' } := by
  cases phase : s.phase with
  | idle => trivial
  | called argv => exact List.mem_cons_self
  | unread argv => exact List.mem_cons_self
  | listing argv before during =>
    rw [phase] at known
    obtain ⟨-, -, within, watched⟩ := known
    refine ⟨List.mem_cons_self, List.mem_cons_self, ?_, (watch before during watched).observe current⟩
    exact List.cons_subset_cons _ within
  | listed argv before during output =>
    rw [phase] at known
    obtain ⟨within, watched⟩ := known
    exact ⟨List.subset_cons_of_subset _ within, watch before during watched⟩

/-- A listing is given up. -/
theorem Cache.Current.drop
    (current : cache.Current tools seen gen rules) (argv : Command) {ownerFree : Option Gen}
    (free : ∀ g, ownerFree = some g → g ∈ seen ∧ (g = gen → ¬ tools.owned rules)) :
    Cache.Current tools ⟨cache.entries.erase argv, ownerFree⟩ seen gen rules where
  free := free
  kept argv' g text isKept := by
    rw [FiniteMap.lookup_erase_of] at isKept
    split at isKept
    · cases isKept
    · exact current.kept argv' g text isKept

/-- A listing of the present ruleset is kept. -/
theorem Cache.Current.store
    (current : cache.Current tools seen gen rules) {argv : Command} {output : String} (known : gen ∈ seen)
    (free : ¬ tools.owned rules) (printed : tools.prints argv rules output) :
    Cache.Current tools ⟨cache.entries.insert argv (gen, output), some gen⟩ seen gen rules where
  free g isFree := by
    cases isFree
    exact ⟨known, fun _ => free⟩
  kept argv' g text isKept := by
    rw [FiniteMap.lookup_insert_of] at isKept
    split at isKept
    next same =>
      cases isKept
      exact ⟨known, fun _ => ⟨free, same ▸ printed⟩⟩
    next => exact current.kept argv' g text isKept

/-- What a settled run showed is the present ruleset, if the generation has no owner-bound table: the
nft listing itself shows that, and for the other tools an earlier one has. -/
theorem Cache.Current.keep [DecidableEq Gen] {before gen : Gen}
    {during : List Rules} {argv : Command} {output : String} {stable : Bool}
    (current : cache.Current tools seen gen rules)
    (watched : Watched tools cache seen gen rules before during)
    (shown : stable = true → before = gen ∧ ∃ m ∈ during, tools.prints argv m output) :
    (cache.keep tools.loads argv before output stable).Current tools seen gen rules := by
  have known := watched.seen
  unfold Cache.keep
  by_cases isNft : argv = .nft
  · simp only [isNft, if_true]
    by_cases clean : (stable && !ownerBound tools.loads output) = true
    · obtain ⟨isStable, unbound⟩ := Bool.and_eq_true_iff.mp clean
      obtain ⟨rfl, m, member, printed⟩ := shown isStable
      rw [isNft] at printed
      have free : ¬ tools.owned m := tools.not_owned printed (by simpa using unbound)
      obtain rfl := watched.still rfl m member free
      rw [if_pos clean, if_pos ⟨isStable, rfl⟩]
      exact current.store known free printed
    · rw [if_neg clean, if_neg (by simp)]
      exact current.drop .nft fun g none => by cases none
  · simp only [isNft, if_false]
    by_cases kept : stable = true ∧ cache.ownerFree = some before
    · obtain ⟨rfl, m, member, printed⟩ := shown kept.1
      have free := watched.free rfl kept.2 m member
      obtain rfl := watched.still rfl m member free
      rw [if_pos kept, kept.2]
      exact current.store known free printed
    · rw [if_neg kept]
      exact current.drop argv current.free

/-! ## Every event keeps it -/

theorem Inv.start {s : Sys Gen Rules} (start : Start s) : Inv tools s := by
  obtain ⟨gen, rules, rfl⟩ := start
  exact ⟨List.mem_singleton.mpr rfl, .empty, trivial, fun r none => by cases none⟩

/-- A call ends and returns a text. -/
theorem Inv.finish {s : Sys Gen Rules} (inv : Inv tools s)
    (current : cache.Current tools s.seen s.gen s.rules) {argv : Command} {text : String}
    {output : Option String}
    {settled : Bool} (fresh : Return.Fresh tools ⟨argv, text, s.moments, output, settled⟩) :
    Inv tools (s.finish cache argv text output settled) where
  gen := inv.gen
  cache := current
  phase := trivial
  returned r member := by
    rcases List.mem_cons.mp member with rfl | earlier
    · exact fresh
    · exact inv.returned r earlier

/-- What a run between two reads of the generation has shown. -/
theorem shown_of_reread {s : Sys Gen Rules} [DecidableEq Gen] {fails : Bool} {argv : Command} {before : Gen}
    {during : List Rules} {output : String} (phase : s.phase = .listed argv before during output)
    (admitted : Admitted tools s (.reread fails)) (stable : (!fails && decide (s.gen = before)) = true) :
    before = s.gen ∧ ∃ m ∈ during, tools.prints argv m output := by
  obtain ⟨reads, same⟩ := Bool.and_eq_true_iff.mp stable
  have same := of_decide_eq_true same
  obtain rfl : fails = false := by simpa using reads
  simp only [Admitted, phase] at admitted
  exact ⟨same.symm, admitted same⟩

/-- One event, of the kernel or of the call. -/
theorem Inv.step [DecidableEq Gen] {s s' : Sys Gen Rules} {e : Event Gen Rules} (inv : Inv tools s)
    (admitted : Admitted tools s e) (taken : s.next tools.loads e = some s') : Inv tools s' := by
  have known := inv.phase
  revert taken
  fun_cases Sys.next tools.loads s e <;> intro taken <;> cases taken
  case case1 gen rules =>
    have current : s.cache.Current tools (gen :: s.seen) gen rules := inv.cache.commit admitted
    exact ⟨List.mem_cons_self, current, inv.phase.move current fun _ _ watched => watched.commit admitted,
      inv.returned⟩
  case case2 rules =>
    have current : s.cache.Current tools s.seen s.gen rules := inv.cache.vanish admitted
    exact ⟨inv.gen, current, inv.phase.move current fun _ _ watched => watched.vanish inv.cache admitted,
      inv.returned⟩
  case case3 => exact ⟨inv.gen, inv.cache, List.mem_singleton.mpr rfl, inv.returned⟩
  -- the first read fails, finds a kept listing, or does not
  case case5 argv phase =>
    rw [phase] at known
    exact ⟨inv.gen, .empty, known, inv.returned⟩
  case case6 phase _ text hit =>
    rw [phase] at known
    exact inv.finish inv.cache (.inl ⟨s.rules, known, inv.cache.hit hit⟩)
  case case7 phase _ _ =>
    rw [phase] at known
    refine ⟨inv.gen, inv.cache, ⟨known, List.mem_singleton.mpr rfl, ?_, inv.gen, ?_, ?_⟩, inv.returned⟩
    · exact List.cons_subset.mpr ⟨known, List.nil_subset _⟩
    · intro _ m member _
      exact List.mem_singleton.mp member
    · intro _ free m member
      rw [List.mem_singleton.mp member]
      exact (inv.cache.free s.gen free).2 rfl
  -- the tool ends
  case case9 => exact inv.finish inv.cache (.inr ⟨rfl, rfl⟩)
  case case10 argv before during phase =>
    rw [phase] at known
    exact ⟨inv.gen, inv.cache, known.2.2, inv.returned⟩
  case case12 => exact ⟨inv.gen, inv.cache, trivial, inv.returned⟩
  case case13 => exact ⟨inv.gen, inv.cache, trivial, inv.returned⟩
  -- the second read
  case case15 fails argv before during output phase _ =>
    rw [phase] at known
    obtain ⟨within, watched⟩ := known
    have shown := shown_of_reread phase admitted
    refine inv.finish (inv.cache.keep watched shown) ?_
    by_cases stable : (!fails && decide (s.gen = before)) = true
    · obtain ⟨-, m, member, printed⟩ := shown stable
      exact .inl ⟨m, within member, printed⟩
    · exact .inr ⟨rfl, Bool.eq_false_iff.mpr stable⟩

/-- **Cached listings are never stale:** in every interleaving of calls with commits, vanishing
tables, failing reads and failing tools, a returned text is what the tool prints at a moment of its
call, unless it comes from a run of the tool in that call without one generation around it. -/
theorem listings_never_stale [DecidableEq Gen] (tools : Tools Rules) (events : List (Event Gen Rules))
    (s : Sys Gen Rules) (run : Run Start (Steps tools) events s) :
    ∀ r ∈ s.returned, (∃ rules ∈ r.moments, tools.prints r.argv rules r.text) ∨
      (r.output = some r.text ∧ r.settled = false) := by
  have inv : Inv tools s := Run.invariant_of_ok (Admitted tools) (fun _ s => Inv tools s)
    (fun _ start => Inv.start start) (fun _ _ _ _ inv admitted taken => inv.step admitted taken) run
  exact inv.returned

end Invariant

end Model

/-! ## Poles -/

/-- A ruleset is what is printed for it, and no table is owner-bound. -/
def plain : Tools String where
  prints _ rules text := text = rules
  loads _ := some (.dict [("nftables", .list [])])
  owned _ := False
  flagged _ _ _ owned := owned.elim

def oneTable : Sys Nat String :=
  { gen := 1, rules := "table one", seen := [1] }

def exec (s : Sys Nat String) (e : Event Nat String) : Option (Sys Nat String × Event Nat String) :=
  (s.next plain.loads e).map (·, e)

instance (s : Sys Nat String) : ∀ e, Decidable (Admitted plain s e)
  | .commit gen _ => inferInstanceAs (Decidable (gen ∉ s.seen))
  | .vanish _ => .isFalse id
  | .call _ | .read _ | .finish _ | .raises | .reread true => .isTrue trivial
  | .reread false =>
    match phase : s.phase with
    | .listed _ before during output =>
      decidable_of_iff (s.gen = before → output ∈ during) (by simp [Admitted, phase, plain])
    | .idle | .called _ | .unread _ | .listing _ _ _ => .isTrue (by simp [Admitted, phase])

def admits (s : Sys Nat String) (e : Event Nat String) : Bool := Admitted plain s e

theorem admits_steps (s : Sys Nat String) (e : Event Nat String) (s' : Sys Nat String)
    (checked : admits s e = true) (ran : Exec exec s e s') : Steps plain s e s' := by
  obtain ⟨e', ran⟩ := ran
  obtain ⟨s'', taken, eq⟩ := Option.map_eq_some_iff.mp ran
  cases eq
  exact ⟨of_decide_eq_true checked, taken⟩

/-- The state a list of events leads to. -/
def reach (events : List (Event Nat String)) : Sys Nat String :=
  ((schedule exec admits oneTable events []).map Prod.fst).getD oneTable

/-- Two calls at one generation. -/
def twoCalls : List (Event Nat String) :=
  [.call .nft, .read false, .finish "table one", .reread false, .call .nft, .read false]

theorem twoCalls_run : Run Start (Steps plain) twoCalls.reverse (reach twoCalls) :=
  schedule_run admits_steps twoCalls (.start ⟨1, "table one", rfl⟩) rfl

/-- The second of two calls at one generation is answered without running the tool. -/
theorem listings_never_stale_cached :
    (reach twoCalls).returned.map (fun r => (r.text, r.output)) =
        [("table one", none), ("table one", some "table one")] ∧
      ∀ r ∈ (reach twoCalls).returned, (∃ rules ∈ r.moments, plain.prints r.argv rules r.text) ∨
        (r.output = some r.text ∧ r.settled = false) :=
  ⟨rfl, listings_never_stale plain twoCalls.reverse (reach twoCalls) twoCalls_run⟩

/-- A transaction commits while the tool runs, and the tool prints a part of each ruleset. -/
def tornCall : List (Event Nat String) :=
  [.call .nft, .read false, .commit 2 "table two", .finish "table one, table two", .reread false]

/-- **A torn listing is returned.** -/
theorem torn_listing_returned :
    Run Start (Steps plain) tornCall.reverse (reach tornCall) ∧
      ∃ r ∈ (reach tornCall).returned, ∀ rules ∈ r.moments, ¬ plain.prints r.argv rules r.text := by
  refine ⟨schedule_run admits_steps tornCall (.start ⟨1, "table one", rfl⟩) rfl, _, List.mem_cons_self, ?_⟩
  show ∀ rules ∈ ["table two", "table one"], ¬ "table one, table two" = rules
  decide

end ProgramSplit.Linux.Listings
