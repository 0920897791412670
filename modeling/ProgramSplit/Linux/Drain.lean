/-
# Linux.Drain — settling a guard by walking every task's stack

An exit program sees only calls that enter after it attached, so a `unix_bind` or
`vfs_rename` that was already running completes unobserved. `drain` settles the guard
once every task of its first scan has exited or shown one proven walk outside both
functions. This module models `drain.h` and the iterator program `drain_tasks`:
one raw record per task, its classification, and the loop of full and per-thread
rescans. `DrainSafety` puts it beside running tasks.

The n-th scan and the n-th look at the clock are read from a `Machine`, so the loop
itself stays a function; words of the record stream are natural numbers.

* `parse_words` — `scan_tasks` reads back the records that were written.
* `drain_keeps_unclear` — a task no scan shows clear is still pending when it ends.
-/
import Mathlib.Data.List.Dedup
import Mathlib.Data.List.Sort
import Mathlib.Data.UInt

namespace ProgramSplit.Linux.Drain

set_option autoImplicit false

/-! ## Symbols -/

/-- Half open, as `Range::contains` reads it. -/
structure Range where
  start : Nat
  stop : Nat
  deriving DecidableEq, Repr

def Range.contains (range : Range) (address : Nat) : Bool :=
  range.start ≤ address ∧ address < range.stop

structure KernelSymbols where
  traced : List Range
  bottoms : List Range
  deriving DecidableEq, Repr

/-- The address and name of a line of `/proc/kallsyms`. -/
abbrev Symbol := Nat × String

def find (sorted : List Symbol) (name : String) : Nat :=
  ((sorted.find? fun symbol => symbol.2 = name).map Prod.fst).getD 0

/-- The address of the next symbol (`upper_bound` past every name at `start`). -/
def nextAddress (sorted : List Symbol) (start : Nat) : Option Nat :=
  (sorted.find? fun symbol => start < symbol.1).map Prod.fst

/-- The range of a function: up to the next symbol. -/
def functionRange (sorted : List Symbol) (name : String) : List Range :=
  let start := find sorted name
  match nextAddress sorted start with
  | some stop => if start ≠ 0 then [⟨start, stop⟩] else []
  | none => []

def kernelSymbols (table : List Symbol) : KernelSymbols :=
  let kept := table.filter fun symbol => '[' ∉ symbol.2.toList ∧ symbol.1 ≠ 0
  let sorted := kept.insertionSort fun a b => a.1 ≤ b.1
  let entryStart := find sorted "__entry_text_start"
  let entryEnd := find sorted "__entry_text_end"
  { traced := functionRange sorted "unix_bind" ++ functionRange sorted "vfs_rename"
    bottoms :=
      (if entryStart ≠ 0 ∧ entryStart < entryEnd then [⟨entryStart, entryEnd⟩] else []) ++
        functionRange sorted "ret_from_fork_asm" }

/-! ## Records -/

/-- A thread ID and start time: the identity of a task. -/
structure Key where
  tid : UInt32
  start : Nat
  deriving DecidableEq, Repr

def TASK_EXITED : UInt32 := 1
def TASK_SELF : UInt32 := 2
def TASK_ON_CPU : UInt32 := 4
def TASK_WALK_ERROR : UInt32 := 8

structure DrainRecord where
  tid : UInt32
  flags : UInt32
  start : Nat
  switchesBefore : Nat
  switchesAfter : Nat
  bytes : Nat
  deriving DecidableEq, Repr

structure Sample where
  record : DrainRecord
  frames : List Nat
  deriving DecidableEq, Repr

def Sample.key (sample : Sample) : Key :=
  ⟨sample.record.tid, sample.record.start⟩

inductive Walk
  | clear
  | unknown
  | inside
  deriving DecidableEq, Repr

/-- `sizeof(path_scratch)`: the buffer a walk is taken into. -/
def scratchBytes : Nat := 8192

def depthCap (perfEventMaxStack : Option Nat) : Nat :=
  match perfEventMaxStack with
  | some limit => min (scratchBytes / 8) limit
  | none => scratchBytes / 8

def classify (sample : Sample) (cap : Nat) (symbols : KernelSymbols) : Walk :=
  let record := sample.record
  if record.flags &&& (TASK_EXITED ||| TASK_SELF) ≠ 0 then .clear
  else if record.flags &&& (TASK_ON_CPU ||| TASK_WALK_ERROR) ≠ 0 ∨
      record.switchesBefore ≠ record.switchesAfter ∨ sample.frames = [] ∨
      cap ≤ sample.frames.length then .unknown
  else if sample.frames.any fun address => symbols.traced.any fun range => range.contains address then
    .inside
  else
    match sample.frames.getLast? with
    | some outermost => if symbols.bottoms.any (·.contains outermost) then .clear else .unknown
    | none => .unknown

/-! ## The iterator program -/

/-- What `drain_tasks` reads of one task, in its order: the exit state, whether it is the
scanning task, the buffer, then count, CPU, walk, CPU, count. `walk` is the result of
`bpf_get_task_stack` in bytes with the frames it wrote. -/
structure Reads where
  exitState : Bool
  isCurrent : Bool
  buffer : Bool
  switchesBefore : Nat
  onCpuBefore : Bool
  walk : Int × List Nat
  onCpuAfter : Bool
  switchesAfter : Nat

def flag (set : Bool) (value : UInt32) : UInt32 :=
  if set then value else 0

/-- One record, with the frames written behind it. -/
def drainTasks (key : Key) (reads : Reads) : Sample :=
  let flags := flag reads.exitState TASK_EXITED ||| flag reads.isCurrent TASK_SELF
  if flags ≠ 0 ∨ reads.buffer = false then
    ⟨⟨key.tid, flags ||| flag (!reads.buffer) TASK_WALK_ERROR, key.start, 0, 0, 0⟩, []⟩
  else
    let size := reads.walk.1
    let fits := 0 < size ∧ size ≤ scratchBytes
    ⟨⟨key.tid,
        flag (reads.onCpuBefore || reads.onCpuAfter) TASK_ON_CPU ||| flag (¬ fits) TASK_WALK_ERROR,
        key.start, reads.switchesBefore, reads.switchesAfter, if fits then size.toNat else 0⟩,
      if fits then reads.walk.2 else []⟩

/-! ## `scan_tasks` -/

/-- The words of one sample in the iterator's output: thread ID and flags share one. -/
def Sample.words (sample : Sample) : List Nat :=
  (sample.record.tid.toNat + sample.record.flags.toNat * 2 ^ 32) :: sample.record.start ::
    sample.record.switchesBefore :: sample.record.switchesAfter :: sample.record.bytes ::
    sample.frames

/-- The parsing loop: a record of five words, then its frames. A rest shorter than a
record is dropped. -/
def parse : Nat → List Nat → Except String (List Sample)
  | 0, _ => .ok []
  | fuel + 1, packed :: start :: before :: after :: bytes :: rest =>
    if bytes % 8 ≠ 0 ∨ 8 * rest.length < bytes then .error "truncated task stack record"
    else
      match parse fuel (rest.drop (bytes / 8)) with
      | .error text => .error text
      | .ok samples =>
        .ok (⟨⟨UInt32.ofNat (packed % 2 ^ 32), UInt32.ofNat (packed / 2 ^ 32), start, before,
          after, bytes⟩, rest.take (bytes / 8)⟩ :: samples)
  | _ + 1, _ => .ok []

/-- What reading the iterator ended in. -/
inductive RawScan
  | deadline
  | failed
  | data (words : List Nat)
  deriving DecidableEq, Repr

/-- `scan_tasks`: `none` when the deadline passed first. -/
def scanTasks : RawScan → Except String (Option (List Sample))
  | .deadline => .ok none
  | .failed => .error "read task stacks"
  | .data words =>
    match parse words.length words with
    | .error text => .error text
    | .ok samples => .ok (some samples)

/-! ## `drain` -/

/-- What `drain` reads of the machine: the symbol table, the depth limit, whether the
object has the iterator, the result of its n-th scan (of every task, or of one thread
ID), whether the deadline is near at its n-th look at the clock, the helper thread of
`thread_filter_works` where it could be started, and the guard configuration. -/
structure Machine where
  kallsyms : List Symbol
  perfEventMaxStack : Option Nat
  iterator : Bool
  scan : Nat → Option UInt32 → RawScan
  late : Nat → Bool
  helper : Option UInt32
  guardConfig : UInt64

def GUARD_SETTLED : UInt64 := 2 ^ 62

inductive Outcome
  | settled
  | unproven
  | deadline
  deriving DecidableEq, Repr

/-- How `drain` ended, after how many scans, and the guard configuration it left. -/
structure Result where
  outcome : Except String Outcome
  scans : Nat
  guardConfig : UInt64
  deriving DecidableEq

def Machine.clear (machine : Machine) (sample : Sample) : Bool :=
  classify sample (depthCap machine.perfEventMaxStack) (kernelSymbols machine.kallsyms) = .clear

/-- A filtered scan of the blocked helper thread returns exactly that thread. -/
def threadFilterWorks (machine : Machine) (scans : Nat) : Bool :=
  match machine.helper with
  | none => false
  | some tid =>
    match scanTasks (machine.scan scans (some tid)) with
    | .ok (some [sample]) => sample.record.tid = tid
    | _ => false

/-- Whether a pending task stays pending after a scan: its last sample decides, and a
task without one has exited. -/
def remains (machine : Machine) (samples : List Sample) (task : Key) : Bool :=
  samples.foldl (fun state sample => if sample.key = task then !machine.clear sample else state) false

/-- The rescan of the pending threads, one by one. -/
def rescanThreads (machine : Machine) : Nat → List Key → Except String (Option (List Key)) × Nat
  | scans, [] => (.ok (some []), scans)
  | scans, task :: rest =>
    match scanTasks (machine.scan scans (some task.tid)) with
    | .error text => (.error text, scans + 1)
    | .ok none => (.ok none, scans + 1)
    | .ok (some samples) =>
      match rescanThreads machine (scans + 1) rest with
      | (.ok (some kept), scans') =>
        (.ok (some (if remains machine samples task then task :: kept else kept)), scans')
      | other => other

/-- The rescan of every task. -/
def rescanAll (machine : Machine) (scans : Nat) (pending : List Key) :
    Except String (Option (List Key)) × Nat :=
  match scanTasks (machine.scan scans none) with
  | .error text => (.error text, scans + 1)
  | .ok none => (.ok none, scans + 1)
  | .ok (some samples) => (.ok (some (pending.filter fun task => remains machine samples task)), scans + 1)

/-- The loop, with fuel; `round` counts the looks at the clock. -/
def drainLoop (machine : Machine) (filtered : Bool) : Nat → Nat → Nat → List Key → Option Result
  | 0, _, _, _ => none
  | fuel + 1, round, scans, pending =>
    if pending = [] then
      some ⟨.ok .settled, scans, machine.guardConfig ||| GUARD_SETTLED⟩
    else if machine.late round then some ⟨.ok .deadline, scans, machine.guardConfig⟩
    else
      let rescan :=
        if filtered ∧ pending.length ≤ 64 then rescanThreads machine scans pending
        else rescanAll machine scans pending
      match rescan with
      | (.error text, scans') => some ⟨.error text, scans', machine.guardConfig⟩
      | (.ok none, scans') => some ⟨.ok .deadline, scans', machine.guardConfig⟩
      | (.ok (some kept), scans') => drainLoop machine filtered fuel (round + 1) scans' kept

/-- The tasks of a scan that are not clear, each once. -/
def pendingOf (machine : Machine) (samples : List Sample) : List Key :=
  ((samples.filter fun sample => !machine.clear sample).map Sample.key).dedup

def drain (machine : Machine) (fuel : Nat) : Option Result :=
  let symbols := kernelSymbols machine.kallsyms
  if machine.iterator = false ∨ symbols.traced.length ≠ 2 ∨ symbols.bottoms = [] then
    some ⟨.ok .unproven, 0, machine.guardConfig⟩
  else
    match scanTasks (machine.scan 0 none) with
    | .error text => some ⟨.error text, 1, machine.guardConfig⟩
    | .ok none => some ⟨.ok .deadline, 1, machine.guardConfig⟩
    | .ok (some samples) =>
      let pending := pendingOf machine samples
      if pending = [] then drainLoop machine false fuel 0 1 pending
      else drainLoop machine (threadFilterWorks machine 1) fuel 0 2 pending

/-! ## Records read back -/

/-- What the iterator writes: whole frames, and as many bytes as it announces. -/
def WellSized (sample : Sample) : Prop :=
  sample.record.bytes = 8 * sample.frames.length

variable {samples : List Sample}

theorem parse_words (sized : ∀ sample ∈ samples, WellSized sample)
    {fuel : Nat} (enough : samples.length ≤ fuel) :
    parse fuel (samples.flatMap Sample.words) = .ok samples := by
  induction samples generalizing fuel with
  | nil =>
    cases fuel <;> rfl
  | cons sample samples ih =>
    obtain ⟨fuel, rfl⟩ : ∃ n, fuel = n + 1 := ⟨fuel - 1, by rw [List.length_cons] at enough; omega⟩
    have size := sized sample List.mem_cons_self
    unfold WellSized at size
    have tid_small := sample.record.tid.toNat_lt
    have rest : parse fuel (samples.flatMap Sample.words) = .ok samples :=
      ih (fun later mem => sized later (List.mem_cons_of_mem _ mem))
        (by rw [List.length_cons] at enough; omega)
    have whole : ¬ (sample.record.bytes % 8 ≠ 0 ∨
        8 * (sample.frames ++ samples.flatMap Sample.words).length < sample.record.bytes) := by
      rw [List.length_append]
      omega
    have count : sample.record.bytes / 8 = sample.frames.length := by omega
    have low : (sample.record.tid.toNat + sample.record.flags.toNat * 2 ^ 32) % 2 ^ 32 =
        sample.record.tid.toNat := by omega
    have high : (sample.record.tid.toNat + sample.record.flags.toNat * 2 ^ 32) / 2 ^ 32 =
        sample.record.flags.toNat := by omega
    rw [List.flatMap_cons]
    simp only [Sample.words, List.cons_append, parse, if_neg whole, count, List.drop_left,
      List.take_left, low, high, UInt32.ofNat_toNat, rest]

theorem scanTasks_words (sized : ∀ sample ∈ samples, WellSized sample) :
    scanTasks (.data (samples.flatMap Sample.words)) = .ok (some samples) := by
  have long : samples.length ≤ (samples.flatMap Sample.words).length := by
    clear sized
    induction samples with
    | nil => exact le_rfl
    | cons sample samples ih =>
      rw [List.flatMap_cons, List.length_append, List.length_cons]
      simp only [Sample.words, List.length_cons]
      omega
  simp only [scanTasks, parse_words sized long]

/-! ## What the loop keeps -/

/-- A scan shows a task unclear: it has a sample, and none of its samples is clear. -/
def Unclear (machine : Machine) (samples : List Sample) (task : Key) : Prop :=
  (∃ sample ∈ samples, sample.key = task) ∧
    ∀ sample ∈ samples, sample.key = task → machine.clear sample = false

theorem foldl_remains (machine : Machine) (task : Key) :
    ∀ (samples : List Sample) (state : Bool),
      (∀ sample ∈ samples, sample.key = task → machine.clear sample = false) →
      (state = true ∨ ∃ sample ∈ samples, sample.key = task) →
      samples.foldl (fun state sample =>
        if sample.key = task then !machine.clear sample else state) state = true := by
  intro samples
  induction samples with
  | nil =>
    rintro state - (already | ⟨sample, mem, -⟩)
    · exact already
    · cases mem
  | cons sample samples ih =>
    intro state unclear seen
    rw [List.foldl_cons]
    refine ih _ (fun later mem => unclear later (List.mem_cons_of_mem _ mem)) ?_
    by_cases here : sample.key = task
    · left
      rw [if_pos here, unclear sample List.mem_cons_self here]
      rfl
    · rw [if_neg here]
      rcases seen with already | ⟨later, mem, same⟩
      · exact .inl already
      · rcases List.mem_cons.mp mem with rfl | after
        · exact absurd same here
        · exact .inr ⟨later, after, same⟩

variable {machine : Machine} {task : Key}

theorem Unclear.remains
    (unclear : Unclear machine samples task) : remains machine samples task = true :=
  foldl_remains machine task samples false unclear.2 (.inr unclear.1)

theorem Unclear.pending
    (unclear : Unclear machine samples task) : task ∈ pendingOf machine samples := by
  obtain ⟨⟨sample, mem, same⟩, all⟩ := unclear
  rw [pendingOf, List.mem_dedup, List.mem_map]
  refine ⟨sample, List.mem_filter.mpr ⟨mem, ?_⟩, same⟩
  rw [all sample mem same]
  rfl

/-- Every scan numbered from `first` to before `last` that returns shows the task unclear:
a full one always, one of its thread ID where `threads` says so. -/
def UnclearFrom (machine : Machine) (threads : Bool) (task : Key) (first last : Nat) : Prop :=
  ∀ n, first ≤ n → n < last →
    (∀ samples, scanTasks (machine.scan n none) = .ok (some samples) → Unclear machine samples task) ∧
    (threads = true → ∀ samples, scanTasks (machine.scan n (some task.tid)) = .ok (some samples) →
      Unclear machine samples task)

theorem rescanThreads_scans (machine : Machine) :
    ∀ (pending : List Key) (scans : Nat), scans ≤ (rescanThreads machine scans pending).2 := by
  intro pending
  induction pending with
  | nil =>
    intro scans
    exact le_rfl
  | cons task rest ih =>
    intro scans
    have later := ih (scans + 1)
    unfold rescanThreads
    split
    · exact Nat.le_succ _
    · exact Nat.le_succ _
    · split
      · rename_i samples _ kept scans' ran
        rw [ran] at later
        exact (Nat.le_succ _).trans later
      · exact (Nat.le_succ _).trans later

/-- A thread rescan keeps a pending task that every scan of its thread shows unclear. -/
theorem rescanThreads_keeps {last : Nat} :
    ∀ {pending kept : List Key} {scans scans' : Nat},
      rescanThreads machine scans pending = (.ok (some kept), scans') →
      UnclearFrom machine true task scans last → scans' ≤ last → task ∈ pending → task ∈ kept := by
  intro pending
  induction pending with
  | nil =>
    intro kept scans scans' _ _ _ mem
    cases mem
  | cons first rest ih =>
    intro kept scans scans' ran unclear within mem
    unfold rescanThreads at ran
    split at ran
    · cases ran
    · cases ran
    · rename_i samples scanned
      split at ran
      · rename_i kept' scans'' rest_ran
        obtain ⟨rfl, rfl⟩ : (if remains machine samples first then first :: kept' else kept') = kept ∧
            scans'' = scans' := by
          simpa using ran
        have progress := rescanThreads_scans machine rest (scans + 1)
        rw [rest_ran] at progress
        have here := (unclear scans le_rfl (Nat.lt_of_lt_of_le (Nat.lt_of_succ_le progress) within)).2 rfl
        rcases List.mem_cons.mp mem with rfl | later
        · rw [if_pos (here samples scanned).remains]
          exact List.mem_cons_self
        · have kept_later := ih rest_ran
            (fun n from_here before => unclear n (by omega) before) within later
          split
          · exact List.mem_cons_of_mem _ kept_later
          · exact kept_later
      · rename_i other
        exact absurd ran (by simpa using fun h => other _ _ h)

/-- One round of the loop keeps such a task. -/
theorem rescan_keeps {filtered : Bool} {last : Nat}
    {pending kept : List Key} {scans scans' : Nat}
    (ran : (if filtered ∧ pending.length ≤ 64 then rescanThreads machine scans pending
      else rescanAll machine scans pending) = (.ok (some kept), scans'))
    (unclear : UnclearFrom machine filtered task scans last) (within : scans' ≤ last)
    (mem : task ∈ pending) : task ∈ kept := by
  split at ran
  · rename_i threads
    rw [threads.1] at unclear
    exact rescanThreads_keeps ran unclear within mem
  · unfold rescanAll at ran
    split at ran
    · cases ran
    · cases ran
    · rename_i samples scanned
      obtain ⟨rfl, rfl⟩ : (pending.filter fun task => remains machine samples task) = kept ∧
          scans + 1 = scans' := by
        simpa using ran
      refine List.mem_filter.mpr ⟨mem, ?_⟩
      exact ((unclear scans le_rfl within).1 samples scanned).remains

theorem rescan_scans (machine : Machine) (filtered : Bool) (pending : List Key) (scans : Nat) :
    scans ≤ (if filtered ∧ pending.length ≤ 64 then rescanThreads machine scans pending
      else rescanAll machine scans pending).2 := by
  split
  · exact rescanThreads_scans machine pending scans
  · unfold rescanAll
    split <;> exact Nat.le_succ _

/-- The loop only counts scans up. -/
theorem drainLoop_scans {filtered : Bool} :
    ∀ {fuel round scans : Nat} {pending : List Key} {result : Result},
      drainLoop machine filtered fuel round scans pending = some result → scans ≤ result.scans := by
  intro fuel
  induction fuel with
  | zero =>
    intro round scans pending result ran
    cases ran
  | succ fuel ih =>
    intro round scans pending result ran
    have progress := rescan_scans machine filtered pending scans
    unfold drainLoop at ran
    split at ran
    · cases ran
      exact le_rfl
    split at ran
    · cases ran
      exact le_rfl
    simp only at ran
    split at ran
    · rename_i rescanned
      rw [rescanned] at progress
      cases ran
      exact progress
    · rename_i rescanned
      rw [rescanned] at progress
      cases ran
      exact progress
    · rename_i rescanned
      rw [rescanned] at progress
      exact progress.trans (ih ran)

/-- The loop does not settle while a pending task stays unclear. -/
theorem drainLoop_not_settled {filtered : Bool} :
    ∀ {fuel round scans : Nat} {pending : List Key} {result : Result},
      drainLoop machine filtered fuel round scans pending = some result →
      UnclearFrom machine filtered task scans result.scans → task ∈ pending →
      result.outcome ≠ .ok .settled := by
  intro fuel
  induction fuel with
  | zero =>
    intro round scans pending result ran
    cases ran
  | succ fuel ih =>
    intro round scans pending result ran unclear mem
    unfold drainLoop at ran
    split at ran
    · rename_i empty
      rw [empty] at mem
      cases mem
    split at ran
    · cases ran
      simp
    simp only at ran
    split at ran
    · cases ran
      simp
    · cases ran
      simp
    · rename_i kept scans' rescanned
      have bound := drainLoop_scans ran
      have progress := rescan_scans machine filtered pending scans
      rw [rescanned] at progress
      refine ih ran (fun n from_here before => unclear n (progress.trans from_here) before) ?_
      exact rescan_keeps rescanned unclear bound mem

/-- **A task no scan shows clear keeps the guard unsettled.** -/
theorem drain_keeps_unclear (task : Key) {fuel : Nat} {result : Result}
    (ran : drain machine fuel = some result)
    (unclear : UnclearFrom machine (threadFilterWorks machine 1) task 0 result.scans) :
    result.outcome ≠ .ok .settled := by
  unfold drain at ran
  simp only at ran
  split at ran
  · cases ran
    simp
  split at ran
  · cases ran
    simp
  · cases ran
    simp
  · rename_i samples scanned
    split at ran
    · rename_i empty
      have bound := drainLoop_scans ran
      have pending := ((unclear 0 le_rfl (by omega)).1 samples scanned).pending
      rw [empty] at pending
      cases pending
    · have bound := drainLoop_scans ran
      have pending := ((unclear 0 le_rfl (by omega)).1 samples scanned).pending
      exact drainLoop_not_settled ran (fun n _ before => unclear n (Nat.zero_le _) before) pending

end ProgramSplit.Linux.Drain
