/-
# Linux.DrainSafety — settling is sound while tasks keep running

The kernel beside a running `drain`: tasks are switched in and out, leave calls, exit
and fork, one step at a time, while the iterator reads one field after another. Time 0
is when the completion programs have attached; `inside` says that a task is still in a
`unix_bind` or `vfs_rename` call it entered before. Nothing sets it again, since a call
entered later is a completion program's business.

* `Visit.clear_outside` — a sample classified clear was taken of a task outside.
* `settled_only_outside` — when `drain` settles, no task is inside.
-/
import Mathlib.Logic.Function.Basic
import ProgramSplit.Linux.Drain

namespace ProgramSplit.Linux.Drain

set_option autoImplicit false

/-! ## Running tasks -/

/-- What the iterator and the scheduler know of a task. `counted` says that the switch
out of its current run is already counted. -/
structure Task where
  exited : Bool
  onCpu : Bool
  counted : Bool
  switches : Nat
  inside : Bool
  deriving DecidableEq, Repr

/-- One scheduling step of one task. The scheduler counts a switch out before it clears
`on_cpu`; a task leaves a call, and exits, only while it runs. -/
inductive TaskStep : Task → Task → Prop
  | idle (task : Task) : TaskStep task task
  | switchIn (task : Task) (off : task.onCpu = false) :
      TaskStep task { task with onCpu := true, counted := false }
  | leave (task : Task) (on : task.onCpu = true) : TaskStep task { task with inside := false }
  | exit (task : Task) (on : task.onCpu = true) (outside : task.inside = false) :
      TaskStep task { task with exited := true }
  | count (task : Task) (on : task.onCpu = true) (uncounted : task.counted = false) :
      TaskStep task { task with counted := true, switches := task.switches + 1 }
  | switchOut (task : Task) (on : task.onCpu = true) (counted : task.counted = true) :
      TaskStep task { task with onCpu := false }

/-- Every task there ever was, by thread ID and start time: an ID may be reused, with a
new start time. -/
abbrev Kernel := Key → Option Task

inductive Step : Kernel → Kernel → Prop
  | task (kernel : Kernel) (key : Key) {before after : Task} (found : kernel key = some before)
      (taken : TaskStep before after) : Step kernel (Function.update kernel key (some after))
  | fork (kernel : Kernel) (key : Key) (task : Task) (free : kernel key = none)
      (outside : task.inside = false) : Step kernel (Function.update kernel key (some task))

/-- The kernel over time, from the attachment on. A task that has exited is in no call. -/
structure History where
  kernel : Nat → Kernel
  steps : ∀ t, Step (kernel t) (kernel (t + 1))
  zombies : ∀ key task, kernel 0 key = some task → task.exited = true → task.inside = false

namespace History

variable (history : History)

/-- A known task stays known and takes a step of its own. -/
theorem task_step {t : Nat} {key : Key} {task : Task} (found : history.kernel t key = some task) :
    ∃ task', history.kernel (t + 1) key = some task' ∧ TaskStep task task' := by
  have step := history.steps t
  generalize history.kernel (t + 1) = kernel' at step
  cases step with
  | task key' found' taken =>
    by_cases same : key = key'
    · subst same
      obtain rfl := Option.some.inj (found.symm.trans found')
      exact ⟨_, Function.update_self .., taken⟩
    · exact ⟨task, by rw [Function.update_of_ne same, found], .idle task⟩
  | fork key' new free outside =>
    have other : key ≠ key' := by
      rintro rfl
      rw [free] at found
      cases found
    exact ⟨task, by rw [Function.update_of_ne other, found], .idle task⟩

/-- A task unknown before starts outside. -/
theorem born_outside {t : Nat} {key : Key} {task : Task} (unknown : history.kernel t key = none)
    (found : history.kernel (t + 1) key = some task) : task.inside = false := by
  have step := history.steps t
  generalize history.kernel (t + 1) = kernel' at step found
  cases step with
  | task key' found' taken =>
    have other : key ≠ key' := by
      rintro rfl
      rw [unknown] at found'
      cases found'
    rw [Function.update_of_ne other, unknown] at found
    cases found
  | fork key' new free outside =>
    by_cases same : key = key'
    · subst same
      rw [Function.update_self] at found
      obtain rfl := Option.some.inj found
      exact outside
    · rw [Function.update_of_ne same, unknown] at found
      cases found

/-- A task inside at some time was known and inside at every earlier time. -/
theorem inside_before {t : Nat} {key : Key} {task : Task} (found : history.kernel t key = some task)
    (inside : task.inside = true) :
    ∀ {s : Nat}, s ≤ t → ∃ task', history.kernel s key = some task' ∧ task'.inside = true := by
  induction t generalizing task with
  | zero =>
    intro s le
    obtain rfl : s = 0 := by omega
    exact ⟨task, found, inside⟩
  | succ t ih =>
    intro s le
    rcases Nat.lt_or_eq_of_le le with earlier | rfl
    · cases before : history.kernel t key with
      | none =>
        have outside := history.born_outside before found
        rw [inside] at outside
        cases outside
      | some task' =>
        obtain ⟨task'', found', taken⟩ := history.task_step before
        obtain rfl := Option.some.inj (found.symm.trans found')
        have inside' : task'.inside = true := by
          cases taken <;> first | exact inside | cases inside
        exact ih before inside' (by omega)
    · exact ⟨task, found, inside⟩

/-- A task that has exited is outside. -/
theorem exited_outside : ∀ {t : Nat} {key : Key} {task : Task}, history.kernel t key = some task →
    task.exited = true → task.inside = false := by
  intro t
  induction t with
  | zero =>
    intro key task found exited
    exact history.zombies key task found exited
  | succ t ih =>
    intro key task found exited
    cases before : history.kernel t key with
    | none => exact history.born_outside before found
    | some task' =>
      obtain ⟨task'', found', taken⟩ := history.task_step before
      obtain rfl := Option.some.inj (found.symm.trans found')
      have earlier := ih before
      cases taken with
      | idle => exact earlier exited
      | switchIn off => exact earlier exited
      | leave on => rfl
      | exit on outside => exact outside
      | count on uncounted => exact earlier exited
      | switchOut on counted => exact earlier exited

end History

/-! ## One sample -/

/-- A walk that reached a stack bottom below the depth cap. -/
def Complete (machine : Machine) (frames : List Nat) : Prop :=
  frames.length < depthCap machine.perfEventMaxStack ∧
    ∃ outermost, frames.getLast? = some outermost ∧
      (kernelSymbols machine.kallsyms).bottoms.any (·.contains outermost) = true

/-- An address in the symbol range of `unix_bind` or `vfs_rename`. -/
def Traced (machine : Machine) (address : Nat) : Prop :=
  (kernelSymbols machine.kallsyms).traced.any (·.contains address) = true

/-- One run of `drain_tasks` over a task: when it reads what, and the walk it gets. A
complete walk of a task that does not run meanwhile, and is inside a traced call, shows
an address of that call. -/
structure Visit (machine : Machine) (history : History) (scanner : Key) where
  key : Key
  look : Nat
  countBefore : Nat
  cpuBefore : Nat
  walkBegins : Nat
  walkEnds : Nat
  cpuAfter : Nat
  countAfter : Nat
  ordered : look ≤ countBefore ∧ countBefore ≤ cpuBefore ∧ cpuBefore ≤ walkBegins ∧
    walkBegins ≤ walkEnds ∧ walkEnds ≤ cpuAfter ∧ cpuAfter ≤ countAfter
  state : Nat → Task
  known : ∀ t, look ≤ t → history.kernel t key = some (state t)
  buffer : Bool
  walk : Int × List Nat
  sized : 0 < walk.1 → walk.1 = 8 * walk.2.length
  faithful : (∀ t, walkBegins ≤ t → t ≤ walkEnds → (state t).onCpu = false) →
    (state walkBegins).inside = true → Complete machine walk.2 → ∃ address ∈ walk.2, Traced machine address

namespace Visit

variable {machine : Machine} {history : History} {scanner : Key} (visit : Visit machine history scanner)

def reads : Reads where
  exitState := (visit.state visit.look).exited
  isCurrent := decide (visit.key = scanner)
  buffer := visit.buffer
  switchesBefore := (visit.state visit.countBefore).switches
  onCpuBefore := (visit.state visit.cpuBefore).onCpu
  walk := visit.walk
  onCpuAfter := (visit.state visit.cpuAfter).onCpu
  switchesAfter := (visit.state visit.countAfter).switches

def sample : Sample :=
  drainTasks visit.key visit.reads

@[simp] theorem sample_key : visit.sample.key = visit.key := by
  unfold sample drainTasks
  simp only
  split <;> rfl

theorem sample_sized : WellSized visit.sample := by
  unfold sample drainTasks WellSized
  simp only
  split
  · rfl
  · by_cases fits : 0 < visit.reads.walk.1 ∧ visit.reads.walk.1 ≤ scratchBytes
    · have size : visit.reads.walk.1 = 8 * visit.reads.walk.2.length := visit.sized fits.1
      rw [if_pos fits, if_pos fits]
      show visit.reads.walk.1.toNat = 8 * visit.reads.walk.2.length
      omega
    · rw [if_neg fits, if_neg fits]
      rfl

theorem step (t : Nat) (from_look : visit.look ≤ t) : TaskStep (visit.state t) (visit.state (t + 1)) := by
  obtain ⟨task, found, taken⟩ := history.task_step (visit.known t from_look)
  obtain rfl := Option.some.inj ((visit.known (t + 1) (by omega)).symm.trans found)
  exact taken

theorem switches_mono {s t : Nat} (from_look : visit.look ≤ s) (le : s ≤ t) :
    (visit.state s).switches ≤ (visit.state t).switches := by
  induction t, le using Nat.le_induction with
  | base => exact le_rfl
  | succ t le ih =>
    refine ih.trans ?_
    have taken := visit.step t (from_look.trans le)
    generalize visit.state (t + 1) = after at taken
    cases taken <;> first | exact le_rfl | exact Nat.le_succ _

/-- From an off-CPU read on, a task has not run, or a switch out was counted, or it is in
a run whose switch out is still to be counted. -/
theorem ran_or_counted {s t : Nat} (from_look : visit.look ≤ s) (off : (visit.state s).onCpu = false)
    (le : s ≤ t) :
    (∀ u, s ≤ u → u ≤ t → (visit.state u).onCpu = false) ∨
    (visit.state s).switches < (visit.state t).switches ∨
    ((visit.state t).onCpu = true ∧ (visit.state t).counted = false) := by
  induction t, le using Nat.le_induction with
  | base =>
    left
    intro u from_s to_s
    obtain rfl : u = s := by omega
    exact off
  | succ t le ih =>
    have taken := visit.step t (from_look.trans le)
    have mono := visit.switches_mono from_look le
    rcases ih with still | counted | ⟨on, uncounted⟩
    · have off_now := still t le le_rfl
      by_cases on_next : (visit.state (t + 1)).onCpu = true
      · right
        right
        refine ⟨on_next, ?_⟩
        generalize visit.state (t + 1) = after at taken on_next
        cases taken <;> simp_all
      · left
        intro u from_s to_next
        rcases Nat.lt_or_eq_of_le to_next with earlier | rfl
        · exact still u from_s (by omega)
        · simpa using on_next
    · right
      left
      exact counted.trans_le (visit.switches_mono (from_look.trans le) (Nat.le_succ t))
    · right
      generalize visit.state (t + 1) = after at taken
      cases taken with
      | idle => exact .inr ⟨on, uncounted⟩
      | switchIn off => rw [on] at off; cases off
      | leave _ => exact .inr ⟨on, uncounted⟩
      | exit _ _ => exact .inr ⟨on, uncounted⟩
      | count _ _ => exact .inl (Nat.lt_succ_of_le mono)
      | switchOut _ counted => rw [uncounted] at counted; cases counted

/-- Off the CPU at both reads with an unchanged switch count, the task did not run. -/
theorem did_not_run (before : (visit.state visit.cpuBefore).onCpu = false)
    (after : (visit.state visit.cpuAfter).onCpu = false)
    (same : (visit.state visit.countBefore).switches = (visit.state visit.countAfter).switches) :
    ∀ t, visit.walkBegins ≤ t → t ≤ visit.walkEnds → (visit.state t).onCpu = false := by
  obtain ⟨h₁, h₂, h₃, h₄, h₅, h₆⟩ := visit.ordered
  rcases visit.ran_or_counted (h₁.trans h₂) before (h₃.trans (h₄.trans h₅)) with still | counted | on
  · intro t from_begin to_end
    exact still t (h₃.trans from_begin) (to_end.trans h₅)
  · have low := visit.switches_mono h₁ h₂
    have high := visit.switches_mono (h₁.trans (h₂.trans (h₃.trans (h₄.trans h₅)))) h₆
    omega
  · rw [after] at on
    cases on.1

/-- What a clear classification says of a sample without the exit and scanner flags. -/
theorem classify_clear {sample : Sample} {symbols : KernelSymbols} {cap : Nat}
    (clear : classify sample cap symbols = .clear)
    (regular : sample.record.flags &&& (TASK_EXITED ||| TASK_SELF) = 0) :
    sample.record.flags &&& (TASK_ON_CPU ||| TASK_WALK_ERROR) = 0 ∧
      sample.record.switchesBefore = sample.record.switchesAfter ∧ sample.frames.length < cap ∧
      (∃ outermost, sample.frames.getLast? = some outermost ∧
        symbols.bottoms.any (·.contains outermost) = true) ∧
      ∀ address ∈ sample.frames, ¬ symbols.traced.any (·.contains address) = true := by
  unfold classify at clear
  simp only [regular, ne_eq, not_true_eq_false, if_false] at clear
  split at clear
  · cases clear
  rename_i proven
  push Not at proven
  split at clear
  · cases clear
  rename_i untraced
  refine ⟨proven.1, proven.2.1, proven.2.2.2, ?_, ?_⟩
  · split at clear
    · rename_i outermost last
      split at clear
      · rename_i bottom
        exact ⟨outermost, last, bottom⟩
      · cases clear
    · cases clear
  · intro address mem traced
    exact untraced (List.any_eq_true.mpr ⟨address, mem, traced⟩)

/-- A regular record classified clear comes from a complete walk that shows no traced
address, with both CPU reads off and the counts equal. -/
theorem regular_clear {key : Key} {reads : Reads} (alive : reads.exitState = false)
    (other : reads.isCurrent = false) (clear : machine.clear (drainTasks key reads) = true) :
    reads.onCpuBefore = false ∧ reads.onCpuAfter = false ∧
      reads.switchesBefore = reads.switchesAfter ∧ Complete machine reads.walk.2 ∧
      ∀ address ∈ reads.walk.2, ¬ Traced machine address := by
  have clear := of_decide_eq_true clear
  cases buffer : reads.buffer with
  | false =>
    have unread : drainTasks key reads = ⟨⟨key.tid, TASK_WALK_ERROR, key.start, 0, 0, 0⟩, []⟩ := by
      simp [drainTasks, alive, other, buffer, flag]
    rw [unread] at clear
    have quiet := (classify_clear clear
      (show TASK_WALK_ERROR &&& (TASK_EXITED ||| TASK_SELF) = 0 by decide)).1
    exact absurd quiet (show ¬ TASK_WALK_ERROR &&& (TASK_ON_CPU ||| TASK_WALK_ERROR) = 0 by decide)
  | true =>
    have table : ∀ cpu failed : Bool,
        (flag cpu TASK_ON_CPU ||| flag failed TASK_WALK_ERROR) &&& (TASK_EXITED ||| TASK_SELF) = 0 ∧
        ((flag cpu TASK_ON_CPU ||| flag failed TASK_WALK_ERROR) &&&
          (TASK_ON_CPU ||| TASK_WALK_ERROR) = 0 → cpu = false ∧ failed = false) := by
      decide
    by_cases fits : 0 < reads.walk.1 ∧ reads.walk.1 ≤ scratchBytes
    · have walked : drainTasks key reads =
          ⟨⟨key.tid, flag (reads.onCpuBefore || reads.onCpuAfter) TASK_ON_CPU |||
            flag false TASK_WALK_ERROR, key.start, reads.switchesBefore, reads.switchesAfter,
            reads.walk.1.toNat⟩, reads.walk.2⟩ := by
        simp [drainTasks, alive, other, buffer, flag, fits]
      rw [walked] at clear
      obtain ⟨quiet, same, short, bottom, untraced⟩ := classify_clear clear (table _ _).1
      have off := ((table _ _).2 quiet).1
      rw [Bool.or_eq_false_iff] at off
      exact ⟨off.1, off.2, same, ⟨short, bottom⟩, untraced⟩
    · have failed : drainTasks key reads =
          ⟨⟨key.tid, flag (reads.onCpuBefore || reads.onCpuAfter) TASK_ON_CPU |||
            flag true TASK_WALK_ERROR, key.start, reads.switchesBefore, reads.switchesAfter, 0⟩,
            []⟩ := by
        simp [drainTasks, alive, other, buffer, flag, fits]
      rw [failed] at clear
      obtain ⟨quiet, -⟩ := classify_clear clear (table _ _).1
      exact absurd ((table _ _).2 quiet).2 (by decide)

/-- **A sample classified clear was taken of a task outside.** -/
theorem clear_outside (scanning : ∀ t task, history.kernel t scanner = some task → task.inside = false)
    (clear : machine.clear visit.sample = true) :
    ∃ t, visit.look ≤ t ∧ t ≤ visit.countAfter ∧ (visit.state t).inside = false := by
  obtain ⟨h₁, h₂, h₃, h₄, h₅, h₆⟩ := visit.ordered
  cases exited : (visit.state visit.look).exited with
  | true => exact ⟨visit.look, le_rfl, by omega, history.exited_outside (visit.known _ le_rfl) exited⟩
  | false =>
    by_cases current : visit.key = scanner
    · refine ⟨visit.look, le_rfl, by omega, scanning visit.look _ ?_⟩
      exact (congrArg (history.kernel visit.look) current.symm).trans (visit.known _ le_rfl)
    · obtain ⟨before, after, same, complete, untraced⟩ :=
        regular_clear exited (decide_eq_false current) clear
      refine ⟨visit.walkBegins, by omega, by omega, ?_⟩
      cases inside : (visit.state visit.walkBegins).inside with
      | false => rfl
      | true =>
        have still := visit.did_not_run before after same
        obtain ⟨address, mem, traced⟩ := visit.faithful still inside complete
        exact absurd traced (untraced address mem)

end Visit

/-! ## Scans beside running tasks -/

/-- A task there is, and not exited, from `begins` to `ends`. -/
def History.AliveThroughout (history : History) (key : Key) (begins ends : Nat) : Prop :=
  ∀ t, begins ≤ t → t ≤ ends → ∃ task, history.kernel t key = some task ∧ task.exited = false

/-- A scan that returns data has visited tasks between its begin and its end, among them
every one of `keys` that was alive throughout. -/
def Covers (machine : Machine) (history : History) (scanner : Key) (scan : RawScan) (begins ends : Nat)
    (keys : Key → Prop) : Prop :=
  ∀ words, scan = .data words → ∃ visits : List (Visit machine history scanner),
    words = (visits.map Visit.sample).flatMap Sample.words ∧
    (∀ visit ∈ visits, keys visit.key ∧ begins ≤ visit.look ∧ visit.countAfter ≤ ends) ∧
    ∀ key, keys key → history.AliveThroughout key begins ends → ∃ visit ∈ visits, visit.key = key

/-- The scans of a machine over a history: one after the other; a full scan covers every
task, and once the thread filter is proved, a filtered scan covers exactly its thread. -/
structure Observes (machine : Machine) (history : History) (scanner : Key) where
  begins : Nat → Nat
  ends : Nat → Nat
  full : ∀ n, Covers machine history scanner (machine.scan n none) (begins n) (ends n) fun _ => True
  filtered : threadFilterWorks machine 1 = true → ∀ n tid,
    Covers machine history scanner (machine.scan n (some tid)) (begins n) (ends n) fun key => key.tid = tid

/-- A task inside at the end of a scan that covers it is shown unclear. -/
theorem Covers.unclear {machine : Machine} {history : History} {scanner : Key} {scan : RawScan}
    {begins ends : Nat} {keys : Key → Prop}
    (covers : Covers machine history scanner scan begins ends keys)
    (scanning : ∀ t task, history.kernel t scanner = some task → task.inside = false)
    {key : Key} (covered : keys key) {t : Nat} (after : ends ≤ t) {task : Task}
    (found : history.kernel t key = some task) (inside : task.inside = true) {samples : List Sample}
    (scanned : scanTasks scan = .ok (some samples)) : Unclear machine samples key := by
  cases scan with
  | deadline => cases scanned
  | failed => cases scanned
  | data words =>
    obtain ⟨visits, rfl, within, all⟩ := covers words rfl
    have sized : ∀ sample ∈ visits.map Visit.sample, WellSized sample := by
      intro sample mem
      obtain ⟨visit, -, rfl⟩ := List.mem_map.mp mem
      exact visit.sample_sized
    rw [scanTasks_words sized] at scanned
    obtain rfl := Option.some.inj (Except.ok.inj scanned)
    have alive : history.AliveThroughout key begins ends := by
      intro s _ to_end
      obtain ⟨task', found', inside'⟩ := history.inside_before found inside (to_end.trans after)
      refine ⟨task', found', ?_⟩
      cases exited : task'.exited with
      | false => rfl
      | true =>
        have outside := history.exited_outside found' exited
        rw [inside'] at outside
        cases outside
    constructor
    · obtain ⟨visit, mem, same⟩ := all key covered alive
      exact ⟨visit.sample, List.mem_map_of_mem mem, by rw [visit.sample_key, same]⟩
    · intro sample mem same
      obtain ⟨visit, visited, rfl⟩ := List.mem_map.mp mem
      rw [visit.sample_key] at same
      cases clear : machine.clear visit.sample with
      | false => rfl
      | true =>
        obtain ⟨s, from_look, to_count, outside⟩ := visit.clear_outside scanning clear
        obtain ⟨-, -, finished⟩ := within visit visited
        obtain ⟨task', found', inside'⟩ := history.inside_before found inside
          (show s ≤ t by omega)
        rw [← same, visit.known s from_look] at found'
        obtain rfl := Option.some.inj found'
        rw [outside] at inside'
        cases inside'

/-- **Settling the guard is sound.** Tasks are switched, leave calls, exit, fork and reuse
thread IDs in any order while `drain` runs. If it settles, then from the end of its last
scan on no task is inside a `unix_bind` or `vfs_rename` call it entered before the
completion programs attached. -/
theorem settled_only_outside (machine : Machine) (history : History) (scanner : Key)
    (scanning : ∀ t task, history.kernel t scanner = some task → task.inside = false)
    (observes : Observes machine history scanner) (fuel : Nat) (result : Result)
    (ran : drain machine fuel = some result) (settled : result.outcome = .ok .settled)
    (t : Nat) (after : ∀ n, n < result.scans → observes.ends n ≤ t) (key : Key) (task : Task)
    (found : history.kernel t key = some task) : task.inside = false := by
  cases inside : task.inside with
  | false => rfl
  | true =>
    refine absurd settled (drain_keeps_unclear key ran ?_)
    intro n _ before
    refine ⟨fun samples scanned => ?_, fun works samples scanned => ?_⟩
    · exact (observes.full n).unclear scanning trivial (after n before) found
        inside scanned
    · exact (observes.filtered works n key.tid).unclear scanning rfl
        (after n before) found inside scanned

/-! ## Poles -/

/-- A task that sleeps in `unix_bind`, is switched in, leaves the call and is switched out. -/
def binder : Nat → Task
  | 0 => ⟨false, false, true, 3, true⟩
  | 1 => ⟨false, true, false, 3, true⟩
  | 2 => ⟨false, true, false, 3, false⟩
  | 3 => ⟨false, true, true, 4, false⟩
  | _ + 4 => ⟨false, false, true, 4, false⟩

theorem binder_step : ∀ t, TaskStep (binder t) (binder (t + 1))
  | 0 => .switchIn _ rfl
  | 1 => .leave _ rfl
  | 2 => .count _ rfl rfl
  | 3 => .switchOut _ rfl rfl
  | _ + 4 => .idle _

def binding : History where
  kernel := fun t key => if key = ⟨7, 1⟩ then some (binder t) else none
  steps := by
    intro t
    have step := Step.task (fun key => if key = ⟨7, 1⟩ then some (binder t)
      else none) ⟨7, 1⟩ rfl (binder_step t)
    convert step using 1
    funext key
    by_cases same : key = ⟨7, 1⟩ <;> simp [same, Function.update]
  zombies := by
    intro key task found exited
    split at found
    · cases found
      cases exited
    · cases found

/-- The walk of the task: through `unix_bind` at the first scan, only the entry text later. -/
def binderWalk (n : Nat) : Int × List Nat :=
  if n = 0 then (16, [150, 450]) else (8, [450])

/-- A machine without a thread filter, whose n-th scan shows the task at time `2 * n`. -/
def rescanning : Machine where
  kallsyms := [(100, "unix_bind"), (200, "vfs_rename"), (300, "other"), (400, "__entry_text_start"),
    (500, "__entry_text_end")]
  perfEventMaxStack := some 127
  iterator := true
  scan := fun n _ =>
    let task := binder (2 * n)
    .data (drainTasks ⟨7, 1⟩ ⟨task.exited, false, true, task.switches, task.onCpu, binderWalk n, task.onCpu,
      task.switches⟩).words
  late := fun _ => false
  helper := none
  guardConfig := 2

def binderVisit (n : Nat) : Visit rescanning binding ⟨8, 1⟩ where
  key := ⟨7, 1⟩
  look := 2 * n
  countBefore := 2 * n
  cpuBefore := 2 * n
  walkBegins := 2 * n
  walkEnds := 2 * n
  cpuAfter := 2 * n
  countAfter := 2 * n
  ordered := ⟨le_rfl, le_rfl, le_rfl, le_rfl, le_rfl, le_rfl⟩
  state := binder
  known := fun _ _ => rfl
  buffer := true
  walk := binderWalk n
  sized := fun _ => by
    unfold binderWalk
    split <;> rfl
  faithful := fun _ inside _ => by
    match n, inside with
    | 0, _ => exact ⟨150, List.mem_cons_self, show _ = true by decide⟩
    | 1, inside => cases inside
    | n + 2, inside =>
      rw [show 2 * (n + 2) = 2 * n + 4 by omega] at inside
      cases inside

def binderScans : Observes rescanning binding ⟨8, 1⟩ where
  begins := fun n => 2 * n
  ends := fun n => 2 * n
  full := by
    intro n words data
    refine ⟨[binderVisit n], (RawScan.data.inj data).symm.trans (List.append_nil _).symm, ?_, ?_⟩
    · intro visit mem
      obtain rfl := List.mem_singleton.mp mem
      exact ⟨trivial, le_rfl, le_rfl⟩
    · intro key _ alive
      obtain ⟨task, found, -⟩ := alive (2 * n) le_rfl le_rfl
      refine ⟨binderVisit n, List.mem_singleton_self _, ?_⟩
      by_contra other
      rw [show binding.kernel (2 * n) key = none from if_neg fun same => other same.symm] at found
      cases found
  filtered := fun works => by cases works

/-- The task is inside at first; a rescan settles the guard, and the task is outside. -/
theorem settled_only_outside_rescan :
    (binding.kernel 0 ⟨7, 1⟩).map (·.inside) = some true ∧
      (drain rescanning 2).map (fun result => (result.outcome.toOption, result.scans, result.guardConfig)) =
        some (some .settled, 3, 2 ||| GUARD_SETTLED) ∧
      ∀ task, binding.kernel 4 ⟨7, 1⟩ = some task → task.inside = false := by
  have ran : drain rescanning 2 = some ⟨.ok .settled, 3, 2 ||| GUARD_SETTLED⟩ := by
    decide +kernel
  refine ⟨rfl, by rw [ran]; rfl, fun task found => ?_⟩
  refine settled_only_outside rescanning binding ⟨8, 1⟩ ?_ binderScans 2 _ ran rfl 4 ?_ ⟨7, 1⟩ task found
  · intro t task found
    cases found
  · intro n before
    have : n < 3 := before
    show 2 * n ≤ 4
    omega

end ProgramSplit.Linux.Drain
