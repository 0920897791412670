/-
# Windows.BoundedLog — a capped log file and its three archives

`BoundedLog::write` of `bounded-log.h`. Before a write that would pass the limit the file is rotated:
`.2` is moved over `.3`, `.1` to `.2`, the live file to `.1`, in this order, and the first move that
fails ends the write. The next write rotates again from whatever the moves so far have left.

* `write_liveSize` — the live file passes the limit in no write;
* `rotate_cases` — what a rotation leaves, whole or stopped halfway;
* `kept_iff_safe` — one write loses no history exactly if `.2` replaces `.3` only in a rotation that
  finds `.1` and goes through;
* `rotations_keep_history_iff` — the same for every sequence of writes.
-/
import Mathlib.Data.List.ReduceOption
import Mathlib.Logic.Function.Basic
import ProgramSplit.Lib.Sequence

namespace ProgramSplit.Windows.BoundedLog

set_option autoImplicit false

abbrev Bytes := List UInt8

/-- The live file is `0`, the archives are `1`, `2` and `3`. -/
abbrev Files := Nat → Option Bytes

structure Log where
  files : Files
  /-- `size_` while `file_` is open. -/
  file : Option Nat
  /-- What the live file held at each rotation that went through, newest first. Read by no function of
  the source. -/
  completed : List Bytes

/-- What the system refuses while a write runs. -/
structure Faults where
  create : Bool
  measure : Bool
  /-- The move onto the archive of this number. -/
  moves : Nat → Bool
  recreate : Bool
  remeasure : Bool
  written : Nat
  ok : Bool

structure Write where
  bytes : Bytes
  faults : Faults

/-! ## The source's functions -/

/-- `open`: the file is created where it is missing, and its size is read. -/
def Log.openFile (log : Log) (createFails measureFails : Bool) : Log × Bool :=
  match log.file with
  | some _ => (log, true)
  | none =>
    if createFails then (log, false)
    else
      let content := (log.files 0).getD []
      let log := { log with files := Function.update log.files 0 (some content) }
      if measureFails then (log, false) else ({ log with file := some content.length }, true)

/-- The loop of the rotation from `index` down. A missing source is passed over, any other failure
ends the loop. -/
def rotate (refuses : Nat → Bool) : Nat → Files → Files × Bool
  | 0, files => (files, true)
  | index + 1, files =>
    match files index with
    | none => rotate refuses index files
    | some content =>
      if refuses (index + 1) then (files, false)
      else
        rotate refuses index
          (Function.update (Function.update files index none) (index + 1) (some content))

def count (limit : Nat) (bytes : Bytes) : Nat := min bytes.length (min limit 65536)

/-- `WriteFile` and the size kept beside it. -/
def Log.append (log : Log) (limit : Nat) (w : Write) : Log × Bool :=
  let written := min w.faults.written (count limit w.bytes)
  let content := (log.files 0).getD []
  ({ log with
      files := Function.update log.files 0 (some (content ++ w.bytes.take written))
      file := log.file.map (· + written) },
    w.faults.ok && written == count limit w.bytes)

def Log.write (log : Log) (limit : Nat) (w : Write) : Log × Bool :=
  let (log, opened) := log.openFile w.faults.create w.faults.measure
  if opened = false then (log, false)
  else if log.file.getD 0 > limit - count limit w.bytes then
    let (files, rotated) := rotate w.faults.moves 3 log.files
    if rotated = false then ({ log with files := files, file := none }, false)
    else
      let completed := (log.files 0).toList ++ log.completed
      let (log, opened) :=
        Log.openFile { files := files, file := none, completed := completed }
          w.faults.recreate w.faults.remeasure
      if opened = false then (log, false) else log.append limit w
  else log.append limit w

/-- The archives there are, newest first. -/
def readable (files : Files) : List Bytes := [files 1, files 2, files 3].reduceOption

/-- A log object over the files it finds. -/
def fresh (files : Files) : Log := { files := files, file := none, completed := readable files }

/-! ## Opening and appending -/

def Log.live (log : Log) : Bytes := (log.files 0).getD []

/-- An open handle's size is the live file's: nobody else writes it. -/
def Log.Tracks (log : Log) : Prop :=
  ∀ size, log.file = some size → log.files 0 = some log.live ∧ size = log.live.length

/-- The archives and the ghost history are the same. -/
structure SamePast (log next : Log) : Prop where
  files : ∀ i, i ≠ 0 → next.files i = log.files i
  completed : next.completed = log.completed

theorem SamePast.trans {log middle next : Log} (first : SamePast log middle) (second : SamePast middle next) :
    SamePast log next :=
  ⟨fun i archive => (second.files i archive).trans (first.files i archive),
    second.completed.trans first.completed⟩

theorem SamePast.readable {log next : Log} (same : SamePast log next) :
    readable next.files = readable log.files := by
  simp only [BoundedLog.readable, same.files 1 (by decide), same.files 2 (by decide),
    same.files 3 (by decide)]

section Opening

variable {log : Log} (createFails measureFails : Bool)

theorem openFile_past : SamePast log (log.openFile createFails measureFails).1 := by
  unfold Log.openFile
  cases log.file with
  | some size => exact ⟨fun _ _ => rfl, rfl⟩
  | none =>
    cases createFails with
    | true => exact ⟨fun _ _ => rfl, rfl⟩
    | false =>
      cases measureFails <;>
        exact ⟨fun i archive => Function.update_of_ne archive _ _, rfl⟩

theorem openFile_live : (log.openFile createFails measureFails).1.live = log.live := by
  unfold Log.openFile Log.live
  cases log.file with
  | some size => rfl
  | none =>
    cases createFails with
    | true => rfl
    | false => cases measureFails <;> simp

theorem openFile_tracks (tracks : log.Tracks) : (log.openFile createFails measureFails).1.Tracks := by
  unfold Log.openFile
  cases handle : log.file with
  | some size => exact tracks
  | none =>
    cases createFails with
    | true => exact tracks
    | false =>
      cases measureFails with
      | true =>
        intro size opened
        simp at opened
      | false =>
        intro size opened
        simp only [Bool.false_eq_true, if_false, Option.some.injEq] at opened
        simp [Log.live, ← opened]

/-- After a successful `open` there is a live file, and its size is known. -/
theorem openFile_opened {createFails measureFails : Bool} (tracks : log.Tracks)
    (opened : (log.openFile createFails measureFails).2 = true) :
    (log.openFile createFails measureFails).1.files 0 = some log.live ∧
      (log.openFile createFails measureFails).1.file = some log.live.length := by
  have after := openFile_tracks createFails measureFails tracks
  have handle : ∃ size, (log.openFile createFails measureFails).1.file = some size := by
    revert opened
    unfold Log.openFile
    cases known : log.file with
    | some size => exact fun _ => ⟨size, known⟩
    | none => cases createFails <;> cases measureFails <;> simp
  obtain ⟨size, isOpen⟩ := handle
  have measured := after size isOpen
  rw [openFile_live] at measured
  exact ⟨measured.1, measured.2 ▸ isOpen⟩

end Opening

section Appending

variable {log : Log} (limit : Nat) (w : Write)

theorem append_past : SamePast log (log.append limit w).1 :=
  ⟨fun _ archive => Function.update_of_ne archive _ _, rfl⟩

theorem append_live : (log.append limit w).1.live =
    log.live ++ w.bytes.take (min w.faults.written (count limit w.bytes)) := by
  simp [Log.append, Log.live]

theorem append_size : (log.append limit w).1.live.length ≤ log.live.length + count limit w.bytes := by
  rw [append_live, List.length_append, List.length_take]
  omega

theorem append_tracks (tracks : log.Tracks) : (log.append limit w).1.Tracks := by
  intro size opened
  have counted : count limit w.bytes ≤ w.bytes.length := Nat.min_le_left _ _
  refine ⟨by simp [Log.append, Log.live], ?_⟩
  rw [append_live, List.length_append, List.length_take]
  simp only [Log.append, Option.map_eq_some_iff] at opened
  obtain ⟨before, known, rfl⟩ := opened
  rw [(tracks before known).2]
  omega

end Appending

/-! ## One rotation -/

/-- `.2` is moved over an archive `.3`, whose content is gone. -/
def Replaces (refuses : Nat → Bool) (files : Files) : Prop :=
  files 2 ≠ none ∧ files 3 ≠ none ∧ refuses 3 = false

/-- No move is refused. -/
structure Whole (refuses : Nat → Bool) (files : Files) (live : Bytes) (after : Files) : Prop where
  emptied : after 0 = none
  first : after 1 = some live
  second : after 2 = files 1
  third : after 3 = (files 2).or (files 3)
  admitted : refuses 1 = false ∧ (files 1 ≠ none → refuses 2 = false) ∧ (files 2 ≠ none → refuses 3 = false)

/-- A move is refused: the live file stays, and the archives too, or all but the replaced one. -/
structure Stopped (refuses : Nat → Bool) (files after : Files) : Prop where
  live : after 0 = files 0
  kept : ¬ Replaces refuses files → readable after = readable files
  lost : Replaces refuses files → readable after = [files 1, files 2].reduceOption
  refused : Replaces refuses files → ¬ (refuses 2 = false ∧ refuses 1 = false)

/-- **What a rotation leaves.** -/
theorem rotate_cases (refuses : Nat → Bool) {files : Files} {live : Bytes} (exists_ : files 0 = some live) :
    ((rotate refuses 3 files).2 = true ∧ Whole refuses files live (rotate refuses 3 files).1) ∨
      ((rotate refuses 3 files).2 = false ∧ Stopped refuses files (rotate refuses 3 files).1) := by
  -- Which archives are there and which moves are refused decides every turn of the loop.
  cases first : files 1 <;> cases second : files 2 <;> cases third : files 3 <;>
    cases onFirst : refuses 1 <;> cases onSecond : refuses 2 <;> cases onThird : refuses 3 <;>
    simp [rotate, exists_, first, second, onFirst, onSecond, onThird] <;>
    constructor <;> simp [readable, Replaces, exists_, first, second, third, onFirst, onSecond, onThird]

/-! ## One write -/

section Writing

variable {log : Log} {limit : Nat} {w : Write}

/-- The write opens the file and finds no room in it. -/
def Log.rotates (log : Log) (limit : Nat) (w : Write) : Prop :=
  (log.openFile w.faults.create w.faults.measure).2 = true ∧
    limit - count limit w.bytes < (log.openFile w.faults.create w.faults.measure).1.file.getD 0

/-- The rotation of a write: the files it starts from are those `open` leaves. -/
def Log.rotation (log : Log) (w : Write) : Files × Bool :=
  rotate w.faults.moves 3 (log.openFile w.faults.create w.faults.measure).1.files

theorem count_le : count limit w.bytes ≤ limit :=
  Nat.le_trans (Nat.min_le_right _ _) (Nat.min_le_left _ _)

/-- A write that does not rotate leaves the past, and the live file within the limit if it was. -/
theorem write_stays (tracks : log.Tracks) (room : ¬ log.rotates limit w) :
    SamePast log (log.write limit w).1 ∧ (log.write limit w).1.Tracks ∧
      (limit < (log.write limit w).1.live.length → limit < log.live.length) := by
  have after := openFile_tracks w.faults.create w.faults.measure tracks
  unfold Log.write
  cases opened : (log.openFile w.faults.create w.faults.measure).2 with
  | false =>
    simp only [opened, if_true]
    exact ⟨openFile_past _ _, after, by rw [openFile_live]; exact id⟩
  | true =>
    have known := openFile_opened tracks opened
    have fits : ¬ (log.openFile w.faults.create w.faults.measure).1.file.getD 0 >
        limit - count limit w.bytes := fun full => room ⟨opened, full⟩
    simp only [opened, Bool.true_eq_false, if_false, if_neg fits]
    refine ⟨(openFile_past _ _).trans (append_past _ _), append_tracks _ _ after, fun beyond => ?_⟩
    have grown : _ ≤ (log.openFile w.faults.create w.faults.measure).1.live.length + _ := append_size limit w
    rw [openFile_live] at grown
    rw [known.2, Option.getD_some] at fits
    have small : count limit w.bytes ≤ limit := count_le
    omega

/-- A write whose rotation is stopped leaves what the rotation left. -/
theorem write_stopped (full : log.rotates limit w) (stopped : (log.rotation w).2 = false) :
    (log.write limit w).1 =
      { (log.openFile w.faults.create w.faults.measure).1 with
        files := (log.rotation w).1
        file := none } := by
  unfold Log.rotation at stopped
  unfold Log.write
  simp only [full.1, Bool.true_eq_false, if_false, if_pos full.2, gt_iff_lt, stopped, if_true]
  rfl

/-- A write whose rotation goes through starts a new live file. -/
theorem write_rotated (tracks : log.Tracks) (full : log.rotates limit w)
    (emptied : (log.rotation w).1 0 = none) (through : (log.rotation w).2 = true) :
    (∀ i, i ≠ 0 → (log.write limit w).1.files i = (log.rotation w).1 i) ∧
      (log.write limit w).1.completed = log.live :: log.completed ∧
      (log.write limit w).1.Tracks ∧ (log.write limit w).1.live.length ≤ limit := by
  have known := openFile_opened tracks full.1
  have past : SamePast log (log.openFile w.faults.create w.faults.measure).1 := openFile_past _ _
  set moved : Log := ⟨(log.rotation w).1, none, log.live :: log.completed⟩ with movedIs
  have nothing : moved.live = [] := by simp [Log.live, movedIs, emptied]
  have closed : moved.Tracks := fun size opened => by simp [movedIs] at opened
  have reopened : SamePast moved (moved.openFile w.faults.recreate w.faults.remeasure).1 := openFile_past _ _
  have tracked := openFile_tracks w.faults.recreate w.faults.remeasure closed
  have result : (log.write limit w).1 =
      if (moved.openFile w.faults.recreate w.faults.remeasure).2 = false then
        (moved.openFile w.faults.recreate w.faults.remeasure).1
      else ((moved.openFile w.faults.recreate w.faults.remeasure).1.append limit w).1 := by
    unfold Log.rotation at through
    have emptyFirst : (log.openFile w.faults.create w.faults.measure).1.files 0 = some log.live := known.1
    unfold Log.write
    simp only [full.1, Bool.true_eq_false, if_false, gt_iff_lt, if_pos full.2, through, emptyFirst,
      Option.toList_some, List.singleton_append, past.completed]
    rw [apply_ite Prod.fst]
    rfl
  have small : count limit w.bytes ≤ limit := count_le
  rw [result]
  split_ifs
  · refine ⟨fun i archive => reopened.files i archive, reopened.completed, tracked, ?_⟩
    rw [openFile_live, nothing]
    exact Nat.zero_le _
  · have both := reopened.trans (append_past limit w)
    refine ⟨fun i archive => both.files i archive, both.completed, append_tracks _ _ tracked, ?_⟩
    have grown : _ ≤ (moved.openFile w.faults.recreate w.faults.remeasure).1.live.length + _ :=
      append_size limit w
    rw [openFile_live, nothing, List.length_nil] at grown
    omega

/-- The files a rotation starts from. -/
theorem rotation_start (tracks : log.Tracks) (full : log.rotates limit w) :
    (log.openFile w.faults.create w.faults.measure).1.files 0 = some log.live :=
  (openFile_opened tracks full.1).1

theorem write_tracks (tracks : log.Tracks) : (log.write limit w).1.Tracks := by
  by_cases full : log.rotates limit w
  · rcases rotate_cases w.faults.moves (rotation_start tracks full) with ⟨through, whole⟩ | ⟨stopped, _⟩
    · exact (write_rotated tracks full whole.emptied through).2.2.1
    · rw [write_stopped full stopped]
      intro size opened
      simp at opened
  · exact (write_stays tracks full).2.1

/-- **The limit.** A write leaves the live file over the limit only where it was already. -/
theorem write_liveSize (tracks : log.Tracks) :
    limit < (log.write limit w).1.live.length → limit < log.live.length := by
  by_cases full : log.rotates limit w
  · rcases rotate_cases w.faults.moves (rotation_start tracks full) with ⟨through, whole⟩ | ⟨stopped, halfway⟩
    · intro beyond
      exact absurd (write_rotated tracks full whole.emptied through).2.2.2 (Nat.not_le.mpr beyond)
    · have same : (log.write limit w).1.live = log.live := by
        rw [write_stopped full stopped, Log.live]
        simp only [Log.rotation, halfway.live, rotation_start tracks full, Option.getD_some]
      rw [same]
      exact id
  · exact (write_stays tracks full).2.2

/-! ## History -/

/-- The write discards no archive, or the live file becomes the first archive in it; and the archives
are the three newest completed rotations, in order. -/
structure Kept (log next : Log) : Prop where
  discarded : (readable log.files).Sublist (readable next.files) ∨
    (next.files 1 = some log.live ∧ next.completed = log.live :: log.completed)
  newest : readable next.files = next.completed.take 3

/-- If the rotation moves `.2` over `.3`, there is a `.1` and no later move is refused. -/
def Safe (limit : Nat) (log : Log) (w : Write) : Prop :=
  log.rotates limit w → Replaces w.faults.moves log.files →
    log.files 1 ≠ none ∧ w.faults.moves 2 = false ∧ w.faults.moves 1 = false

/-- The archives of a whole rotation, of three newest: nothing is missing but where `.2` replaced `.3`
and there was no `.1`. -/
theorem shifted_newest (first second third : Option Bytes) (live : Bytes) :
    [some live, first, second.or third].reduceOption = live :: ([first, second, third].reduceOption.take 2) ↔
      (second ≠ none → third ≠ none → first ≠ none) := by
  cases first <;> cases second <;> cases third <;> simp

theorem lost_newest {first second third : Option Bytes} (there : third ≠ none) :
    [first, second].reduceOption ≠ [first, second, third].reduceOption := by
  intro same
  cases third with
  | none => exact there rfl
  | some content =>
    have lengths := congrArg List.length same
    cases first <;> cases second <;> simp at lengths

theorem replaces_opened (refuses : Nat → Bool) :
    Replaces refuses (log.openFile w.faults.create w.faults.measure).1.files ↔
      Replaces refuses log.files := by
  have past : SamePast log (log.openFile w.faults.create w.faults.measure).1 := openFile_past _ _
  simp only [Replaces, past.files 2 (by decide), past.files 3 (by decide)]

/-- **One write.** From three newest archives it keeps the history exactly if it is safe. -/
theorem kept_iff_safe (tracks : log.Tracks) (newest : readable log.files = log.completed.take 3) :
    Kept log (log.write limit w).1 ↔ Safe limit log w := by
  by_cases full : log.rotates limit w
  · have past : SamePast log (log.openFile w.faults.create w.faults.measure).1 := openFile_past _ _
    rcases rotate_cases w.faults.moves (rotation_start tracks full) with ⟨through, whole⟩ | ⟨stopped, halfway⟩
    · obtain ⟨files, completed, -, -⟩ := write_rotated tracks full whole.emptied through
      have first : (log.write limit w).1.files 1 = some log.live := (files 1 (by decide)).trans whole.first
      have second := (files 2 (by decide)).trans whole.second
      have third := (files 3 (by decide)).trans whole.third
      have admitted := whole.admitted
      simp only [past.files 1 (by decide), past.files 2 (by decide), past.files 3 (by decide)]
        at second third admitted
      have taken : log.completed.take 2 = (readable log.files).take 2 := by
        rw [newest, List.take_take]
        rfl
      have shifted : readable (log.write limit w).1.files = (log.write limit w).1.completed.take 3 ↔
          (log.files 2 ≠ none → log.files 3 ≠ none → log.files 1 ≠ none) := by
        rw [completed, List.take_succ_cons, taken, readable, first, second, third]
        exact shifted_newest _ _ _ _
      constructor
      · intro kept _ replaces
        have found := shifted.mp kept.newest replaces.1 replaces.2.1
        exact ⟨found, admitted.2.1 found, admitted.1⟩
      · intro safe
        refine ⟨.inr ⟨first, completed⟩, shifted.mpr fun isSecond isThird missing => ?_⟩
        have allowed := admitted.2.2 isSecond
        exact (safe full ⟨isSecond, isThird, allowed⟩).1 missing
    · have result := write_stopped full stopped
      have same : (log.write limit w).1.completed = log.completed := by rw [result]; exact past.completed
      have files : (log.write limit w).1.files = (log.rotation w).1 := by rw [result]
      by_cases replaces : Replaces w.faults.moves log.files
      · have left := halfway.lost ((replaces_opened _).mpr replaces)
        have refused := halfway.refused ((replaces_opened _).mpr replaces)
        constructor
        · intro kept
          have whole := kept.newest
          rw [files, same, ← newest, Log.rotation, left, past.files 1 (by decide),
            past.files 2 (by decide)] at whole
          exact absurd whole (lost_newest replaces.2.1)
        · intro safe
          exact absurd (safe full replaces).2 refused
      · have left := halfway.kept (fun inside => replaces ((replaces_opened _).mp inside))
        have unchanged : readable (log.write limit w).1.files = readable log.files := by
          rw [files, Log.rotation, left, past.readable]
        refine ⟨fun _ _ inside => absurd inside replaces, fun _ => ⟨.inl ?_, ?_⟩⟩
        · rw [unchanged]
        · rw [unchanged, same, newest]
  · have past := (write_stays tracks full).1
    refine ⟨fun _ inside => absurd inside full, fun _ => ⟨.inl ?_, ?_⟩⟩
    · rw [past.readable]
    · rw [past.readable, past.completed, newest]

end Writing

/-! ## Sequences of writes -/

/-- The log after a write. -/
def Log.after (limit : Nat) (log : Log) (w : Write) : Log := (log.write limit w).1

/-- The writes of a sequence, each in the state it is made in. -/
abbrev Each (limit : Nat) (P : Log → Write → Prop) : Log → List Write → Prop := Lib.Each (Log.after limit) P

theorem each_liveSize (limit : Nat) (writes : List Write) {log : Log} (tracks : log.Tracks) :
    Each limit (fun log w => limit < (log.write limit w).1.live.length →
      limit < log.live.length) log writes :=
  Lib.each_of_inv Log.Tracks (fun _ _ => write_tracks) (fun _ _ => write_liveSize) writes tracks

theorem each_kept_iff (limit : Nat) (writes : List Write) {log : Log} (tracks : log.Tracks)
    (newest : readable log.files = log.completed.take 3) :
    Each limit (fun log w => Kept log (log.write limit w).1) log writes ↔
      Each limit (Safe limit) log writes := by
  refine Lib.each_iff (fun log => log.Tracks ∧ readable log.files = log.completed.take 3)
    (fun log w inv kept => ?_) (fun log w inv => ?_) writes ⟨tracks, newest⟩
  · exact ⟨write_tracks inv.1, kept.newest⟩
  · exact kept_iff_safe inv.1 inv.2

theorem fresh_tracks (files : Files) : (fresh files).Tracks := by
  intro size opened
  simp [fresh] at opened

theorem fresh_newest (files : Files) : readable (fresh files).files = (fresh files).completed.take 3 := by
  have three : (readable files).length ≤ 3 := List.reduceOption_length_le _
  exact (List.take_of_length_le three).symm

/-- **Rotation.** In every sequence of writes over any files the live file passes the limit in no write;
and each write keeps the archives and the three newest completed rotations exactly if no rotation
moves `.2` over `.3` without finding a `.1` and going through. -/
theorem rotations_keep_history_iff (limit : Nat) (files : Files) (writes : List Write) :
    Each limit (fun log w => limit < (log.write limit w).1.live.length → limit < log.live.length)
        (fresh files) writes ∧
      (Each limit (fun log w => Kept log (log.write limit w).1) (fresh files) writes ↔
        Each limit (Safe limit) (fresh files) writes) :=
  ⟨each_liveSize limit writes (fresh_tracks files),
    each_kept_iff limit writes (fresh_tracks files) (fresh_newest files)⟩

/-! ## Poles -/

/-- A full file and three archives. -/
def full : Files
  | 0 => some [0]
  | 1 => some [1]
  | 2 => some [2]
  | 3 => some [3]
  | _ => none

/-- A reader that shares no deletion holds the live file. -/
def held : Write where
  bytes := [9]
  faults :=
    { create := false, measure := false, moves := fun archive => archive == 1,
      recreate := false, remeasure := false, written := 1, ok := true }

/-- Two writes are refused, no rotation goes through, and two of three archives are gone. -/
theorem refused_rotations_discard :
    ¬ Kept (fresh full) ((fresh full).write 1 held).1 ∧
      ((((fresh full).write 1 held).1).write 1 held).2 = false ∧
      readable (((fresh full).write 1 held).1.write 1 held).1.files = [[1]] ∧
      (((fresh full).write 1 held).1.write 1 held).1.completed = [[1], [2], [3]] := by
  refine ⟨fun kept => ?_, rfl, rfl, rfl⟩
  exact absurd kept.newest (by decide)

end ProgramSplit.Windows.BoundedLog
