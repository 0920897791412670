/-
# Windows.TreeRemoval — removing a tree without leaving it

`Remove-ProgramSplitTree` of `Common.ps1`. A file system is a table of names over a table of objects:
a file may have several names, and a reparse point leads somewhere else, so that what is done through
one name can show through another.

* `Effect` — the names that are gone, and the objects that were given the normal attributes;
* `removeTree_effect` — what a run that completes has done, by induction on its depth;
* `removeTree_frame_iff` — exactly the names reachable without a reparse point are gone, and what the
  other names name is as before exactly if no read-only file of the tree has a name outside it.
-/
import Mathlib.Data.List.Basic
import Mathlib.Data.List.Infix

namespace ProgramSplit.Windows.TreeRemoval

set_option autoImplicit false

/-! ## The file system -/

/-- A name with the directories above it, the last component first. -/
abbrev Path := List String

structure Object where
  container : Bool
  /-- Where a reparse point leads. -/
  reparse : Option Path
  readOnly : Bool
  otherAttributes : Nat
  content : List UInt8
  deriving DecidableEq

/-- `SetAttributes(…, 'Normal')` -/
def Object.normal (o : Object) : Object := { o with readOnly := false, otherAttributes := 0 }

/-- A directory that is no reparse point. -/
def Object.Plain (o : Object) : Prop := o.container = true ∧ o.reparse = none

/-- A file that is no reparse point. -/
def Object.PlainFile (o : Object) : Prop := o.container = false ∧ o.reparse = none

structure FileSystem where
  entries : Path → Option Nat
  objects : Nat → Object
  /-- The names there are, and maybe others. -/
  names : List Path

/-- Names lie in directories of their own, and are listed. -/
structure FileSystem.Wf (s : FileSystem) : Prop where
  parent : ∀ n p, s.entries (n :: p) ≠ none → ∃ id, s.entries p = some id ∧ (s.objects id).Plain
  listed : ∀ p, s.entries p ≠ none → p ∈ s.names

/-- Where a path leads: through reparse points to what they stand for. -/
def FileSystem.follow (s : FileSystem) (p : Path) : Path :=
  match s.entries p with
  | some id => ((s.objects id).reparse).getD p
  | none => p

/-- The name that a path relative to a directory stands for. Its last component is not followed. -/
def FileSystem.locate (s : FileSystem) (base : Path) : Path → Path
  | [] => base
  | n :: rel => n :: s.follow (s.locate base rel)

/-- `EnumerateFileSystemInfos`: the names in what a path leads to. -/
def FileSystem.enumerate (s : FileSystem) (p : Path) : List String :=
  s.names.filterMap fun
    | n :: d => if d = s.follow p ∧ (s.entries (n :: d)).isSome then some n else none
    | [] => none

def FileSystem.unlink (s : FileSystem) (p : Path) : FileSystem :=
  { s with entries := fun q => if q = p then none else s.entries q }

def FileSystem.setNormal (s : FileSystem) (id : Nat) : FileSystem :=
  { s with objects := fun i => if i = id then (s.objects i).normal else s.objects i }

/-- `Delete` of one name: a read-only object, a directory that is not empty and whatever else the
system `refuses` make it throw. -/
def FileSystem.delete (refuses : Path → Bool) (s : FileSystem) (p : Path) : Option FileSystem :=
  match s.entries p with
  | none => none
  | some id =>
    if (s.objects id).readOnly || refuses p then none
    else if (s.objects id).container && (s.objects id).reparse.isNone && !(s.enumerate p).isEmpty then none
    else some (s.unlink p)

/-- `Remove-ProgramSplitTree` of the path `rel` below the directory `base`, to a depth of `fuel`; it
throws where the result is `none`. `Get-Item` finds every name that is there. -/
def removeTree (refuses : Path → Bool) (base : Path) : Nat → Path → FileSystem → Option FileSystem
  | 0, _, _ => none
  | fuel + 1, rel, s =>
    match s.entries (s.locate base rel) with
    | none => some s
    | some id =>
      if (s.objects id).reparse.isSome then s.delete refuses (s.locate base rel)
      else if (s.objects id).container then
        ((s.enumerate (s.locate base rel)).foldlM
          (fun s n => removeTree refuses base fuel (n :: rel) s) s).bind
          fun s => s.delete refuses (s.locate base rel)
      else
        let s := if (s.objects id).readOnly then s.setNormal id else s
        s.delete refuses (s.locate base rel)

/-! ## Effects -/

/-- The object is a read-only file with one of these names. -/
def FileSystem.Touched (s : FileSystem) (gone : Path → Prop) (id : Nat) : Prop :=
  ∃ p, gone p ∧ s.entries p = some id ∧ (s.objects id).PlainFile ∧ (s.objects id).readOnly = true

/-- The names `gone` are gone, their read-only files have normal attributes, and nothing else has
changed. -/
structure Effect (s : FileSystem) (gone : Path → Prop) (after : FileSystem) : Prop where
  names : after.names = s.names
  removed : ∀ p, gone p → after.entries p = none
  kept : ∀ p, ¬ gone p → after.entries p = s.entries p
  touched : ∀ id, s.Touched gone id → after.objects id = (s.objects id).normal
  spared : ∀ id, ¬ s.Touched gone id → after.objects id = s.objects id

section Effects

variable {s middle after : FileSystem} {gone later : Path → Prop}

theorem Effect.refl (s : FileSystem) : Effect s (fun _ => False) s where
  names := rfl
  removed := fun _ => False.elim
  kept := fun _ _ => rfl
  touched := fun _ touched => absurd touched (by rintro ⟨p, impossible, -⟩; exact impossible)
  spared := fun _ _ => rfl

theorem Effect.objects (effect : Effect s gone after) (id : Nat) :
    after.objects id = (s.objects id).normal ∨ after.objects id = s.objects id := by
  by_cases touched : s.Touched gone id
  · exact .inl (effect.touched id touched)
  · exact .inr (effect.spared id touched)

/-- Attributes are not what makes an object a directory or a reparse point. -/
theorem Effect.kind (effect : Effect s gone after) (id : Nat) :
    (after.objects id).container = (s.objects id).container ∧
      (after.objects id).reparse = (s.objects id).reparse := by
  rcases effect.objects id with same | same
  · rw [same]
    exact ⟨rfl, rfl⟩
  · rw [same]
    exact ⟨rfl, rfl⟩

theorem Effect.entries_of_some (effect : Effect s gone after) {p : Path} {id : Nat}
    (present : after.entries p = some id) : ¬ gone p ∧ s.entries p = some id := by
  by_cases isGone : gone p
  · rw [effect.removed p isGone] at present
    cases present
  · exact ⟨isGone, (effect.kept p isGone).symm.trans present⟩

theorem Effect.trans (first : Effect s gone middle) (second : Effect middle later after) :
    Effect s (fun p => gone p ∨ later p) after where
  names := second.names.trans first.names
  removed := by
    rintro p isGone
    by_cases isLater : later p
    · exact second.removed p isLater
    · rw [second.kept p isLater]
      exact first.removed p (isGone.resolve_right isLater)
  kept := by
    intro p notGone
    rw [not_or] at notGone
    rw [second.kept p notGone.2, first.kept p notGone.1]
  touched := by
    rintro id ⟨p, isGone, present, file, readOnly⟩
    by_cases before : s.Touched gone id
    · -- The attributes are normal already, so the second part does not find the file read-only.
      have normal := first.touched id before
      rw [second.spared id, normal]
      rintro ⟨q, -, -, -, stillReadOnly⟩
      rw [normal] at stillReadOnly
      cases stillReadOnly
    · have same := first.spared id before
      have notGone : ¬ gone p := fun inside => before ⟨p, inside, present, file, readOnly⟩
      rw [second.touched id, same]
      refine ⟨p, isGone.resolve_left notGone, (first.kept p notGone).trans present, ?_, ?_⟩
      · rwa [same]
      · rwa [same]
  spared := by
    intro id spared
    have before : ¬ s.Touched gone id := by
      rintro ⟨p, isGone, rest⟩
      exact spared ⟨p, .inl isGone, rest⟩
    have same := first.spared id before
    rw [second.spared id, same]
    rintro ⟨p, isLater, present, file, readOnly⟩
    rw [same] at file readOnly
    exact spared ⟨p, .inr isLater, (first.entries_of_some present).2, file, readOnly⟩

theorem Effect.absent (effect : Effect s gone after) {p : Path} (absent : s.entries p = none) :
    after.entries p = none := by
  by_cases isGone : gone p
  · exact effect.removed p isGone
  · exact (effect.kept p isGone).trans absent

/-- Which names are said to be gone matters only where there are names. -/
theorem Effect.congr (effect : Effect s gone after) (same : ∀ p, s.entries p ≠ none → (gone p ↔ later p)) :
    Effect s later after where
  names := effect.names
  removed := by
    intro p isGone
    by_cases absent : s.entries p = none
    · exact effect.absent absent
    · exact effect.removed p ((same p absent).mpr isGone)
  kept := by
    intro p notGone
    by_cases absent : s.entries p = none
    · rw [effect.absent absent, absent]
    · exact effect.kept p fun isGone => notGone ((same p absent).mp isGone)
  touched := by
    rintro id ⟨p, isGone, present, rest⟩
    exact effect.touched id ⟨p, (same p (present ▸ Option.some_ne_none id)).mpr isGone, present, rest⟩
  spared := by
    intro id spared
    refine effect.spared id ?_
    rintro ⟨p, isGone, present, rest⟩
    exact spared ⟨p, (same p (present ▸ Option.some_ne_none id)).mp isGone, present, rest⟩

theorem Effect.wf (effect : Effect s gone after) (wf : s.Wf) (closed : ∀ n p, gone p → gone (n :: p)) :
    after.Wf where
  parent := by
    intro n p present
    obtain ⟨child, there⟩ := Option.ne_none_iff_exists'.mp present
    obtain ⟨notGone, before⟩ := effect.entries_of_some there
    obtain ⟨id, parent, plain⟩ := wf.parent n p (before ▸ Option.some_ne_none child)
    refine ⟨id, (effect.kept p fun isGone => notGone (closed n p isGone)).trans parent, ?_⟩
    obtain ⟨container, reparse⟩ := effect.kind id
    exact ⟨container.trans plain.1, reparse.trans plain.2⟩
  listed := by
    intro p present
    rw [effect.names]
    exact wf.listed p fun absent => present (effect.absent absent)

theorem Effect.follow (effect : Effect s gone after) {p : Path} (notGone : ¬ gone p) :
    after.follow p = s.follow p := by
  unfold FileSystem.follow
  rw [effect.kept p notGone]
  cases s.entries p with
  | none => rfl
  | some id => simp only [(effect.kind id).2]

end Effects

/-! ## Names below a name -/

section Below

variable {s : FileSystem}

theorem FileSystem.Wf.above (wf : s.Wf) {c p : Path} (below : c <:+ p) (present : s.entries p ≠ none) :
    s.entries c ≠ none := by
  obtain ⟨rel, rfl⟩ := below
  induction rel with
  | nil => exact present
  | cons n rel ih =>
    obtain ⟨id, parent, -⟩ := wf.parent n (rel ++ c) present
    exact ih (parent ▸ Option.some_ne_none id)

/-- Below a name, but not it: below one of its children. -/
theorem child_of_below {c p : Path} (below : c <:+ p) (other : p ≠ c) : ∃ n, (n :: c) <:+ p := by
  obtain ⟨rel, rfl⟩ := below
  induction rel using List.reverseRecOn with
  | nil => exact absurd rfl other
  | append_singleton rel n _ => exact ⟨n, rel, by simp⟩

/-- Nothing lies below a name that is no plain directory. -/
theorem FileSystem.Wf.leaf (wf : s.Wf) {c p : Path} {id : Nat} (entry : s.entries c = some id)
    (notPlain : ¬ (s.objects id).Plain) (below : c <:+ p) (present : s.entries p ≠ none) : p = c := by
  by_contra other
  obtain ⟨n, inChild⟩ := child_of_below below other
  obtain ⟨id', parent, plain⟩ := wf.parent n c (wf.above inChild present)
  rw [entry] at parent
  cases parent
  exact notPlain plain

theorem follow_of_plain {c : Path} {id : Nat} (entry : s.entries c = some id)
    (plain : (s.objects id).reparse = none) : s.follow c = c := by
  unfold FileSystem.follow
  rw [entry]
  simp only [plain, Option.getD_none]

theorem FileSystem.Wf.mem_enumerate (wf : s.Wf) {c : Path} (own : s.follow c = c) {n : String}
    (present : s.entries (n :: c) ≠ none) : n ∈ s.enumerate c := by
  refine List.mem_filterMap.mpr ⟨n :: c, wf.listed _ present, ?_⟩
  simp only [own, true_and]
  rw [if_pos (Option.isSome_iff_ne_none.mpr present)]

end Below

/-! ## The walk -/

/-- The directories between `base` and a path lead to themselves. -/
def Walkable (s : FileSystem) (base : Path) : Path → Prop
  | [] => True
  | _ :: rel => Walkable s base rel ∧ s.follow (rel ++ base) = rel ++ base

theorem Walkable.locate {s : FileSystem} {base : Path} : ∀ {rel : Path}, Walkable s base rel →
    s.locate base rel = rel ++ base
  | [], _ => rfl
  | n :: rel, walkable => by
    rw [FileSystem.locate, walkable.1.locate, walkable.2]
    rfl

/-- Attributes do not change where paths lead. -/
theorem setNormal_follow (s : FileSystem) (id : Nat) (p : Path) : (s.setNormal id).follow p = s.follow p := by
  unfold FileSystem.follow FileSystem.setNormal
  cases s.entries p with
  | none => rfl
  | some i =>
    dsimp only
    split <;> rfl

theorem setNormal_locate (s : FileSystem) (id : Nat) (base rel : Path) :
    (s.setNormal id).locate base rel = s.locate base rel := by
  induction rel with
  | nil => rfl
  | cons n rel ih => rw [FileSystem.locate, FileSystem.locate, ih, setNormal_follow]

theorem Walkable.effect {s after : FileSystem} {gone : Path → Prop} (effect : Effect s gone after)
    {base : Path} :
    ∀ {rel : Path}, Walkable s base rel → (∀ q, q.length < (rel ++ base).length → ¬ gone q) →
      Walkable after base rel
  | [], _, _ => trivial
  | n :: rel, walkable, outside => by
    have shorter : (rel ++ base).length < (n :: rel ++ base).length := by simp
    refine ⟨walkable.1.effect effect fun q less => outside q (less.trans shorter), ?_⟩
    rw [effect.follow (outside _ shorter), walkable.2]

/-! ## Deleting one name -/

section Deleting

variable {refuses : Path → Bool} {s after : FileSystem} {c : Path} {id : Nat}

theorem delete_some (entry : s.entries c = some id) (done : s.delete refuses c = some after) :
    (s.objects id).readOnly = false ∧ after = s.unlink c := by
  unfold FileSystem.delete at done
  rw [entry] at done
  dsimp only at done
  split at done
  · cases done
  · rename_i writable
    split at done
    · cases done
    · rw [Bool.or_eq_true, not_or, Bool.not_eq_true] at writable
      exact ⟨writable.1, (Option.some.inj done).symm⟩

theorem delete_effect (entry : s.entries c = some id) (done : s.delete refuses c = some after) :
    Effect s (fun p => p = c) after := by
  obtain ⟨writable, rfl⟩ := delete_some entry done
  have untouched : ∀ i, ¬ s.Touched (fun p => p = c) i := by
    rintro i ⟨p, rfl, present, -, readOnly⟩
    rw [entry] at present
    cases present
    rw [writable] at readOnly
    cases readOnly
  exact {
    names := rfl
    removed := fun p isC => if_pos isC
    kept := fun p other => if_neg other
    touched := fun i touched => absurd touched (untouched i)
    spared := fun _ _ => rfl }

/-- A file loses its read-only attribute first. -/
theorem deleteFile_effect (entry : s.entries c = some id) (file : (s.objects id).PlainFile)
    (done : (if (s.objects id).readOnly then s.setNormal id else s).delete refuses c = some after) :
    Effect s (fun p => p = c) after := by
  cases readOnly : (s.objects id).readOnly with
  | false =>
    rw [readOnly] at done
    exact delete_effect entry done
  | true =>
    rw [readOnly, if_pos rfl] at done
    have entry' : (s.setNormal id).entries c = some id := entry
    obtain ⟨-, rfl⟩ := delete_some entry' done
    refine ⟨rfl, fun p isC => if_pos isC, fun p other => if_neg other, ?_, ?_⟩
    · rintro i ⟨p, rfl, present, -⟩
      rw [entry] at present
      cases present
      exact if_pos rfl
    · intro i spared
      refine if_neg ?_
      rintro rfl
      exact spared ⟨c, rfl, entry, file, readOnly⟩

end Deleting

/-! ## Whole runs -/

theorem effect_below {s after : FileSystem} {c : Path} {id : Nat} (wf : s.Wf) (entry : s.entries c = some id)
    (notPlain : ¬ (s.objects id).Plain) (effect : Effect s (fun p => p = c) after) :
    Effect s (fun p => c <:+ p) after := by
  refine effect.congr fun p present => ⟨?_, fun below => wf.leaf entry notPlain below present⟩
  rintro rfl
  exact List.suffix_rfl

/-- The children of a directory, one after the other, given what a removal of each does. -/
theorem foldlM_effect {remove : Path → FileSystem → Option FileSystem} {base rel : Path} {id : Nat}
    (each : ∀ n s after, s.Wf → Walkable s base (n :: rel) → remove (n :: rel) s = some after →
      Effect s (fun p => (n :: rel ++ base) <:+ p) after) :
    ∀ (ns : List String) {s after : FileSystem}, s.Wf → Walkable s base rel →
      s.entries (rel ++ base) = some id → (s.objects id).Plain →
      ns.foldlM (fun s n => remove (n :: rel) s) s = some after →
      Effect s (fun p => ∃ n ∈ ns, (n :: rel ++ base) <:+ p) after
  | [], s, after, _, _, _, _, done => by
    cases done
    exact (Effect.refl s).congr fun p _ => by simp
  | n :: ns, s, after, wf, walkable, entry, plain, done => by
    rw [List.foldlM_cons] at done
    obtain ⟨middle, first, rest⟩ := Option.bind_eq_some_iff.mp done
    have own : s.follow (rel ++ base) = rel ++ base := follow_of_plain entry plain.2
    have here := each n s middle wf ⟨walkable, own⟩ first
    have long : ∀ q, q.length < (rel ++ base).length + 1 → ¬ (n :: rel ++ base) <:+ q := by
      intro q short below
      have longer := below.length_le
      simp only [List.cons_append, List.length_cons] at longer
      omega
    have still : middle.entries (rel ++ base) = some id :=
      (here.kept _ (long _ (Nat.lt_succ_self _))).trans entry
    have plain' : (middle.objects id).Plain :=
      ⟨(here.kind id).1.trans plain.1, (here.kind id).2.trans plain.2⟩
    have later := foldlM_effect each ns
      (here.wf wf fun m p below => below.trans (List.suffix_cons m p))
      (walkable.effect here fun q less => long q (Nat.lt_succ_of_lt less)) still plain' rest
    refine (here.trans later).congr fun p _ => ?_
    simp

/-- **What a run that completes has done**, by induction on its depth. -/
theorem removeTree_effect (refuses : Path → Bool) (base : Path) : ∀ (fuel : Nat) (rel : Path)
    (s after : FileSystem), s.Wf → Walkable s base rel → removeTree refuses base fuel rel s = some after →
    Effect s (fun p => (rel ++ base) <:+ p) after
  | 0, _, _, _, _, _, done => by cases done
  | fuel + 1, rel, s, after, wf, walkable, done => by
    rw [removeTree, walkable.locate] at done
    cases entry : s.entries (rel ++ base) with
    | none =>
      rw [entry] at done
      cases done
      exact (Effect.refl s).congr fun p present =>
        ⟨False.elim, fun below => absurd entry (wf.above below present)⟩
    | some id =>
      rw [entry] at done
      dsimp only at done
      by_cases isReparse : (s.objects id).reparse.isSome = true
      · rw [if_pos isReparse] at done
        refine effect_below wf entry (fun plain => ?_) (delete_effect entry done)
        rw [plain.2] at isReparse
        cases isReparse
      · have own : (s.objects id).reparse = none := by simpa using isReparse
        rw [if_neg isReparse] at done
        by_cases isContainer : (s.objects id).container = true
        · rw [if_pos isContainer] at done
          obtain ⟨middle, children, last⟩ := Option.bind_eq_some_iff.mp done
          have effect := foldlM_effect (fun n t u => removeTree_effect refuses base fuel (n :: rel) t u) _ wf
            walkable entry ⟨isContainer, own⟩ children
          have outside : ∀ q, q.length < (rel ++ base).length + 1 →
              ¬ ∃ n ∈ s.enumerate (rel ++ base), (n :: rel ++ base) <:+ q := by
            rintro q short ⟨n, -, below⟩
            have longer := below.length_le
            simp only [List.cons_append, List.length_cons] at longer
            omega
          have still : middle.entries (rel ++ base) = some id :=
            (effect.kept _ (outside _ (Nat.lt_succ_self _))).trans entry
          rw [(walkable.effect effect fun q less => outside q (Nat.lt_succ_of_lt less)).locate] at last
          refine (effect.trans (delete_effect still last)).congr fun p present => ⟨?_, fun below => ?_⟩
          · rintro (⟨n, -, below⟩ | rfl)
            · exact (List.suffix_cons n _).trans below
            · exact List.suffix_rfl
          · by_cases same : p = rel ++ base
            · exact .inr same
            · obtain ⟨n, inChild⟩ := child_of_below below same
              refine .inl ⟨n, wf.mem_enumerate (follow_of_plain entry own) ?_, inChild⟩
              exact wf.above inChild present
        · rw [if_neg isContainer] at done
          have file : (s.objects id).PlainFile := ⟨by simpa using isContainer, own⟩
          have same : (if (s.objects id).readOnly then s.setNormal id else s).locate base rel =
              rel ++ base := by
            split
            · rw [setNormal_locate, walkable.locate]
            · exact walkable.locate
          rw [same] at done
          refine effect_below wf entry (fun plain => isContainer plain.1) (deleteFile_effect entry file done)

/-! ## The frame -/

/-- The names that are reached from `c` without passing through a reparse point. -/
inductive Reachable (s : FileSystem) (c : Path) : Path → Prop
  | here (present : s.entries c ≠ none) : Reachable s c c
  | child {n : String} {p : Path} {id : Nat} (reached : Reachable s c p) (directory : s.entries p = some id)
      (plain : (s.objects id).Plain) (present : s.entries (n :: p) ≠ none) : Reachable s c (n :: p)

theorem reachable_iff {s : FileSystem} (wf : s.Wf) {c p : Path} :
    Reachable s c p ↔ c <:+ p ∧ s.entries p ≠ none := by
  constructor
  · intro reached
    induction reached with
    | here present => exact ⟨List.suffix_rfl, present⟩
    | child _ _ _ present ih => exact ⟨ih.1.trans (List.suffix_cons _ _), present⟩
  · rintro ⟨⟨rel, rfl⟩, present⟩
    induction rel with
    | nil => exact .here present
    | cons n rel ih =>
      obtain ⟨id, parent, plain⟩ := wf.parent n (rel ++ c) present
      exact .child (ih (parent ▸ Option.some_ne_none id)) parent plain present

/-- **The frame of a removal.** A run that completes has removed exactly the names reachable without a
reparse point; what the others name has its content and attributes exactly if no read-only file of the
tree has a name outside it. -/
theorem removeTree_frame_iff {refuses : Path → Bool} {base : Path} {name : String} {fuel : Nat}
    {s after : FileSystem} (wf : s.Wf) (resolved : s.follow base = base)
    (completed : removeTree refuses base fuel [name] s = some after) :
    (∀ p, Reachable s (name :: base) p → after.entries p = none) ∧
      (∀ p, ¬ Reachable s (name :: base) p → after.entries p = s.entries p) ∧
      ((∀ p id, after.entries p = some id → after.objects id = s.objects id) ↔
        ∀ p q id, Reachable s (name :: base) p → s.entries p = some id → s.entries q = some id →
          (s.objects id).PlainFile → (s.objects id).readOnly = true → Reachable s (name :: base) q) := by
  have effect : Effect s (Reachable s (name :: base)) after := by
    refine (removeTree_effect refuses base fuel [name] s after wf ⟨trivial, resolved⟩ completed).congr ?_
    intro p present
    rw [reachable_iff wf]
    exact ⟨fun below => ⟨below, present⟩, fun reached => reached.1⟩
  refine ⟨effect.removed, effect.kept, fun spared p q id reached first second file readOnly => ?_,
    fun inside p id present => effect.spared id ?_⟩
  · by_contra outside
    have same := spared q id ((effect.kept q outside).trans second)
    rw [effect.touched id ⟨p, reached, first, file, readOnly⟩] at same
    rw [← same] at readOnly
    cases readOnly
  · obtain ⟨notReached, before⟩ := effect.entries_of_some present
    rintro ⟨q, reached, first, file, readOnly⟩
    exact notReached (inside q p id reached first before file readOnly)

/-! ## Poles -/

def table : List (Path × Nat) :=
  [([], 0), (["tree"], 1), (["junction", "tree"], 2), (["file", "tree"], 3), (["outside"], 4),
    (["file", "outside"], 3)]

/-- A tree with a junction to a directory beside it and a file that also has a name there. -/
def linked (readOnly : Bool) : FileSystem where
  entries p := (table.find? (·.1 == p)).map (·.2)
  objects
    | 2 => ⟨true, some ["outside"], false, 0, []⟩
    | 3 => ⟨false, none, readOnly, 2, [7]⟩
    | _ => ⟨true, none, false, 0, []⟩
  names := table.map Prod.fst

theorem linked_wf (readOnly : Bool) : (linked readOnly).Wf := by
  have listed : ∀ p, (linked readOnly).entries p ≠ none → p ∈ (linked readOnly).names := by
    intro p present
    obtain ⟨id, there⟩ := Option.ne_none_iff_exists'.mp present
    obtain ⟨entry, found, rfl⟩ := Option.map_eq_some_iff.mp there
    have same : entry.1 = p := by simpa using List.find?_some found
    exact List.mem_map.mpr ⟨entry, List.mem_of_find?_eq_some found, same⟩
  have parents : ∀ q ∈ (linked readOnly).names, q ≠ [] →
      ((linked readOnly).entries q.tail).any (fun id =>
        ((linked readOnly).objects id).container &&
          ((linked readOnly).objects id).reparse.isNone) = true := by
    cases readOnly <;> decide
  refine ⟨fun n p present => ?_, listed⟩
  have plain := parents _ (listed _ present) (List.cons_ne_nil n p)
  rw [List.tail_cons] at plain
  cases parent : (linked readOnly).entries p with
  | none =>
    rw [parent] at plain
    cases plain
  | some id =>
    rw [parent, Option.any_some, Bool.and_eq_true, Option.isNone_iff_eq_none] at plain
    exact ⟨id, rfl, plain⟩

/-- The junction is removed and not entered; a file that is not read-only keeps its other name as it
was. -/
theorem removeTree_frame_linked : ∃ after, removeTree (fun _ => false) [] 3 ["tree"]
    (linked false) = some after ∧
    after.entries ["file", "outside"] = some 3 ∧ after.objects 3 = (linked false).objects 3 := by
  obtain ⟨after, completed⟩ : ∃ after, removeTree (fun _ => false) [] 3 ["tree"]
      (linked false) = some after :=
    Option.isSome_iff_exists.mp (by decide)
  obtain ⟨-, kept, spared⟩ := removeTree_frame_iff (linked_wf false) rfl completed
  have outside : ¬ Reachable (linked false) ["tree"] ["file", "outside"] := by
    rw [reachable_iff (linked_wf false)]
    exact fun reached => absurd reached.1 (by decide)
  have present : after.entries ["file", "outside"] = some 3 := kept _ outside
  refine ⟨after, completed, present, spared.mpr ?_ _ _ present⟩
  intro p q id _ first _ file readOnly
  exfalso
  revert readOnly
  unfold linked
  dsimp only
  split <;> simp

/-- The name inside is removed, and the file loses its attributes under the name outside. -/
theorem outside_attributes_lost :
    (removeTree (fun _ => false) [] 3 ["tree"] (linked true)).map
        (fun after => (after.entries ["file", "outside"], after.objects 3)) =
      some (some 3, ⟨false, none, false, 0, [7]⟩) ∧
    (linked true).objects 3 = ⟨false, none, true, 2, [7]⟩ := by
  decide

end ProgramSplit.Windows.TreeRemoval
