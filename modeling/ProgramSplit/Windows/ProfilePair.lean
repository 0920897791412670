/-
# Windows.ProfilePair — replacing the profile and its settings together

`Install-ProgramSplitProfilePair` and `Restore-ProgramSplitProfilePair` of `Common.ps1`, as
`Import-Profile` of `TrayActions.ps1` calls them. Each file has a backup beside it. Copies and moves
may fail and leave anything of their destination; deletions may fail silently; the next run sees only
which files exist.

* `install_spec` — an installation leaves the old pair, the new pair or both backups;
* `restore_iff` — a restoration keeps that, and spoils no complete file, exactly if no torn backup and
  no copy that fails halfway goes over a complete file;
* `install_remains` — what an installation leaves for the restoration to copy, by its faults;
* `imports_keep_pair_iff` — so the pair is never torn, in any sequence of imports, exactly if the faults of
  each import are harmless.
-/
import Mathlib.Tactic.SplitIfs
import ProgramSplit.Lib.Sequence

namespace ProgramSplit.Windows.ProfilePair

open Lib (Each each_iff)

set_option autoImplicit false

inductive Data (V : Type)
  | whole (v : V)
  | torn
  deriving DecidableEq

/-- What a failed write leaves of its destination. -/
inductive Left
  | untouched
  | missing
  | torn
  | written
  deriving DecidableEq

inductive Outcome
  | done
  | failed (left : Left)
  deriving DecidableEq

/-- An active file and its `.previous`. -/
structure Slot (V : Type) where
  active : Option (Data V)
  backup : Option (Data V)
  deriving DecidableEq

structure Pair (V : Type) where
  profile : Slot V
  settings : Slot V
  deriving DecidableEq

section Model

variable {V : Type}

/-- `Copy-Item` and `Move-Item` with `-Force`: the destination, and whether it went through. -/
def put (outcome : Outcome) (source destination : Option (Data V)) : Option (Data V) × Bool :=
  match source, outcome with
  | none, _ => (destination, false)
  | some data, .done => (some data, true)
  | some _, .failed .untouched => (destination, false)
  | some _, .failed .missing => (none, false)
  | some _, .failed .torn => (some .torn, false)
  | some data, .failed .written => (some data, false)

/-! ## The source's functions -/

/-- Which deletions of a `Remove-Item` with silent errors fail. -/
structure Kept where
  profile : Bool
  settings : Bool

def Slot.discard (kept : Bool) (slot : Slot V) : Slot V :=
  { slot with backup := if kept then slot.backup else none }

def discardBackups (kept : Kept) (w : Pair V) : Pair V :=
  ⟨w.profile.discard kept.profile, w.settings.discard kept.settings⟩

structure InstallFaults where
  backUpProfile : Outcome
  backUpSettings : Outcome
  moveProfile : Outcome
  moveSettings : Outcome
  undoProfile : Outcome
  undoSettings : Outcome
  kept : Kept

/-- The rollback of an installation: both backups are copied back, and go if that worked. -/
def rollBack (c : InstallFaults) (w : Pair V) : Pair V :=
  let profile := put c.undoProfile w.profile.backup w.profile.active
  let settings := put c.undoSettings w.settings.backup w.settings.active
  let after : Pair V :=
    ⟨{ w.profile with active := profile.1 }, { w.settings with active := settings.1 }⟩
  if profile.2 && settings.2 then discardBackups c.kept after else after

/-- The two moves of an installation, from complete backups on. -/
def replacePair (c : InstallFaults) (new : V × V) (w : Pair V) : Pair V × Bool :=
  let profile := put c.moveProfile (some (.whole new.1)) w.profile.active
  let w : Pair V := { w with profile := { w.profile with active := profile.1 } }
  if profile.2 = false then (rollBack c w, false)
  else
    let settings := put c.moveSettings (some (.whole new.2)) w.settings.active
    let w : Pair V := { w with settings := { w.settings with active := settings.1 } }
    if settings.2 = false then (rollBack c w, false) else (w, true)

def hasBackup (w : Pair V) : Bool := w.profile.backup.isSome || w.settings.backup.isSome

/-- `Install-ProgramSplitProfilePair`, with the prepared pair `new`: whether it returned. -/
def install (c : InstallFaults) (new : V × V) (w : Pair V) : Pair V × Bool :=
  if hasBackup w then (w, false)
  else
    let profile := put c.backUpProfile w.profile.active w.profile.backup
    let w : Pair V := { w with profile := { w.profile with backup := profile.1 } }
    if profile.2 = false then (discardBackups c.kept w, false)
    else
      let settings := put c.backUpSettings w.settings.active w.settings.backup
      let w : Pair V := { w with settings := { w.settings with backup := settings.1 } }
      if settings.2 = false then (discardBackups c.kept w, false) else replacePair c new w

structure RestoreFaults where
  /-- The stopped marker was seen in time. -/
  stopped : Bool
  copyProfile : Outcome
  copySettings : Outcome
  kept : Kept

/-- A backup is copied over its active file, if there is one. -/
def Slot.restore (outcome : Outcome) (slot : Slot V) : Slot V × Bool :=
  match slot.backup with
  | none => (slot, true)
  | some data =>
    let copied := put outcome (some data) slot.active
    ({ slot with active := copied.1 }, copied.2)

/-- `Restore-ProgramSplitProfilePair` -/
def restore (c : RestoreFaults) (w : Pair V) : Pair V :=
  if hasBackup w && c.stopped then
    let profile := w.profile.restore c.copyProfile
    if profile.2 = false then { w with profile := profile.1 }
    else
      let settings := w.settings.restore c.copySettings
      if settings.2 = false then ⟨profile.1, settings.1⟩ else discardBackups c.kept ⟨profile.1, settings.1⟩
  else w

/-- What happens to an import: whether it comes to the installation, and what follows that. -/
structure Import (V : Type) where
  new : V × V
  prepared : Bool
  install : InstallFaults
  /-- A step after the installation fails. -/
  failsLater : Bool
  /-- The failure handler cleared the marker and calls the restoration. -/
  handled : Bool
  restore : RestoreFaults
  /-- Deletions that fail once the new pair is confirmed; the first that fails ends the `Remove-Item`. -/
  kept : Kept

def Import.installed (i : Import V) (w : Pair V) : Pair V × Bool := ProfilePair.install i.install i.new w

/-- The import reaches `Install-ProgramSplitProfilePair`. -/
def Import.Reaches (i : Import V) (w : Pair V) : Prop := i.prepared = true ∧ hasBackup w = false

/-- The failure handler reaches `Restore-ProgramSplitProfilePair`. -/
def Import.Restores (i : Import V) (w : Pair V) : Prop :=
  ((i.installed w).2 = false ∨ i.failsLater = true) ∧ i.handled = true

instance (i : Import V) (w : Pair V) : Decidable (i.Reaches w) := inferInstanceAs (Decidable (_ ∧ _))

instance (i : Import V) (w : Pair V) : Decidable (i.Restores w) := inferInstanceAs (Decidable (_ ∧ _))

/-- The pair after `Import-Profile`. -/
def importProfile (w : Pair V) (i : Import V) : Pair V :=
  if i.Reaches w then
    if i.Restores w then ProfilePair.restore i.restore (i.installed w).1
    else if (i.installed w).2 = true ∧ i.failsLater = false then
      discardBackups { i.kept with settings := i.kept.profile || i.kept.settings } (i.installed w).1
    else (i.installed w).1
  else w

/-! ## What is to hold -/

def Active (pair : V × V) (w : Pair V) : Prop :=
  w.profile.active = some (.whole pair.1) ∧ w.settings.active = some (.whole pair.2)

def BackedUp (pair : V × V) (w : Pair V) : Prop :=
  w.profile.backup = some (.whole pair.1) ∧ w.settings.backup = some (.whole pair.2)

/-- The pair is not torn: all old, all new, or both backups. -/
def Intact (old new : V × V) (w : Pair V) : Prop := Active old w ∨ Active new w ∨ BackedUp old w

def Complete (data : Option (Data V)) : Prop := ∃ v, data = some (.whole v)

/-- No complete active file was replaced by an incomplete one. -/
def Spares (w after : Pair V) : Prop :=
  (Complete w.profile.active → Complete after.profile.active) ∧
    (Complete w.settings.active → Complete after.settings.active)

def Data.isWhole : Data V → Bool
  | .whole _ => true
  | .torn => false

/-- A copy spoils a complete file it goes over: it fails halfway, or what it writes is torn. -/
def Outcome.Spoils (whole : Bool) : Outcome → Prop
  | .failed .untouched => False
  | .done | .failed .written => whole = false
  | .failed .missing | .failed .torn => True

/-- What a restoration meets: which backups are there and whole, and which active files are complete. -/
structure Remains where
  profile : Option Bool
  settings : Option Bool
  completeProfile : Prop
  completeSettings : Prop

/-- The copies of a restoration spoil no complete file. The settings are not copied once the copy of the
profile has failed. -/
def RestoreFaults.Mild (c : RestoreFaults) (r : Remains) : Prop :=
  (r.completeProfile → ∀ whole, r.profile = some whole → ¬c.copyProfile.Spoils whole) ∧
    (r.profile = none ∨ c.copyProfile = .done → r.completeSettings →
      ∀ whole, r.settings = some whole → ¬c.copySettings.Spoils whole)

def Pair.remains (w : Pair V) : Remains :=
  ⟨w.profile.backup.map Data.isWhole, w.settings.backup.map Data.isWhole, Complete w.profile.active,
    Complete w.settings.active⟩

/-- The copies a restoration makes over complete files spoil none. -/
def Careful (c : RestoreFaults) (w : Pair V) : Prop := c.stopped = true → c.Mild w.remains

/-- Whenever an installation or a restoration of the import has ended, the pair is not torn, and the
restoration spares complete files. -/
def Sound (w : Pair V) (i : Import V) : Prop :=
  i.Reaches w → ∃ old, Active old w ∧ Intact old i.new (i.installed w).1 ∧
    (i.Restores w → Intact old i.new (ProfilePair.restore i.restore (i.installed w).1) ∧
      Spares (i.installed w).1 (ProfilePair.restore i.restore (i.installed w).1))

/-! ## Faults -/

/-- What a backup copy leaves where nothing was: nothing, a whole file or a torn one. -/
def Outcome.leaves : Outcome → Option Bool
  | .done | .failed .written => some true
  | .failed .torn => some false
  | .failed .untouched | .failed .missing => none

/-- What is left of a backup once its deletion went through or failed silently. -/
def left (kept : Bool) (backup : Option Bool) : Option Bool := if kept then backup else none

/-- A complete file is complete again, or still, after a move onto it and the copy of its backup. -/
def Undone (move undo : Outcome) : Prop :=
  undo = .done ∨ undo = .failed .written ∨ undo = .failed .untouched ∧ ¬move.Spoils true

/-- What a rollback leaves to a restoration, after moves with these outcomes. -/
def InstallFaults.rolledBack (c : InstallFaults) (profile settings : Outcome) : Remains :=
  if c.undoProfile = .done ∧ c.undoSettings = .done then
    ⟨left c.kept.profile (some true), left c.kept.settings (some true), True, True⟩
  else ⟨some true, some true, Undone profile c.undoProfile, Undone settings c.undoSettings⟩

/-- What the moves leave; without the profile's there is none of the settings. -/
def InstallFaults.moved (c : InstallFaults) : Remains :=
  if c.moveProfile ≠ .done then c.rolledBack c.moveProfile (.failed .untouched)
  else if c.moveSettings ≠ .done then c.rolledBack .done c.moveSettings
  else ⟨some true, some true, True, True⟩

/-- What an installation with these faults leaves to a restoration. -/
def InstallFaults.remains (c : InstallFaults) : Remains :=
  -- a backup copy failed, and its deletion may have failed as well
  if c.backUpProfile ≠ .done then ⟨left c.kept.profile c.backUpProfile.leaves, none, True, True⟩
  else if c.backUpSettings ≠ .done then
    ⟨left c.kept.profile (some true), left c.kept.settings c.backUpSettings.leaves, True, True⟩
  else c.moved

def InstallFaults.Succeeds (c : InstallFaults) : Prop :=
  c.backUpProfile = .done ∧ c.backUpSettings = .done ∧ c.moveProfile = .done ∧ c.moveSettings = .done

/-- The faults of an import are harmless: if something failed and the failure handler gets to the restoration,
no copy of that spoils a complete file. -/
def Import.Harmless (i : Import V) : Prop :=
  (i.install.Succeeds → i.failsLater = true) → i.handled = true → i.restore.stopped = true →
    i.restore.Mild i.install.remains

/-! ## Single copies -/

variable {old new : V × V} {w : Pair V}

theorem put_ok {outcome : Outcome} {source destination : Option (Data V)}
    (through : (put outcome source destination).2 = true) : (put outcome source destination).1 = source := by
  cases source with
  | none => cases through
  | some data =>
    cases outcome with
    | done => rfl
    | failed left => cases left <;> cases through

theorem complete_put_iff {outcome : Outcome} {backup : Data V} {active : Option (Data V)}
    (complete : Complete active) :
    Complete (put outcome (some backup) active).1 ↔ ¬outcome.Spoils backup.isWhole := by
  have whole : Complete (some backup) ↔ ¬backup.isWhole = false := by
    cases backup <;> simp [Complete, Data.isWhole]
  cases outcome with
  | done => exact whole
  | failed left =>
    cases left with
    | untouched => exact iff_of_true complete not_false
    | missing => simp [put, Complete, Outcome.Spoils]
    | torn => simp [put, Complete, Outcome.Spoils]
    | written => exact whole

section Slots

variable {outcome : Outcome} {slot : Slot V}

theorem restore_backup : (slot.restore outcome).1.backup = slot.backup := by
  unfold Slot.restore
  cases backup : slot.backup with
  | none => exact backup
  | some data => rfl

theorem restore_ok_iff : (slot.restore outcome).2 = true ↔ slot.backup = none ∨ outcome = .done := by
  unfold Slot.restore
  cases slot.backup with
  | none => simp
  | some data =>
    cases outcome with
    | done => simp [put]
    | failed left => cases left <;> simp [put]

theorem restore_done {data : Data V} (backup : slot.backup = some data)
    (through : (slot.restore outcome).2 = true) : (slot.restore outcome).1.active = some data := by
  unfold Slot.restore at through ⊢
  rw [backup] at through ⊢
  exact put_ok through

theorem complete_restore_iff (complete : Complete slot.active) :
    Complete (slot.restore outcome).1.active ↔
      ∀ whole, slot.backup.map Data.isWhole = some whole → ¬outcome.Spoils whole := by
  unfold Slot.restore
  cases slot.backup with
  | none => simpa using complete
  | some data =>
    rw [complete_put_iff complete]
    constructor
    · rintro spared whole ⟨⟩
      exact spared
    · exact fun spared => spared _ rfl

/-- Restoring a backup of the same version changes nothing, unless it spoils the file. -/
theorem restore_same {v : V} (active : slot.active = some (.whole v))
    (owned : ∀ u, slot.backup = some (.whole u) → u = v)
    (spared : ∀ whole, slot.backup.map Data.isWhole = some whole → ¬outcome.Spoils whole) :
    (slot.restore outcome).1.active = some (.whole v) := by
  obtain ⟨u, same⟩ := (complete_restore_iff ⟨v, active⟩).mpr spared
  have either : (slot.restore outcome).1.active = slot.active ∨ (slot.restore outcome).1.active =
      slot.backup := by
    unfold Slot.restore
    cases backup : slot.backup with
    | none => exact .inl rfl
    | some data =>
      have spared := spared data.isWhole (by rw [backup]; rfl)
      cases outcome with
      | done => exact .inr rfl
      | failed left =>
        cases left with
        | untouched => exact .inl rfl
        | written => exact .inr rfl
        | missing => exact absurd trivial spared
        | torn => exact absurd trivial spared
  rcases either with kept | copied
  · rw [kept, active]
  · rw [same, owned u (copied.symm.trans same)]

end Slots

/-! ## Installation -/

/-- The installed pair, without backups. -/
def start (pair : V × V) : Pair V := ⟨⟨some (.whole pair.1), none⟩, ⟨some (.whole pair.2), none⟩⟩

theorem eq_start (free : hasBackup w = false) (active : Active old w) : w = start old := by
  obtain ⟨⟨profile, backup⟩, ⟨settings, backup'⟩⟩ := w
  have none_ : backup = none ∧ backup' = none := by simpa [hasBackup] using free
  obtain ⟨rfl, rfl⟩ := none_
  obtain ⟨rfl, rfl⟩ : profile = some (.whole old.1) ∧ settings = some (.whole old.2) := active
  rfl

/-- A complete backup is of version `v`. -/
def Slot.Owned (v : V) (slot : Slot V) : Prop := ∀ u, slot.backup = some (.whole u) → u = v

def Owned (old : V × V) (w : Pair V) : Prop := w.profile.Owned old.1 ∧ w.settings.Owned old.2

theorem owned_of_backup {slot : Slot V} {v : V} (backup : slot.backup = some (.whole v)) : slot.Owned v := by
  intro u same
  rw [backup] at same
  cases same
  rfl

theorem Slot.Owned.discard {slot : Slot V} {v : V} (owned : slot.Owned v) (kept : Bool) :
    (slot.discard kept).Owned v := by
  intro u same
  cases kept with
  | false => cases same
  | true => exact owned u same

theorem Owned.discard (owned : Owned old w) (kept : Kept) : Owned old (discardBackups kept w) :=
  ⟨Slot.Owned.discard owned.1 _, Slot.Owned.discard owned.2 _⟩

theorem BackedUp.owned (backed : BackedUp old w) : Owned old w :=
  ⟨owned_of_backup backed.1, owned_of_backup backed.2⟩

theorem rollBack_spec (c : InstallFaults) (backed : BackedUp old w) :
    Owned old (rollBack c w) ∧ (Active old (rollBack c w) ∨ BackedUp old (rollBack c w)) := by
  have owned := backed.owned
  dsimp only [rollBack]
  split_ifs with both
  · obtain ⟨first, second⟩ := Bool.and_eq_true_iff.mp both
    refine ⟨owned.discard c.kept, .inl ⟨?_, ?_⟩⟩
    · exact (put_ok first).trans backed.1
    · exact (put_ok second).trans backed.2
  · exact ⟨owned, .inr backed⟩

/-- What an installation leaves. -/
def Installed (old new : V × V) (after : Pair V × Bool) : Prop :=
  Owned old after.1 ∧
    (after.2 = true ∧ Active new after.1 ∧ BackedUp old after.1 ∨
      after.2 = false ∧ (Active old after.1 ∨ BackedUp old after.1))

theorem installed_of_rollBack (c : InstallFaults) (new : V × V) (backed : BackedUp old w) :
    Installed old new (rollBack c w, false) :=
  ⟨(rollBack_spec c backed).1, .inr ⟨rfl, (rollBack_spec c backed).2⟩⟩

theorem replacePair_spec (c : InstallFaults) (new : V × V) (backed : BackedUp old w) :
    Installed old new (replacePair c new w) := by
  dsimp only [replacePair]
  split_ifs with first second
  · exact installed_of_rollBack c new ⟨backed.1, backed.2⟩
  · exact installed_of_rollBack c new ⟨backed.1, backed.2⟩
  · refine ⟨backed.owned, .inl ⟨rfl, ⟨?_, ?_⟩, backed⟩⟩
    · exact put_ok (eq_true_of_ne_false first)
    · exact put_ok (eq_true_of_ne_false second)

/-- A copy of a complete file is that file, or incomplete. -/
theorem put_owned {outcome : Outcome} {v u : V}
    (copied : (put outcome (some (.whole v)) none).1 = some (.whole u)) : u = v := by
  cases outcome with
  | done =>
    cases copied
    rfl
  | failed left =>
    cases left with
    | written =>
      cases copied
      rfl
    | untouched | missing | torn => cases copied

/-- **Installation.** From the old pair without backups it leaves the old pair, the new one or both
backups, and no complete backup of anything else. -/
theorem install_spec (c : InstallFaults) (new : V × V) (free : hasBackup w = false) (active : Active old w) :
    Installed old new (install c new w) := by
  rw [eq_start free active]
  dsimp only [install, start]
  rw [if_neg (by simp [hasBackup])]
  split_ifs with first second
  · exact ⟨Owned.discard ⟨fun v same => put_owned same, by rintro v ⟨⟩⟩ c.kept,
      .inr ⟨rfl, .inl ⟨rfl, rfl⟩⟩⟩
  · exact ⟨Owned.discard ⟨fun v same => put_owned same, fun v same => put_owned same⟩ c.kept,
      .inr ⟨rfl, .inl ⟨rfl, rfl⟩⟩⟩
  · refine replacePair_spec c new ⟨?_, ?_⟩
    · exact put_ok (eq_true_of_ne_false first)
    · exact put_ok (eq_true_of_ne_false second)

/-! ## Restoration -/

section Restoration

variable {c : RestoreFaults}

/-- The active files after a restoration that copies. -/
theorem restore_active (begun : (hasBackup w && c.stopped) = true) :
    (restore c w).profile.active = (w.profile.restore c.copyProfile).1.active ∧
      (restore c w).settings.active =
        if (w.profile.restore c.copyProfile).2 = false then w.settings.active
        else (w.settings.restore c.copySettings).1.active := by
  dsimp only [restore]
  rw [if_pos begun]
  split_ifs <;> exact ⟨rfl, rfl⟩

/-- A restoration that is stopped keeps the backups, one that is not has copied both. -/
theorem restore_backedUp (begun : (hasBackup w && c.stopped) = true) (backed : BackedUp old w) :
    BackedUp old (restore c w) ∨ Active old (restore c w) := by
  dsimp only [restore]
  rw [if_pos begun]
  split_ifs with first second
  · exact .inl ⟨restore_backup.trans backed.1, backed.2⟩
  · exact .inl ⟨restore_backup.trans backed.1, restore_backup.trans backed.2⟩
  · refine .inr ⟨?_, ?_⟩
    · exact restore_done backed.1 (eq_true_of_ne_false first)
    · exact restore_done backed.2 (eq_true_of_ne_false second)

theorem restore_idle (idle : (hasBackup w && c.stopped) = false) : restore c w = w := by
  simp only [restore, idle, Bool.false_eq_true, if_false]

theorem careful_of_idle (idle : (hasBackup w && c.stopped) = false) : Careful c w := by
  intro stopped
  have none_ : w.profile.backup = none ∧ w.settings.backup = none := by
    simpa [hasBackup, stopped] using idle
  refine ⟨fun _ whole present => ?_, fun _ _ whole present => ?_⟩
  · rw [Pair.remains, none_.1] at present
    cases present
  · rw [Pair.remains, none_.2] at present
    cases present

/-- The settings are copied unless the copy of the profile failed. -/
theorem reached_iff : (w.profile.restore c.copyProfile).2 ≠ false ↔
    w.profile.backup.map Data.isWhole = none ∨ c.copyProfile = .done := by
  rw [ne_eq, Bool.not_eq_false, restore_ok_iff, Option.map_eq_none_iff]

theorem spares_iff (begun : (hasBackup w && c.stopped) = true) : Spares w (restore c w) ↔ Careful c w := by
  obtain ⟨profile, settings⟩ := restore_active begun
  have stopped : c.stopped = true := (Bool.and_eq_true_iff.mp begun).2
  unfold Spares Careful
  rw [profile, settings]
  constructor
  · rintro ⟨first, second⟩ _
    refine ⟨fun complete => (complete_restore_iff complete).mp (first complete), fun reached complete => ?_⟩
    have after := second complete
    rw [if_neg (reached_iff.mpr reached)] at after
    exact (complete_restore_iff complete).mp after
  · intro careful
    obtain ⟨first, second⟩ := careful stopped
    refine ⟨fun complete => (complete_restore_iff complete).mpr (first complete), fun complete => ?_⟩
    split_ifs with failed
    · exact complete
    · exact (complete_restore_iff complete).mpr (second (reached_iff.mp failed) complete)

theorem restore_old (begun : (hasBackup w && c.stopped) = true) (owned : Owned old w) (active : Active old w)
    (careful : Careful c w) : Active old (restore c w) := by
  obtain ⟨first, second⟩ := careful (Bool.and_eq_true_iff.mp begun).2
  obtain ⟨profile, settings⟩ := restore_active begun
  refine ⟨?_, ?_⟩
  · rw [profile]
    exact restore_same active.1 owned.1 (first ⟨_, active.1⟩)
  · rw [settings]
    split_ifs with failed
    · exact active.2
    · exact restore_same active.2 owned.2 (second (reached_iff.mp failed) ⟨_, active.2⟩)

/-- **Restoration.** From the old pair or both backups it keeps the pair and spares every complete file
exactly if its copies over complete files are clean. -/
theorem restore_iff (new : V × V) (owned : Owned old w) (ready : Active old w ∨ BackedUp old w) :
    (Intact old new (restore c w) ∧ Spares w (restore c w)) ↔ Careful c w := by
  cases begun : hasBackup w && c.stopped with
  | false =>
    rw [restore_idle begun]
    refine ⟨fun _ => careful_of_idle begun, fun _ => ⟨?_, id, id⟩⟩
    exact ready.imp_right .inr
  | true =>
    rw [spares_iff begun]
    refine ⟨fun both => both.2, fun careful => ⟨?_, careful⟩⟩
    rcases ready with active | backed
    · exact .inl (restore_old begun owned active careful)
    · rcases restore_backedUp begun backed with still | active
      · exact .inr (.inr still)
      · exact .inl active

end Restoration

/-! ## What an installation leaves -/

theorem put_done (data : Data V) (destination : Option (Data V)) :
    put .done (some data) destination = (some data, true) := rfl

theorem put_through {outcome : Outcome} {data : Data V} {destination : Option (Data V)} :
    (put outcome (some data) destination).2 = true ↔ outcome = .done := by
  cases outcome with
  | done => simp [put]
  | failed left => cases left <;> simp [put]

theorem put_leaves (outcome : Outcome) (v : V) :
    (put outcome (some (.whole v)) none).1.map Data.isWhole = outcome.leaves := by
  cases outcome with
  | done => rfl
  | failed left => cases left <;> rfl

/-- What an undo leaves of a file that a move went over. -/
theorem undone_iff {move undo : Outcome} {u v : V} :
    Complete (put undo (some (.whole v)) (put move (some (.whole u)) (some (.whole v))).1).1 ↔
      Undone move undo := by
  have moved : Complete (put move (some (.whole u)) (some (.whole v))).1 ↔ ¬move.Spoils true :=
    complete_put_iff ⟨v, rfl⟩
  cases undo with
  | done => simp [put, Complete, Undone]
  | failed left =>
    cases left with
    | untouched => simpa [put, Undone] using moved
    | missing => simp [put, Complete, Undone]
    | torn => simp [put, Complete, Undone]
    | written => simp [put, Complete, Undone]

theorem remains_discard (kept : Kept) (w : Pair V) :
    (discardBackups kept w).remains =
      { w.remains with profile := left kept.profile w.remains.profile, settings := left kept.settings w.remains.settings } := by
  obtain ⟨first, second⟩ := kept
  cases first <;> cases second <;> rfl

theorem complete_whole (v : V) : Complete (some (Data.whole v)) = True := eq_true ⟨v, rfl⟩

theorem put_failed_iff {outcome : Outcome} {data : Data V} {destination : Option (Data V)} :
    (put outcome (some data) destination).2 = false ↔ outcome ≠ .done := by
  rw [← Bool.not_eq_true, put_through]

/-- The rollback, behind both backups and the moves. -/
theorem rollBack_remains (c : InstallFaults) (move move' : Outcome) (old new : V × V) :
    (rollBack c ⟨⟨(put move (some (.whole new.1)) (some (.whole old.1))).1, some (.whole old.1)⟩,
      ⟨(put move' (some (.whole new.2)) (some (.whole old.2))).1, some (.whole old.2)⟩⟩).remains =
    c.rolledBack move move' := by
  simp only [rollBack, InstallFaults.rolledBack, Bool.and_eq_true, put_through]
  split_ifs with undone
  · rw [undone.1, undone.2, remains_discard]
    simp only [Pair.remains, put_done, complete_whole]
    rfl
  · simp only [Pair.remains, undone_iff]
    rfl

/-- The moves, behind both backups. -/
theorem replacePair_remains (c : InstallFaults) (old new : V × V) :
    let after := replacePair c new
      ⟨⟨some (.whole old.1), some (.whole old.1)⟩, ⟨some (.whole old.2), some (.whole old.2)⟩⟩
    (after.2 = true ↔ c.moveProfile = .done ∧ c.moveSettings = .done) ∧ after.1.remains = c.moved := by
  simp only [replacePair, InstallFaults.moved, put_failed_iff]
  split_ifs with profile settings
  · exact ⟨by simp [profile], rollBack_remains c c.moveProfile (.failed .untouched) old new⟩
  · rw [not_not.mp profile]
    exact ⟨by simp [settings], rollBack_remains c .done c.moveSettings old new⟩
  · rw [not_not.mp profile, not_not.mp settings]
    simp only [Pair.remains, put_done, complete_whole]
    exact ⟨by simp, rfl⟩

/-- **What an installation leaves**, by its faults: whether it returned, and what a restoration would find. -/
theorem install_remains (c : InstallFaults) (new : V × V) (free : hasBackup w = false) (active : Active old w) :
    ((install c new w).2 = true ↔ c.Succeeds) ∧ (install c new w).1.remains = c.remains := by
  rw [eq_start free active]
  dsimp only [install, start]
  rw [if_neg (by simp [hasBackup])]
  simp only [InstallFaults.Succeeds, InstallFaults.remains, put_failed_iff]
  split_ifs with profile settings
  · refine ⟨by simp [profile], ?_⟩
    rw [remains_discard]
    simp [Pair.remains, put_leaves, complete_whole, left]
  · refine ⟨by simp [settings], ?_⟩
    rw [not_not.mp profile, remains_discard]
    simp [Pair.remains, put_leaves, put_done, complete_whole, Data.isWhole]
  · rw [not_not.mp profile, not_not.mp settings]
    simpa [put_done] using replacePair_remains c old new

/-- What the failure handler's restoration finds depends on the faults of the installation. -/
theorem careful_iff_harmless {i : Import V} (free : hasBackup w = false) (active : Active old w) :
    (i.Restores w → Careful i.restore (i.installed w).1) ↔ i.Harmless := by
  obtain ⟨returned, left⟩ := install_remains i.install i.new free active
  have failed : (i.installed w).2 = false ∨ i.failsLater = true ↔
      (i.install.Succeeds → i.failsLater = true) := by
    rw [← returned, ← Bool.not_eq_true, Import.installed, imp_iff_not_or]
  unfold Import.Restores Import.Harmless Careful
  rw [failed, Import.installed, left, and_imp]

/-! ## Imports -/

/-- Without backups both active files are complete. -/
def Settled (w : Pair V) : Prop := hasBackup w = false → ∃ pair, Active pair w

theorem BackedUp.hasBackup (backed : BackedUp old w) : ProfilePair.hasBackup w = true := by
  simp [ProfilePair.hasBackup, backed.1]

theorem Intact.settled (intact : Intact old new w) : Settled w := by
  intro free
  rcases intact with active | active | backed
  · exact ⟨old, active⟩
  · exact ⟨new, active⟩
  · rw [backed.hasBackup] at free
    cases free

theorem Installed.intact {after : Pair V × Bool} (installed : Installed old new after) :
    Intact old new after.1 := by
  rcases installed.2 with ⟨-, active, -⟩ | ⟨-, active | backed⟩
  · exact .inr (.inl active)
  · exact .inl active
  · exact .inr (.inr backed)

theorem Installed.ready {after : Pair V × Bool} (installed : Installed old new after) :
    Active old after.1 ∨ BackedUp old after.1 := by
  rcases installed.2 with ⟨-, -, backed⟩ | ⟨-, ready⟩
  · exact .inr backed
  · exact ready

/-- **One import.** -/
theorem sound_iff_harmless {i : Import V} (settled : Settled w) : Sound w i ↔ (i.Reaches w → i.Harmless) := by
  by_cases reaches : i.Reaches w
  · obtain ⟨old, active⟩ := settled reaches.2
    have installed : Installed old i.new (i.installed w) := install_spec i.install i.new reaches.2 active
    rw [← careful_iff_harmless reaches.2 active]
    constructor
    · intro sound _ restores
      obtain ⟨old', active', -, both⟩ := sound reaches
      have same : old' = old := by
        have first := active.1.symm.trans active'.1
        have second := active.2.symm.trans active'.2
        simp only [Option.some.injEq, Data.whole.injEq] at first second
        exact (Prod.ext first second).symm
      subst same
      exact (restore_iff i.new installed.1 installed.ready).mp (both restores)
    · intro guarded _
      refine ⟨old, active, installed.intact, fun restores => ?_⟩
      exact (restore_iff i.new installed.1 installed.ready).mpr (guarded reaches restores)
  · exact ⟨fun _ inside => absurd inside reaches, fun _ inside => absurd inside reaches⟩

theorem importProfile_settled {i : Import V} (settled : Settled w) (sound : Sound w i) :
    Settled (importProfile w i) := by
  unfold importProfile
  by_cases reaches : i.Reaches w
  · obtain ⟨old, active, intact, both⟩ := sound reaches
    have installed : Installed old i.new (i.installed w) := install_spec i.install i.new reaches.2 active
    split_ifs with restores confirmed
    · exact (both restores).1.settled
    · rcases installed.2 with ⟨-, current, -⟩ | ⟨threw, -⟩
      · exact fun _ => ⟨i.new, current⟩
      · rw [confirmed.1] at threw
        cases threw
    · exact intact.settled
  · rw [if_neg reaches]
    exact settled

/-- **The pair is never torn**, in any sequence of imports, exactly if the faults of each import that comes
to the installation are harmless. -/
theorem imports_keep_pair_iff (pair : V × V) (imports : List (Import V)) :
    Each importProfile Sound (start pair) imports ↔
      Each importProfile (fun w i => i.Reaches w → i.Harmless) (start pair) imports := by
  refine each_iff Settled (fun w i settled sound => ?_) (fun w i settled => ?_) imports ?_
  · exact importProfile_settled settled sound
  · exact sound_iff_harmless settled
  · exact fun _ => ⟨pair, rfl, rfl⟩

end Model

/-! ## Poles -/

/-- The backup of the profile is written halfway and cannot be deleted; the failure handler then
restores it. -/
def tornBackup : Import Nat where
  new := (2, 2)
  prepared := true
  install :=
    { backUpProfile := .failed .torn, backUpSettings := .done, moveProfile := .done, moveSettings := .done,
      undoProfile := .done, undoSettings := .done, kept := ⟨true, false⟩ }
  failsLater := false
  handled := true
  restore := { stopped := true, copyProfile := .done, copySettings := .done, kept := ⟨false, false⟩ }
  kept := ⟨false, false⟩

/-- The old profile was complete; after the restoration, which returns, it is torn and no backup is
left. -/
theorem torn_backup_restored :
    importProfile (start (1, 1)) tornBackup = ⟨⟨some .torn, none⟩, ⟨some (.whole 1), none⟩⟩ ∧
      ¬ Sound (start (1, 1)) tornBackup := by
  refine ⟨by decide, fun sound => ?_⟩
  obtain ⟨old, -, -, both⟩ := sound ⟨rfl, rfl⟩
  obtain ⟨v, complete⟩ := (both ⟨.inl rfl, rfl⟩).2.1 ⟨1, rfl⟩
  cases complete

end ProgramSplit.Windows.ProfilePair
