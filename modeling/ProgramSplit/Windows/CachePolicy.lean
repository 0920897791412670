/-
# Windows.CachePolicy — capping the DNS cache and giving the settings back

`Invoke-DnsCachePolicy.ps1` caps two values of the DNS client while the stack runs and restores them
from a record of what they were.  The record is written by the first Enable and kept for good: a
later Enable takes it as the original again, and a controller that starts compares the values with
it to see whether a restoration is still pending.

* `enable`, `disable` — the two actions, steps that may fail or be the last one of the process.
* `disabledPass`, `serviceStop`, `controllerStart`, `startStack` — where the controller runs them.
* `settings_given_back` — while nobody changes the values behind the record's back, a Disable that
  completes restores exactly what the Enable found, and no pass of a stopped stack changes a value.
* `changed_setting_lost` — an administrator's change between two Enables is lost, and so is one made
  while the stack is stopped when the controller restarts.

The components of `Stop-Stack` and `Start-Stack` that touch neither the values nor the record are
left out, as is the text of the record: it is replaced in one move.
-/
import ProgramSplit.Lib.Crash
import ProgramSplit.Lib.Run
import Mathlib.Logic.Function.Basic
import Mathlib.Data.Fintype.Pi

namespace ProgramSplit.Windows.CachePolicy

set_option autoImplicit false

open Lib

/-! ## The values and their record -/

inductive Setting
  | maxCacheTtl
  | maxNegativeCacheTtl
  deriving DecidableEq, Repr

def names : List Setting := [.maxCacheTtl, .maxNegativeCacheTtl]

theorem mem_names (name : Setting) : name ∈ names := by
  cases name <;> decide

instance : Fintype Setting := ⟨⟨names, by decide⟩, mem_names⟩

/-- A registry value: a DWORD, or a value of another kind with what `[int]` makes of it. -/
inductive RegValue
  | dword (bits : BitVec 32)
  | other (data : Nat) (number : Option (BitVec 32))
  deriving DecidableEq, Repr

/-- `[int]$value`, which throws for a value that denotes no such number. -/
def RegValue.int : RegValue → Option (BitVec 32)
  | .dword bits => some bits
  | .other _ number => number

/-- The two values under `Dnscache\Parameters`. -/
abbrev Values := Setting → Option RegValue

def desired : Setting → BitVec 32
  | .maxCacheTtl => 1
  | .maxNegativeCacheTtl => 0

/-- The name of a recorded entry; anything but the two settings is unexpected. -/
inductive EntryName
  | known (name : Setting)
  | unknown (text : String)
  deriving DecidableEq, Repr

structure Saved where
  name : EntryName
  present : Bool
  value : BitVec 32
  deriving DecidableEq, Repr

/-- One entry of `Get-OriginalState`. -/
def saveValue (values : Values) (name : Setting) : Option Saved :=
  match values name with
  | none => some ⟨.known name, false, 0⟩
  | some value => value.int.map fun number => ⟨.known name, true, number⟩

/-- `Get-OriginalState`, which throws where a value is no number. -/
def getOriginalState (values : Values) : Option (List Saved) :=
  names.mapM (saveValue values)

/-- `dnscache-policy-original.json`. -/
inductive Record
  | items (saved : List Saved)
  | unreadable
  deriving DecidableEq, Repr

structure World where
  values : Values
  record : Option Record
  temp : Option Record
  /-- `$cacheRestorePending` of the controller -/
  cacheRestorePending : Bool

/-! ## The steps -/

/-- Whether a call the process makes takes place. -/
inductive Answer
  | done
  | refused
  deriving DecidableEq, Repr

inductive Fault
  | refused
  | notANumber
  | failedToApply (name : Setting)
  | unexpectedEntry
  | unreadableRecord
  | failedToRestore (name : EntryName)
  deriving DecidableEq, Repr

abbrev Script (A : Type) := Proc World Answer Fault A

/-- A call that either takes place as a whole or throws. -/
def call (effect : World → World) : Script Unit :=
  Proc.step fun answer w =>
    match answer with
    | .done => (.ok (), effect w)
    | .refused => (.error .refused, w)

def put (w : World) (name : Setting) (value : Option RegValue) : World :=
  { w with values := Function.update w.values name value }

def newItemProperty (name : Setting) (value : BitVec 32) : Script Unit :=
  call fun w => put w name (some (.dword value))

/-- `Remove-ItemProperty -ErrorAction SilentlyContinue`: a removal that fails goes unnoticed. -/
def removeItemProperty (name : Setting) : Script Unit :=
  (call fun w => put w name none).handle fun _ => pure ()

/-- The values as `Get-Item` gives them. -/
def getItem : Script Values := do
  call id
  Proc.ask (·.values)

def orThrow {A : Type} (fault : Fault) : Option A → Script A
  | some a => pure a
  | none => Proc.raise fault

/-! ## Enable and Disable -/

def saveOriginal : Script Unit := do
  let values ← getItem
  let saved ← orThrow .notANumber (getOriginalState values)
  call fun w => { w with temp := some (.items saved) }
  call fun w => { w with record := w.temp, temp := none }

def applyDesired (name : Setting) : Script Unit := do
  newItemProperty name (desired name)
  let values ← getItem
  Proc.require (((values name).bind RegValue.int) == some (desired name)) (.failedToApply name)

def enable : Script Unit := do
  let recorded ← Proc.ask fun w => w.record.isSome
  Proc.when (!recorded) saveOriginal
  Proc.each applyDesired names

def restoreItem (item : Saved) : Script Unit :=
  match item.name with
  | .unknown _ => Proc.raise .unexpectedEntry
  | .known name => if item.present then newItemProperty name item.value else removeItemProperty name

/-- Whether a value differs from the entry; `[int]$actual` may throw.  The key holds no value of an
unexpected name. -/
def differs (values : Values) (item : Saved) : Option Bool :=
  match item.name with
  | .unknown _ => some item.present
  | .known name =>
    match values name with
    | none => some item.present
    | some actual => if item.present then actual.int.map (· != item.value) else some true

def verifyItem (values : Values) (item : Saved) : Script Unit := do
  let changed ← orThrow .notANumber (differs values item)
  Proc.require (!changed) (.failedToRestore item.name)

def restoreSaved (saved : List Saved) : Script Unit := do
  Proc.each restoreItem saved
  let values ← getItem
  Proc.each (verifyItem values) saved

def disable : Script Unit := do
  let record ← Proc.ask (·.record)
  match record with
  | none => pure ()
  | some .unreadable => Proc.raise .unreadableRecord
  | some (.items saved) => do
      call id
      restoreSaved saved

/-! ## The controller -/

/-- The loop of `Test-DnsCacheRestorePending`. -/
def anyDiffers (values : Values) : List Saved → Bool
  | [] => false
  | item :: rest =>
    match differs values item with
    | none => true
    | some changed => changed || anyDiffers values rest

/-- What throws, the registry read or a conversion, counts as pending. -/
def testDnsCacheRestorePending (getItem : Answer) (w : World) : Bool :=
  match w.record with
  | none => false
  | some .unreadable => true
  | some (.items saved) => getItem == .refused || anyDiffers w.values saved

def testDnsCachePolicyReady (w : World) : Bool :=
  w.record.isSome && names.all fun name => (w.values name).bind RegValue.int == some (desired name)

/-- The cache part of `Stop-Stack -RestoreCache`; says whether the Disable completed. -/
def restoreCache : Script Bool :=
  (do
    disable
    Proc.alter fun w => { w with cacheRestorePending := false }
    pure true : Script Bool).handle fun _ => do
      Proc.alter fun w => { w with cacheRestorePending := true }
      pure false

/-- What a pass finds: whether an import holds the filters, whether the backoff deadline has passed,
and `Test-StackPresent`. -/
structure Sighting where
  keepFilters : Bool
  cleanupDue : Bool
  stackPresent : Bool
  deriving DecidableEq, Repr

/-- The disabled pass of the main loop.  With the filters held only the tunnel is stopped. -/
def disabledPass (seen : Sighting) : Script Bool := do
  let pending ← Proc.ask (·.cacheRestorePending)
  if seen.cleanupDue && (seen.stackPresent || (pending && !seen.keepFilters)) && !seen.keepFilters then
    restoreCache
  else pure false

/-- A service stop restores the cache whatever it finds. -/
def serviceStop : Script Bool := restoreCache

def controllerStart (getItem : Answer) (w : World) : World :=
  { w with cacheRestorePending := testDnsCacheRestorePending getItem w }

/-- `Start-Stack` enables the policy unless it is in place. -/
def startStack : Script Unit := do
  let ready ← Proc.ask testDnsCachePolicyReady
  Proc.when (!ready) enable

/-! ## Sessions -/

inductive Action
  | enable (answers : List Answer)
  | startStack (answers : List Answer)
  | disable (answers : List Answer)
  | disabledPass (seen : Sighting) (answers : List Answer)
  | serviceStop (answers : List Answer)
  | controllerStart (getItem : Answer)
  | administrator (values : Values)

/-- The world and, while the policy is in place, the values just before the Enable that a Disable is
to undo. -/
structure Session where
  world : World
  undo : Option Values

/-- An Enable that completed, or that changed a value before it was interrupted, is to be undone. -/
def Session.enabled (s : Session) (outcome : Outcome Fault Unit) (after : World) : Session :=
  { world := after
    undo :=
      if s.undo.isSome then s.undo
      else if outcome = .ok () ∨ after.values ≠ s.world.values then some s.world.values else none }

/-- A Disable that completed leaves nothing to undo. -/
def Session.disabled (s : Session) (completed : Bool) (after : World) : Session :=
  { world := after, undo := if completed then none else s.undo }

/-- Whether the action runs a Disable to its end. -/
def completes (s : Session) : Action → Bool
  | .disable answers => (disable s.world answers).1 = .ok ()
  | .disabledPass seen answers => (disabledPass seen s.world answers).1 = .ok true
  | .serviceStop answers => (serviceStop s.world answers).1 = .ok true
  | _ => false

/-- One action.  An administrator changes the values only while nothing is to be undone. -/
def act (s : Session) : Action → Option Session
  | .enable answers =>
    let (outcome, after, _) := enable s.world answers
    some (s.enabled outcome after)
  | .startStack answers =>
    let (outcome, after, _) := startStack s.world answers
    some (s.enabled outcome after)
  | .disable answers =>
    some (s.disabled (completes s (.disable answers)) (disable s.world answers).2.1)
  | .disabledPass seen answers =>
    some (s.disabled (completes s (.disabledPass seen answers)) (disabledPass seen s.world answers).2.1)
  | .serviceStop answers =>
    some (s.disabled (completes s (.serviceStop answers)) (serviceStop s.world answers).2.1)
  | .controllerStart getItem => some { s with world := controllerStart getItem s.world }
  | .administrator values =>
    if s.undo.isNone then some { s with world := { s.world with values } } else none

def Step (s : Session) (a : Action) (s' : Session) : Prop := act s a = some s'

/-- Before the first Enable there is no record. -/
def Fresh (s : Session) : Prop :=
  s.undo = none ∧ s.world.record = none

/-- Whether the action is a controller pass over a stopped stack. -/
def StoppedPass : Action → Prop
  | .disabledPass seen _ => seen.stackPresent = false
  | .serviceStop _ => True
  | _ => False

/-- **The settings are given back.**  A Disable that completes leaves the values as they were just
before the Enable it undoes, and a pass over a stopped stack with nothing to undo changes none. -/
structure GivesBack (s : Session) (a : Action) (s' : Session) : Prop where
  restored : ∀ original, s.undo = some original → completes s a = true → s'.world.values = original
  left : StoppedPass a → s.undo = none → s'.world.values = s.world.values

/-! ## When they are -/

/-- A value that is absent or a DWORD, the kind a restoration writes. -/
def plain : Option RegValue → Bool
  | some (.other _ _) => false
  | _ => true

def Plain (values : Values) : Prop := ∀ name, plain (values name) = true

/-- A record that is there is the one of the present values. -/
def Matches (w : World) : Prop :=
  w.record = none ∨ Plain w.values ∧ w.record = (getOriginalState w.values).map .items

/-- Where the values must not have been changed since they were recorded: when an Enable begins and
nothing is to be undone, when the controller starts or stops then, and in a pass that still holds a
restoration to be pending.  What an Enable records first must be DWORDs. -/
def Undisturbed (s : Session) : Action → Prop
  | .enable _ | .startStack _ => s.undo = none → Plain s.world.values ∧ Matches s.world
  | .controllerStart _ | .serviceStop _ => s.undo = none → Matches s.world
  | .disabledPass _ _ => s.undo = none → s.world.cacheRestorePending = true → Matches s.world
  | .disable _ | .administrator _ => True

/-- The entry of a plain value. -/
def entry (values : Values) (name : Setting) : Saved :=
  ⟨.known name, (values name).isSome, ((values name).bind RegValue.int).getD 0⟩

theorem saveValue_plain {values : Values} {name : Setting} (dword : plain (values name) = true) :
    saveValue values name = some (entry values name) := by
  unfold saveValue entry
  cases present : values name with
  | none => rfl
  | some value =>
    cases value with
    | dword bits => rfl
    | other data number =>
      rw [present] at dword
      cases dword

theorem getOriginalState_plain {values : Values} (dwords : Plain values) :
    getOriginalState values = some (names.map (entry values)) := by
  unfold getOriginalState names
  simp only [List.mapM_cons, List.mapM_nil, saveValue_plain (dwords _)]
  rfl

/-! ### Enable -/

/-- The record stands, or it is still to be written and the values are untouched. -/
def Recording (values : Values) (saved : List Saved) (fresh : Prop) (w : World) : Prop :=
  w.record = some (.items saved) ∨ fresh ∧ w.record = none ∧ w.values = values

/-- Wherever the script is cut off or throws, `J` holds; where it returns, `Q` does. -/
abbrev Keeps {A : Type} (J : World → Prop) (m : Script A) (Q : A → World → Prop) : Prop :=
  Meets (fun _ => True) J J m Q fun _ => J

section EnableSpecs

variable {values : Values} {saved : List Saved} {fresh : Prop}

theorem meets_call {I P Q : World → Prop} {R : Fault → World → Prop} {effect : World → World}
    (alive : ∀ w, P w → I w) (ok : ∀ w, P w → Q (effect w)) (err : ∀ w, P w → R .refused w) :
    Meets (fun _ => True) I P (call effect) (fun _ => Q) R := by
  refine meets_step alive fun w answer start _ => ?_
  cases answer with
  | done => exact ok w start
  | refused => exact err w start

theorem meets_getItem {I P : World → Prop} {R : Fault → World → Prop} (alive : ∀ w, P w → I w)
    (err : ∀ w, P w → R .refused w) :
    Meets (fun _ => True) I P getItem (fun read w => P w ∧ read = w.values) R :=
  meets_bind (M := fun _ => P) (meets_call alive (fun _ start => start) err) fun _ =>
    meets_ask fun _ start => ⟨start, rfl⟩

theorem saveOriginal_records (original : getOriginalState values = some saved) :
    Meets (fun _ => True) (Recording values saved fresh)
      (fun w => fresh ∧ w.record = none ∧ w.values = values) saveOriginal
      (fun _ w => w.record = some (.items saved)) fun _ => Recording values saved fresh := by
  have untouched : ∀ w : World, fresh ∧ w.record = none ∧ w.values = values →
      Recording values saved fresh w :=
    fun _ => Or.inr
  refine meets_bind (meets_getItem untouched untouched) fun read => ?_
  have got : Meets (fun _ => True) (Recording values saved fresh)
      (fun w => (fresh ∧ w.record = none ∧ w.values = values) ∧ read = values)
      (orThrow .notANumber (getOriginalState read))
      (fun got w => (fresh ∧ w.record = none ∧ w.values = values) ∧ got = saved)
      fun _ => Recording values saved fresh := by
    refine meets_given fun same => ?_
    rw [same, original]
    exact meets_pure fun _ start => ⟨start, rfl⟩
  refine meets_bind (meets_pre got fun w start => ⟨start.1, start.2.trans start.1.2.2⟩) fun got => ?_
  refine meets_bind
    (M := fun _ w => (fresh ∧ w.record = none ∧ w.values = values) ∧ w.temp = some (.items saved))
    (meets_call (fun w start => untouched w start.1) ?_ fun w start => untouched w start.1) fun _ => ?_
  · rintro w ⟨start, rfl⟩
    exact ⟨start, rfl⟩
  · exact meets_call (fun w start => untouched w start.1) (fun w start => start.2)
      fun w start => untouched w start.1

/-- Applying the caps leaves the record alone. -/
theorem applyDesired_frame (name : Setting) : Frame World.record (applyDesired name) := by
  have quiet : ∀ effect : World → World, (∀ w, (effect w).record = w.record) →
      Frame World.record (call effect) := by
    intro effect same
    refine frame_step fun answer w => ?_
    cases answer with
    | done => exact same w
    | refused => rfl
  refine frame_bind (quiet _ fun _ => rfl) fun _ => ?_
  exact frame_bind (frame_bind (quiet _ fun _ => rfl) fun _ => frame_ask _) fun read => frame_require _ _

/-- **Enable.**  The record is in place before a value changes, and stays. -/
theorem enable_records (original : getOriginalState values = some saved) :
    Keeps (Recording values saved fresh) enable fun _ w => w.record = some (.items saved) := by
  refine meets_bind (M := fun recorded w => Recording values saved fresh w ∧ recorded = w.record.isSome)
    (meets_ask fun _ start => ⟨start, rfl⟩) fun recorded => ?_
  refine meets_bind (M := fun _ w => w.record = some (.items saved)) ?_ fun _ => ?_
  · cases recorded with
    | true =>
      refine meets_pure fun w start => ?_
      obtain ⟨here | ⟨-, absent, -⟩, found⟩ := start
      · exact here
      · rw [absent] at found
        cases found
    | false =>
      refine meets_pre (saveOriginal_records original) fun w start => ?_
      obtain ⟨here | untouched, found⟩ := start
      · rw [here] at found
        cases found
      · exact untouched
  · refine meets_each (fun name => ?_) names
    have kept := Along.meets (applyDesired_frame name) (P := fun w => w.record = some (.items saved))
      (I := Recording values saved fresh) (fun _ => rfl)
      (fun _ _ start same => same.trans start) fun _ => Or.inl
    exact meets_mono kept (fun _ start => start) (fun _ _ post => post) fun _ _ err => Or.inl err.1

theorem startStack_records (original : getOriginalState values = some saved) :
    Keeps (Recording values saved fresh) startStack fun _ w => w.record = some (.items saved) := by
  refine meets_bind (M := fun ready w => Recording values saved fresh w ∧ ready = testDnsCachePolicyReady w)
    (meets_ask fun _ start => ⟨start, rfl⟩) fun ready => ?_
  cases ready with
  | true =>
    refine meets_pure fun w start => ?_
    obtain ⟨here | ⟨-, absent, -⟩, found⟩ := start
    · exact here
    · rw [testDnsCachePolicyReady, absent] at found
      cases found
  | false => exact meets_pre (enable_records original) fun _ start => start.1

end EnableSpecs

/-! ### Disable -/

/-- What a Disable works from: the record of the values `original`, or none at all where the values
are those already. -/
def Fits (original : Values) (record : Option Record) (keep : Prop) : Prop :=
  Plain original ∧ record = some (.items (names.map (entry original))) ∨ record = none ∧ keep

/-- The record stands, and values that were the original ones stay so. -/
def Restoring (original : Values) (record : Option Record) (keep : Prop) (w : World) : Prop :=
  w.record = record ∧ (keep → w.values = original)

section DisableSpecs

variable {original : Values} {record : Option Record} {keep : Prop}

theorem Restoring.put {w : World} (held : Restoring original record keep w) (name : Setting) :
    Restoring original record keep (put w name (original name)) := by
  refine ⟨held.1, fun same => ?_⟩
  show Function.update w.values name (original name) = original
  rw [held.2 same, Function.update_eq_self]

/-- An entry is restored, or was to be absent and a failed removal went unnoticed. -/
theorem restoreItem_entry {I P Q : World → Prop} {R : Fault → World → Prop} {name : Setting}
    (dword : plain (original name) = true) (alive : ∀ w, P w → I w) (err : ∀ w, P w → R .refused w)
    (step : ∀ w, P w → Q (put w name (original name))) (skip : original name = none → ∀ w, P w → Q w) :
    Meets (fun _ => True) I P (restoreItem (entry original name)) (fun _ => Q) R := by
  unfold restoreItem entry
  cases present : original name with
  | none =>
    rw [present] at step
    exact meets_handle (F := fun _ => P) (meets_call alive step fun _ start => start) fun _ =>
      meets_pure (skip present)
  | some value =>
    cases value with
    | other data number =>
      rw [present] at dword
      cases dword
    | dword bits =>
      rw [present] at step
      exact meets_call alive step err

/-- Restoring all entries puts back every value that was present. -/
theorem restore_each (dwords : Plain original) :
    Keeps (Restoring original record keep) (Proc.each restoreItem (names.map (entry original))) fun _ w =>
      Restoring original record keep w ∧ ∀ name, original name ≠ none → w.values name = original name := by
  -- what has been restored is whatever is not left to do
  let J : List Saved → World → Prop := fun rest w => Restoring original record keep w ∧
    ∀ name, entry original name ∉ rest → original name ≠ none → w.values name = original name
  have loop : Meets (fun _ => True) (Restoring original record keep) (J (names.map (entry original)))
      (Proc.each restoreItem (names.map (entry original))) (fun _ => J [])
      fun _ => Restoring original record keep := by
    refine meets_each_rest _ fun front item rest split => ?_
    have member : item ∈ names.map (entry original) := by simp [split]
    obtain ⟨name, -, rfl⟩ := List.mem_map.mp member
    refine restoreItem_entry (dwords name) (fun _ start => start.1) (fun _ start => start.1)
      (fun w start => ⟨start.1.put name, fun other done present => ?_⟩)
      fun absent w start => ⟨start.1, fun other done present => start.2 other ?_ present⟩
    · show Function.update w.values name (original name) other = original other
      by_cases same : other = name
      · rw [same, Function.update_self]
      · rw [Function.update_of_ne same]
        refine start.2 other (fun left => ?_) present
        rcases List.mem_cons.mp left with eq | left
        · exact same (EntryName.known.inj (congrArg Saved.name eq))
        · exact done left
    · intro left
      rcases List.mem_cons.mp left with eq | left
      · exact present ((EntryName.known.inj (congrArg Saved.name eq)) ▸ absent)
      · exact done left
  refine meets_mono loop (fun w start => ⟨start, fun name done => ?_⟩)
    (fun _ w post => ⟨post.1, fun name => post.2 name List.not_mem_nil⟩) fun _ _ err => err
  exact absurd (List.mem_map_of_mem (mem_names name)) done

theorem verify_each {I P : World → Prop} {R : Fault → World → Prop} (read : Values)
    (err : ∀ e w, P w → R e w) :
    ∀ saved : List Saved, Meets (fun _ => True) I P (Proc.each (verifyItem read) saved)
      (fun _ w => P w ∧ ∀ item ∈ saved, differs read item = some false) R
  | [] => meets_pure fun _ start => ⟨start, nofun⟩
  | item :: rest => by
    refine meets_bind (M := fun _ w => P w ∧ differs read item = some false) ?_ fun _ =>
      meets_given fun same => meets_post (verify_each read err rest) fun _ w post => ⟨post.1, ?_⟩
    · unfold verifyItem
      cases found : differs read item with
      | none => exact meets_bind (M := fun _ _ => False) (meets_raise (err _)) fun _ w start => start.elim
      | some changed =>
        refine meets_bind (M := fun got w => P w ∧ got = changed) (meets_pure fun _ start => ⟨start, rfl⟩)
          fun got => meets_given fun same => ?_
        subst same
        refine meets_require (fun _ w start => err _ w start) fun unchanged w start => ⟨start, ?_⟩
        cases got with
        | true => cases unchanged
        | false => rfl
    · intro other member
      rcases List.mem_cons.mp member with rfl | member
      · exact same
      · exact post.2 other member

/-- What was restored and verified is the original. -/
theorem eq_original {values : Values} (present : ∀ name, original name ≠ none → values name = original name)
    (verified : ∀ item ∈ names.map (entry original), differs values item = some false) :
    values = original := by
  funext name
  by_cases absent : original name = none
  · have same := verified _ (List.mem_map_of_mem (mem_names name))
    unfold differs entry at same
    dsimp only at same
    rw [absent] at same ⊢
    cases found : values name with
    | none => rfl
    | some value =>
      rw [found] at same
      cases same
  · exact present name absent

theorem restoreSaved_restores (dwords : Plain original) :
    Keeps (Restoring original record keep) (restoreSaved (names.map (entry original))) fun _ w =>
      Restoring original record keep w ∧ w.values = original := by
  refine meets_bind (restore_each dwords) fun _ => ?_
  refine meets_bind (meets_getItem (fun _ start => start.1) fun _ start => start.1) fun read => ?_
  refine meets_post (verify_each (P := fun w => (Restoring original record keep w ∧
      ∀ name, original name ≠ none → w.values name = original name) ∧ read = w.values) read
    (fun _ _ start => start.1.1) _) fun _ w post => ?_
  obtain ⟨⟨⟨held, present⟩, rfl⟩, verified⟩ := post
  exact ⟨held, eq_original present verified⟩

/-- A script that runs a Disable, with what its value says about whether that completed: one that did
leaves the original values, and none ever changes the record or values that are the original ones. -/
def Restores {A : Type} (m : Script A) (done : A → Prop) : Prop :=
  ∀ original record keep, Fits original record keep → Keeps (Restoring original record keep) m fun value w =>
    Restoring original record keep w ∧ (done value → w.values = original)

/-- **Disable.** -/
theorem restores_disable : Restores disable fun _ => True := by
  intro original record keep fits
  refine meets_bind (M := fun found w => Restoring original record keep w ∧ found = record)
    (meets_ask fun _ start => ⟨start, start.1⟩) fun found => meets_given fun same => ?_
  subst same
  rcases fits with ⟨dwords, rfl⟩ | ⟨rfl, same⟩
  · refine meets_bind (M := fun _ => Restoring original _ keep)
      (meets_call (fun _ start => start) (fun _ start => start) fun _ start => start) fun _ => ?_
    exact meets_post (restoreSaved_restores dwords) fun _ _ post => ⟨post.1, fun _ => post.2⟩
  · exact meets_pure fun w start => ⟨start, fun _ => start.2 same⟩

theorem restores_restoreCache : Restores restoreCache (· = true) := by
  intro original record keep fits
  refine meets_handle (F := fun _ => Restoring original record keep) ?_ fun _ => ?_
  · refine meets_bind (restores_disable _ _ _ fits) fun _ => ?_
    exact meets_bind (M := fun _ w => Restoring original record keep w ∧ (True → w.values = original))
      (meets_alter fun _ start => start) fun _ => meets_pure fun _ start =>
      ⟨start.1, fun _ => start.2 trivial⟩
  · exact meets_bind (M := fun _ => Restoring original record keep) (meets_alter fun _ start => start)
      fun _ => meets_pure fun _ start => ⟨start, nofun⟩

theorem restores_disabledPass (seen : Sighting) : Restores (disabledPass seen) (· = true) := by
  intro original record keep fits
  refine meets_bind (M := fun _ => Restoring original record keep) (meets_ask fun _ start => start)
    fun pending => meets_ite (fun _ => restores_restoreCache _ _ _ fits) fun _ => ?_
  exact meets_pure fun _ start => ⟨start, nofun⟩

end DisableSpecs

/-- A record of the present values fits them. -/
theorem Matches.fits {w : World} (matching : Matches w) : Fits w.values w.record True := by
  rcases matching with absent | ⟨dwords, recorded⟩
  · exact .inr ⟨absent, trivial⟩
  · rw [getOriginalState_plain dwords] at recorded
    exact .inl ⟨dwords, recorded⟩

/-! ## Runs -/

/-- What is to be undone is what the record says. -/
def Recorded (s : Session) : Prop :=
  ∀ original, s.undo = some original →
    Plain original ∧ s.world.record = some (.items (names.map (entry original)))

/-- An Enable, run alone or by `Start-Stack`, leaves a record of what is to be undone. -/
theorem enabled_recorded {s : Session} {m : Script Unit} (recorded : Recorded s)
    (undisturbed : s.undo = none → Plain s.world.values ∧ Matches s.world)
    (records : ∀ values saved fresh, getOriginalState values = some saved →
      Keeps (Recording values saved fresh) m fun _ w => w.record = some (.items saved))
    (answers : List Answer) :
    Recorded (s.enabled (m s.world answers).1 (m s.world answers).2.1) := by
  have relied : ∀ answer ∈ answers, (fun _ : Answer => True) answer := fun _ _ => trivial
  intro original undo
  cases before : s.undo with
  | some earlier =>
    obtain rfl : earlier = original := by simpa [Session.enabled, before] using undo
    obtain ⟨dwords, here⟩ := recorded earlier before
    refine ⟨dwords, (records earlier _ False (getOriginalState_plain dwords)).after
      (J := fun _ w => w.record = some (.items (names.map (entry earlier)))) (.inl here) relied
      (fun _ _ post => post) (fun _ _ held => held.resolve_right fun h => h.1)
      fun _ held => held.resolve_right fun h => h.1⟩
  | none =>
    obtain ⟨dwords, matching⟩ := undisturbed before
    have start : Recording s.world.values (names.map (entry s.world.values)) True s.world := by
      rcases matching.fits with ⟨-, here⟩ | ⟨absent, -⟩
      · exact .inl here
      · exact .inr ⟨trivial, absent, rfl⟩
    have after := (records s.world.values _ True (getOriginalState_plain dwords)).after
      (J := fun outcome w => outcome = .ok () ∨ w.values ≠ s.world.values →
        w.record = some (.items (names.map (entry s.world.values)))) start relied
      (fun _ _ post _ => post) (fun _ _ held changed => held.resolve_right fun h => ?_)
      fun _ held changed => held.resolve_right fun h => ?_
    · simp only [Session.enabled, before, Option.isSome_none, Bool.false_eq_true, if_false] at undo ⊢
      split at undo
      · rename_i changed
        cases undo
        exact ⟨dwords, after changed⟩
      · cases undo
    · exact changed.elim nofun fun differ => differ h.2.2
    · exact changed.elim nofun fun differ => differ h.2.2

theorem Restores.after {A : Type} {m : Script A} {done : A → Prop} (restores : Restores m done)
    {original : Values} {keep : Prop} {w : World} (fits : Fits original w.record keep)
    (same : keep → w.values = original) (answers : List Answer) :
    Restoring original w.record keep (m w answers).2.1 ∧
      ∀ value, (m w answers).1 = .ok value → done value → (m w answers).2.1.values = original := by
  refine (restores original w.record keep fits).after
    (J := fun outcome after => Restoring original w.record keep after ∧
      ∀ value, outcome = .ok value → done value → after.values = original)
    ⟨rfl, same⟩ (fun _ _ => trivial) (fun value after post => ⟨post.1, ?_⟩) (fun _ _ held => ⟨held, ?_⟩)
    fun _ held => ⟨held, ?_⟩
  · intro value' eq
    cases eq
    exact post.2
  · exact nofun
  · exact nofun

/-- What such a script does to a session whose record is that of the values to be undone. -/
theorem Restores.session {A : Type} {m : Script A} {done : A → Prop} (restores : Restores m done)
    {s : Session} (recorded : Recorded s) (answers : List Answer) (completed : Bool)
    (means : completed = true → ∃ value, (m s.world answers).1 = .ok value ∧ done value) :
    (∀ original, s.undo = some original → completed = true →
        (m s.world answers).2.1.values = original) ∧
      Recorded (s.disabled completed (m s.world answers).2.1) := by
  constructor
  · intro original undo finished
    obtain ⟨value, eq, complete⟩ := means finished
    have fits : Fits original s.world.record False := .inl (recorded original undo)
    exact (restores.after fits False.elim answers).2 value eq complete
  · intro original undo
    unfold Session.disabled at undo
    split at undo
    · cases undo
    · obtain ⟨dwords, here⟩ := recorded original undo
      have fits : Fits original s.world.record False := .inl ⟨dwords, here⟩
      exact ⟨dwords, ((restores.after fits False.elim answers).1.1).trans here⟩

/-- Where the record is that of the present values, they stay. -/
theorem Restores.leaves {A : Type} {m : Script A} {done : A → Prop} (restores : Restores m done) {w : World}
    (matching : Matches w) (answers : List Answer) : (m w answers).2.1.values = w.values :=
  (restores.after matching.fits (fun _ => rfl) answers).1.2 trivial

/-- Without a pending restoration a pass over a stopped stack does nothing. -/
theorem disabledPass_idle {seen : Sighting} {w : World} (stopped : seen.stackPresent = false)
    (settled : w.cacheRestorePending = false) (answers : List Answer) :
    (disabledPass seen w answers).2.1 = w := by
  have nothing : disabledPass seen w answers = (.ok false, w, answers) := by
    simp [disabledPass, bind, Proc.andThen, Proc.ask, stopped, settled, pure, Proc.ret]
  rw [nothing]

/-- An action that neither completes a Disable nor is a pass over a stopped stack. -/
theorem givesBack_other {s s' : Session} {a : Action} (unfinished : completes s a = false)
    (other : ¬ StoppedPass a) : GivesBack s a s' where
  restored _ _ finished := by
    rw [unfinished] at finished
    cases finished
  left pass := absurd pass other

/-- **One action.** -/
theorem step_givesBack {s s' : Session} {a : Action} (recorded : Recorded s) (undisturbed : Undisturbed s a)
    (taken : Step s a s') : GivesBack s a s' ∧ Recorded s' := by
  cases a with
  | enable answers =>
    cases taken
    exact ⟨givesBack_other rfl id,
      enabled_recorded recorded undisturbed (fun _ _ _ => enable_records) answers⟩
  | startStack answers =>
    cases taken
    exact ⟨givesBack_other rfl id,
      enabled_recorded recorded undisturbed (fun _ _ _ => startStack_records) answers⟩
  | disable answers =>
    cases taken
    obtain ⟨back, kept⟩ := restores_disable.session recorded answers
      (completes s (.disable answers)) fun finished => ⟨(), of_decide_eq_true finished, trivial⟩
    exact ⟨⟨back, False.elim⟩, kept⟩
  | disabledPass seen answers =>
    cases taken
    obtain ⟨back, kept⟩ := (restores_disabledPass seen).session recorded answers
      (completes s (.disabledPass seen answers)) fun finished => ⟨true, of_decide_eq_true finished, rfl⟩
    refine ⟨⟨back, fun stopped nothing => ?_⟩, kept⟩
    show (disabledPass seen s.world answers).2.1.values = s.world.values
    cases pending : s.world.cacheRestorePending with
    | true => exact (restores_disabledPass seen).leaves (undisturbed nothing pending) answers
    | false => rw [disabledPass_idle stopped pending]
  | serviceStop answers =>
    cases taken
    obtain ⟨back, kept⟩ := restores_restoreCache.session recorded answers
      (completes s (.serviceStop answers)) fun finished => ⟨true, of_decide_eq_true finished, rfl⟩
    exact ⟨⟨back, fun _ nothing => restores_restoreCache.leaves (undisturbed nothing) answers⟩, kept⟩
  | controllerStart getItem =>
    cases taken
    exact ⟨givesBack_other rfl id, recorded⟩
  | administrator values =>
    unfold Step act at taken
    dsimp only at taken
    split at taken
    · rename_i nothing
      cases taken
      refine ⟨givesBack_other rfl id, fun original undo => ?_⟩
      rw [Option.isNone_iff_eq_none] at nothing
      rw [nothing] at undo
      cases undo
    · cases taken

/-- The steps of a session in which the values are not changed behind the record's back. -/
def Undisturbing (s : Session) (a : Action) (s' : Session) : Prop :=
  Undisturbed s a ∧ Step s a s'

theorem recorded_of_run {as : List Action} {s : Session} (run : Run Fresh Undisturbing as s) : Recorded s :=
  Run.invariant_of_ok Undisturbed (fun _ => Recorded)
    (fun s fresh original undo => by rw [fresh.1] at undo; cases undo)
    (fun _ _ _ _ recorded undisturbed taken => (step_givesBack recorded undisturbed taken).2) run

/-- **The settings are given back.**  In every session of Enables, Disables, controller starts, passes
and stops, cut off anywhere, and of changes an administrator makes meanwhile: if no Enable, controller
start, stop or pending restoration meets values that were changed since they were recorded, and the
recorded values are DWORDs, then each Disable that completes leaves the values as they were just before
the Enable it undoes, and no pass over a stopped stack with nothing to undo changes one. -/
theorem settings_given_back {as : List Action} {s s' : Session} {a : Action}
    (run : Run Fresh Undisturbing as s) (taken : Undisturbing s a s') : GivesBack s a s' :=
  (step_givesBack (recorded_of_run run) taken.1 taken.2).1

/-! ## Poles -/

/-- A day for positive answers, nothing set for negative ones. -/
def factory : Values
  | .maxCacheTtl => some (.dword 86400)
  | .maxNegativeCacheTtl => none

/-- The administrator lowers the first to an hour. -/
def lowered : Values
  | .maxCacheTtl => some (.dword 3600)
  | .maxNegativeCacheTtl => none

def installed : Session := ⟨⟨factory, none, none, false⟩, none⟩

def calm (calls : Nat) : List Answer := List.replicate calls .done

/-- The session after an action that can be taken. -/
def reach (s : Session) (a : Action) : Session := (act s a).getD s

theorem reach_step {s : Session} {a : Action} (can : (act s a).isSome = true) : Step s a (reach s a) := by
  obtain ⟨s', eq⟩ := Option.isSome_iff_exists.mp can
  unfold Step reach
  rw [eq, Option.getD_some]

def capped : Session := reach installed (.enable (calm 7))
def restored : Session := reach capped (.disable (calm 4))
def adjusted : Session := reach restored (.administrator lowered)

/-- Whatever the stack left is gone and a cleanup may run. -/
def nothingLeft : Sighting := ⟨false, true, false⟩

theorem settings_given_back_factory :
    Run Fresh Undisturbing [.enable (calm 7)] capped ∧
      Undisturbing capped (.disable (calm 4)) restored ∧ capped.undo = some factory ∧
      completes capped (.disable (calm 4)) = true ∧ capped.world.values ≠ factory ∧
      restored.world.values = factory := by
  have first : Run Fresh Undisturbing [.enable (calm 7)] capped :=
    .next (.start ⟨rfl, rfl⟩) ⟨fun _ => ⟨by unfold Plain; decide, .inl rfl⟩, reach_step (by decide)⟩
  have second : Undisturbing capped (.disable (calm 4)) restored := ⟨trivial, reach_step (by decide)⟩
  have undo : capped.undo = some factory := by decide
  have finished : completes capped (.disable (calm 4)) = true := by decide
  exact ⟨first, second, undo, finished, by decide,
    (settings_given_back first second).restored factory undo finished⟩

/-- After an Enable and a Disable an administrator sets a value.  The next Enable keeps the first
record, so the next Disable brings the older value back; and a controller that starts before that
takes the difference for an unfinished restoration and its first pass removes the change. -/
theorem changed_setting_lost :
    (∃ as s s', Run Fresh Step as s ∧ Step s (.disable (calm 4)) s' ∧ s.undo = some lowered ∧
        completes s (.disable (calm 4)) = true ∧ s'.world.values = factory) ∧
      (∃ as s s', Run Fresh Step as s ∧ Step s (.disabledPass nothingLeft (calm 4)) s' ∧ s.undo = none ∧
        s.world.values = lowered ∧ s'.world.values = factory) ∧ lowered ≠ factory := by
  have changed : Run Fresh Step [.administrator lowered, .disable (calm 4), .enable (calm 7)] adjusted :=
    .next (.next (.next (.start ⟨rfl, rfl⟩) (reach_step (by decide))) (reach_step (by decide)))
      (reach_step (by decide))
  refine ⟨⟨_, reach adjusted (.enable (calm 4)),
    reach (reach adjusted (.enable (calm 4))) (.disable (calm 4)),
      .next changed (reach_step ?_), reach_step ?_, ?_, ?_, ?_⟩,
    ⟨_, reach adjusted (.controllerStart .done), reach (reach adjusted (.controllerStart .done))
      (.disabledPass nothingLeft (calm 4)), .next changed (reach_step ?_), reach_step ?_, ?_, ?_, ?_⟩, ?_⟩
  all_goals decide

end ProgramSplit.Windows.CachePolicy
