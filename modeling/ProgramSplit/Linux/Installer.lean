/-
# Linux.Installer — installing and removing the built files

`install` and `uninstall` of `install.py`, with `_identity`, `_directories`, `_create` and `_manifest`. A
file system is a list of named nodes, the newest first. Each file operation consumes an answer, which may
make it fail; the operations that clean up after a failure succeed. `dirs` and `files` are the lists the
roll-back works from: a directory enters its list as it is made, a file only once `_create` has returned.

* `Built` — undoing the two lists gives the file system that was there before;
* `create_meets` — `_create` keeps it, except where it fails behind its own handler;
* `uninstall_meets` — a removal takes away nothing, or listed files and after all of them the manifest;
* `installation_whole` — what a failed installation leaves, and what removals leave however often they
  are stopped and run again.
-/
import Mathlib.Data.List.Basic
import Mathlib.Tactic.SplitIfs
import ProgramSplit.Lib.Crash

namespace ProgramSplit.Linux.Installer

open Lib

set_option autoImplicit false

/-! ## File systems -/

/-- The names from a node up to the installation root, which is `[]`. -/
abbrev Path := List String

abbrev Bytes := List UInt8

structure File where
  content : Bytes
  device : Nat
  inode : Nat
  owner : Nat
  ctime : Nat
  mode : Nat
  links : Nat
  deriving DecidableEq

inductive Node
  | directory (owner mode : Nat)
  | file (f : File)
  | symlink
  /-- a device, a pipe or a socket -/
  | special
  deriving DecidableEq

/-- What every name resolves to. -/
abbrev FileSystem := List (Path × Node)

namespace FileSystem

def names (fs : FileSystem) : List Path := fs.map Prod.fst

def node (fs : FileSystem) (p : Path) : Option Node := (fs.find? (·.1 = p)).map Prod.snd

def erase (fs : FileSystem) (p : Path) : FileSystem := fs.filter (·.1 ≠ p)

def change (fs : FileSystem) (p : Path) (f : File → File) : FileSystem :=
  fs.map fun
    | (q, .file g) => (q, .file (if q = p then f g else g))
    | entry => entry

/-- There is a directory in which the name can be made. -/
def holds (fs : FileSystem) : Path → Bool
  | [] => false
  | [_] => true
  | _ :: name :: parent =>
    match fs.node (name :: parent) with
    | some (.directory _ _) => true
    | _ => false

def without (fs : FileSystem) (gone : List Path) : FileSystem := fs.filter (·.1 ∉ gone)

/-- Every node lies in one that is there. -/
def Closed (fs : FileSystem) : Prop := ∀ p ∈ fs.names, p.tail = [] ∨ p.tail ∈ fs.names

end FileSystem

structure Tree where
  nodes : FileSystem
  closed : nodes.Closed

/-- What `_identity` returns. -/
structure Identity where
  device : Nat
  inode : Nat
  owner : Nat
  ctime : Nat
  mode : Nat
  sha256 : Nat
  deriving DecidableEq

/-- An entry of the manifest: the identity its value is equal to, if it is one. -/
abbrev Entry := Path × Option Identity

/-- Where an exception comes from; `close` and `inspect` are the two operations of `_create` behind its
handler. -/
inductive Op
  | check
  | lstat
  | mkdir
  | examine
  | read
  | create
  | chmod
  | write
  | fsync
  | close
  | inspect
  | syncDirectory
  | unlink
  deriving DecidableEq

inductive Failure
  | failed (op : Op)
  | refused (text : String)
  deriving DecidableEq

structure World where
  fs : FileSystem
  /-- `created_dirs`, the last one first -/
  dirs : List Path := []
  /-- `created_files`, the last one first -/
  files : List (Path × Identity) := []
  entries : List (Path × Identity) := []

/-- How an operation ends: whether it succeeds, how much a write takes, and what a new node is given. -/
structure Answer where
  ok : Bool
  wrote : Nat := 0
  /-- the complement of the umask -/
  mask : Nat := 0o755
  device : Nat := 0
  inode : Nat := 0
  ctime : Nat := 0

abbrev Program := Proc World Answer Failure

/-! ## The layout -/

def config : Path := ["wg-program-split", "etc"]

def manifestPath : Path := "installation.json" :: config

def layout : List (String × Path × Nat) :=
  [("wg-program-split.pyz", ["wg-program-split.pyz", "wg-program-split", "lib", "usr"], 0o644),
    ("bpf-loader", ["bpf-loader", "wg-program-split", "lib", "usr"], 0o755),
    ("classifier.bpf.o", ["classifier.bpf.o", "wg-program-split", "lib", "usr"], 0o644),
    ("wg-program-split-guard.service", ["wg-program-split-guard.service", "system", "systemd", "lib", "usr"],
      0o644),
    ("wg-program-split.service", ["wg-program-split.service", "system", "systemd", "lib", "usr"], 0o644)]

def command : Path := ["wg-program-split", "bin", "usr"]

def launcher : Bytes :=
  ("#!/bin/sh\n# SPDX-License-Identifier: GPL-3.0-or-later\nexec /usr/bin/python3 -I " ++
    "/usr/lib/wg-program-split/wg-program-split.pyz \"$@\"\n").toUTF8.toList

def allowed : List Path := layout.map (·.2.1) ++ [command]

/-- The user, the digest, and the manifest's text both ways. -/
structure Setting where
  euid : Nat
  sha256 : Bytes → Nat
  encode : List (Path × Identity) → Bytes
  /-- the `files` of a text of this schema, its names split at the slashes -/
  decode : Bytes → Option (List Entry)

/-- The files to install; `settings` is the canonical text. -/
structure Inputs where
  artifact : String → Bytes
  profile : Bytes
  settings : Bytes
  failover : Option Bytes

/-- The directories from the root down to this one. -/
def walk : Path → List Path
  | [] => []
  | name :: p => walk p ++ [name :: p]

section Model

variable (s : Setting)

/-! ## Operations -/

/-- An operation that changes nothing. -/
def look {A : Type} (op : Op) (f : FileSystem → Except Failure A) : Program A :=
  Proc.step fun c w => (if c.ok then f w.fs else .error (.failed op), w)

def File.identity (f : File) : Identity :=
  ⟨f.device, f.inode, f.owner, f.ctime, f.mode, s.sha256 f.content⟩

/-- `_identity`. -/
def identityOf (op : Op) (fs : FileSystem) (p : Path) : Except Failure Identity :=
  match fs.node p with
  | some (.file f) =>
    if f.links = 1 then .ok (f.identity s)
    else .error (.refused "installation file must be singly linked and regular")
  | some (.directory _ _) | some .special =>
    .error (.refused "installation file must be singly linked and regular")
  | some .symlink | none => .error (.failed op)

def contentOf (fs : FileSystem) (p : Path) : Except Failure Bytes :=
  match fs.node p with
  | some (.file f) => .ok f.content
  | _ => .error (.failed .read)

/-- A directory of this user which nobody else may write. -/
def safe : Option Node → Bool
  | some (.directory owner mode) => owner = s.euid && mode &&& 0o022 = 0
  | _ => false

def mkdir (p : Path) : Program Unit :=
  Proc.step fun c w =>
    if c.ok ∧ w.fs.node p = none ∧ w.fs.holds p then
      (.ok (), { w with
        fs := (p, .directory s.euid ((if p = config then 0o700 else 0o755) &&& c.mask)) :: w.fs
        dirs := p :: w.dirs })
    else (.error (.failed .mkdir), w)

/-- The directory's `lstat`, after it is made where it is missing. -/
def info (create : Bool) (p : Path) : Program (Option Node) := do
  let found ← look .lstat fun fs => .ok (fs.node p)
  if found = none then do
    Proc.require create (.refused "installation directory is missing")
    mkdir s p
    look .lstat fun fs => .ok (fs.node p)
  else pure found

/-- One component of `_directories`. -/
def enter (create : Bool) (p : Path) : Program Unit := do
  let found ← info s create p
  Proc.require (safe s found) (.refused "installation directory is foreign, writable, or a symlink")

def isPrivate : Option Node → Bool
  | some (.directory _ mode) => mode = 0o700
  | _ => false

/-- `_directories`. -/
def directories (create : Bool) (p : Path) : Program Unit := do
  Proc.each (enter s create) (walk p)
  Proc.when (p = config) do
    let found ← look .lstat fun fs => .ok (fs.node p)
    Proc.require (isPrivate found) (.refused "configuration directory must have mode 0700")

/-- `os.open` with `O_EXCL`. -/
def openNew (p : Path) (mode : Nat) : Program Unit :=
  Proc.step fun c w =>
    if c.ok ∧ w.fs.node p = none ∧ w.fs.holds p then
      (.ok (), { w with
        fs := (p, .file ⟨[], c.device, c.inode, s.euid, c.ctime, mode &&& c.mask, 1⟩) :: w.fs })
    else (.error (.failed .create), w)

/-- An operation on the open file. -/
def onFile {A : Type} (op : Op) (p : Path) (value : Answer → A) (f : Answer → File → File) : Program A :=
  Proc.step fun c w =>
    if c.ok then (.ok (value c), { w with fs := w.fs.change p (f c) }) else (.error (.failed op), w)

/-- The loop that writes. Each round writes something, so it has no more rounds than bytes. -/
def writeAll (p : Path) : Nat → Bytes → Program Unit
  | 0, _ => pure ()
  | rounds + 1, remaining =>
    if remaining = [] then pure ()
    else do
      let wrote ← onFile .write p (fun c => min c.wrote remaining.length) fun c g =>
        { g with content := g.content ++ remaining.take c.wrote, ctime := c.ctime }
      Proc.require (0 < wrote) (.refused "incomplete installation write")
      writeAll p rounds (remaining.drop wrote)

/-- `_create`: its handler removes the file, and the last two operations are behind it. -/
def create (p : Path) (content : Bytes) (mode : Nat) : Program Identity := do
  openNew s p mode
  (do
    onFile .chmod p (fun _ => ()) fun c g => { g with mode := mode, ctime := c.ctime }
    writeAll p content.length content
    look .fsync fun _ => .ok ()).handle fun e => do
      Proc.alter fun w => { w with fs := w.fs.erase p }
      Proc.raise e
  look .close fun _ => .ok ()
  look .inspect fun fs => identityOf s .inspect fs p

/-! ## Installing -/

def createFile (p : Path) (content : Bytes) (mode : Nat) (listed : Bool) : Program Unit := do
  let identity ← create s p content mode
  Proc.alter fun w => { w with
    files := (p, identity) :: w.files
    entries := if listed then w.entries ++ [(p, identity)] else w.entries }

/-- A configuration file is made, or kept if it is the same. -/
def configure (name : String) (content : Bytes) : Program Unit := do
  let found ← look .examine fun fs => .ok (fs.node (name :: config))
  if found = none then createFile s (name :: config) content 0o600 false
  else do
    let existing ← look .examine fun fs => identityOf s .examine fs (name :: config)
    let bytes ← look .read fun fs => contentOf fs (name :: config)
    Proc.require (existing.owner = s.euid && existing.mode = 0o600 && bytes = content)
      (.refused "existing private configuration differs; it was preserved")

def payloads (i : Inputs) : List (Path × Bytes × Nat) :=
  layout.map (fun (name, p, mode) => (p, i.artifact name, mode)) ++ [(command, launcher, 0o755)]

def configs (i : Inputs) : List (String × Bytes) :=
  [("profile.conf", i.profile), ("settings.json", i.settings)] ++
    (i.failover.map fun text => ("failover.json", text)).toList

def absent (p : Path) (text : String) : Program Unit :=
  look .examine fun fs => if fs.node p = none then .ok () else .error (.refused text)

/-- The part of `install` under its handler. -/
def build (i : Inputs) : Program Unit := do
  Proc.each (directories s true)
    [["wg-program-split", "lib", "usr"], ["system", "systemd", "lib", "usr"], ["bin", "usr"], config]
  Proc.each (fun payload => absent payload.1 "refusing to overwrite an existing installation file")
    (payloads i)
  Proc.each (fun file => configure s file.1 file.2) (configs i)
  Proc.each (fun payload => createFile s payload.1 payload.2.1 payload.2.2 true) (payloads i)
  let entries ← Proc.ask World.entries
  createFile s manifestPath (s.encode entries) 0o600 false
  let made ← Proc.ask World.files
  Proc.each (fun _ => look .syncDirectory fun _ => .ok ()) (made.map (·.1.tail)).eraseDups

/-- The handler removes a created file that is still the one. -/
def remove (fs : FileSystem) (made : Path × Identity) : FileSystem :=
  if identityOf s .examine fs made.1 = .ok made.2 then fs.erase made.1 else fs

/-- `rmdir`, whose failure is ignored. -/
def rmdir (fs : FileSystem) (p : Path) : FileSystem :=
  if ∀ q ∈ fs.names, q.tail ≠ p then fs.erase p else fs

def World.rolledBack (w : World) : FileSystem := w.dirs.foldl rmdir (w.files.foldl (remove s) w.fs)

/-- `install`: the root, the three texts and the artifacts are checked first. -/
def install (i : Inputs) : Program Unit := do
  look .check fun _ => .ok ()
  look .check fun _ => .ok ()
  Proc.when i.failover.isSome (look .check fun _ => .ok ())
  look .check fun _ => .ok ()
  Proc.each (fun _ => do
    look .check fun _ => .ok ()
    look .read fun _ => .ok ()) layout
  absent manifestPath "already installed; disable and uninstall before replacing this build"
  (build s i).handle fun e => do
    Proc.alter fun w => { w with fs := w.rolledBack s }
    Proc.raise e

/-! ## Removing -/

/-- `_manifest`. -/
def readManifest : Program (List Entry × Identity) := do
  directories s false config
  let identity ← look .examine fun fs => identityOf s .examine fs manifestPath
  Proc.require (identity.owner = s.euid && identity.mode = 0o600)
    (.refused "invalid installation manifest ownership")
  let content ← look .read fun fs => contentOf fs manifestPath
  let document := s.decode content
  Proc.require document.isSome (.refused "invalid installation manifest")
  let entries := document.getD []
  Proc.require (entries.map Prod.fst).Nodup (.refused "duplicate installation manifest key")
  Proc.require (allowed.all (· ∈ entries.map Prod.fst) && entries.all (·.1 ∈ allowed))
    (.refused "invalid installation manifest")
  let again ← look .examine fun fs => identityOf s .examine fs manifestPath
  Proc.require (again = identity) (.refused "installation manifest changed during inspection")
  pure (entries, identity)

inductive Verdict
  | removed
  | verified
  | retained
  deriving DecidableEq

def judge (expected : Option Identity) : Option Identity → Verdict
  | none => .removed
  | some actual => if expected = some actual then .verified else .retained

/-- One round of the first loop of `uninstall`. -/
def examine (entry : Entry) : Program (Entry × Verdict) :=
  (do
    directories s false entry.1.tail
    let actual ← look .examine fun fs =>
      if fs.node entry.1 = none then .ok none else (identityOf s .examine fs entry.1).map some
    pure (entry, judge entry.2 actual)).handle fun _ => pure (entry, .retained)

def survey : List Entry → Program (List (Entry × Verdict))
  | [] => pure []
  | entry :: rest => do
    let verdict ← examine s entry
    let verdicts ← survey rest
    pure (verdict :: verdicts)

def unlink (p : Path) : Program Unit :=
  Proc.step fun c w => if c.ok then (.ok (), { w with fs := w.fs.erase p }) else (.error (.failed .unlink), w)

/-- One round of the second loop. -/
def takeAway (entry : Entry) : Program Unit := do
  let actual ← look .examine fun fs => identityOf s .examine fs entry.1
  Proc.require (entry.2 = some actual) (.refused "installation changed during removal")
  unlink entry.1

def withVerdict (verdict : Verdict) (verdicts : List (Entry × Verdict)) : List Entry :=
  (verdicts.filter (·.2 = verdict)).map Prod.fst

/-- What `uninstall` returns; its two lists are sorted there. -/
structure Removal where
  removed : List Path
  retained : List Path
  removalDeferred : Bool
  deriving DecidableEq

/-- `uninstall`. -/
def uninstall : Program Removal := do
  look .check fun _ => .ok ()
  let (entries, identity) ← readManifest s
  let verdicts ← survey s entries
  let removed := (withVerdict .removed verdicts).map Prod.fst
  let retained := (withVerdict .retained verdicts).map Prod.fst
  let verified := withVerdict .verified verdicts
  if retained ≠ [] then pure ⟨removed, retained, true⟩
  else do
    Proc.each (takeAway s) verified
    let again ← look .examine fun fs => identityOf s .examine fs manifestPath
    Proc.when (again = identity) (unlink manifestPath)
    pure ⟨removed ++ verified.map Prod.fst, [], false⟩

/-! ## Names and nodes -/

variable {s} {fs fs0 : FileSystem} {p q : Path}

open FileSystem

theorem node_eq_none : fs.node p = none ↔ p ∉ fs.names := by
  simp only [node, names, Option.map_eq_none_iff, List.find?_eq_none, List.mem_map, decide_eq_true_eq]
  exact ⟨fun none ⟨entry, mem, eq⟩ => none entry mem eq, fun none entry mem eq => none ⟨entry, mem, eq⟩⟩

theorem node_cons_self (n : Node) : node ((p, n) :: fs) p = some n := by
  simp only [node, List.find?_cons, decide_true, Option.map_some]

theorem mem_names_cons {n : Node} : q ∈ names ((p, n) :: fs) ↔ q = p ∨ q ∈ fs.names := by
  simp only [names, List.map_cons, List.mem_cons]

theorem mem_names_without {gone : List Path} : p ∈ (fs.without gone).names ↔ p ∈ fs.names ∧ p ∉ gone := by
  simp only [names, without, List.mem_map, List.mem_filter, decide_eq_true_eq]
  grind

theorem erase_eq_without (fs : FileSystem) (p : Path) : fs.erase p = fs.without [p] := by
  simp only [erase, without, List.mem_singleton, ne_eq]

theorem mem_names_erase : q ∈ (fs.erase p).names ↔ q ∈ fs.names ∧ q ≠ p := by
  rw [erase_eq_without, mem_names_without, List.mem_singleton]

theorem ne_of_absent (none : fs.node p = none) {entry : Path × Node} (mem : entry ∈ fs) : entry.1 ≠ p :=
  fun eq => node_eq_none.mp none (List.mem_map.mpr ⟨entry, mem, eq⟩)

theorem erase_new (none : fs.node p = none) (n : Node) : erase ((p, n) :: fs) p = fs := by
  rw [erase, List.filter_cons_of_neg (by simp), List.filter_eq_self]
  exact fun entry mem => decide_eq_true (ne_of_absent none mem)

theorem change_new (none : fs.node p = none) (f : File → File) (g : File) :
    change ((p, .file g) :: fs) p f = (p, .file (f g)) :: fs := by
  have rest : change fs p f = fs := by
    refine (List.map_congr_left fun entry mem => ?_).trans (List.map_id fs)
    obtain ⟨q, n⟩ := entry
    cases n with
    | file h => simp only [if_neg (ne_of_absent none mem), id_eq]
    | _ => rfl
  have head : change ((p, .file g) :: fs) p f = (p, .file (if p = p then f g else g)) :: change fs p f := rfl
  rw [head, rest, if_pos rfl]

theorem tail_ne (closed : fs.Closed) (none : fs.node p = none) (given : fs.holds p = true) (n : Node) :
    ∀ q ∈ names ((p, n) :: fs), q.tail ≠ p := by
  intro q mem eq
  have nonempty : p ≠ [] := fun eq => by rw [eq] at given; cases given
  rcases mem_names_cons.mp mem with rfl | mem
  · exact nonempty (List.length_eq_zero_iff.mp
      (by have := congrArg List.length eq; rw [List.length_tail] at this; omega))
  · rcases closed q mem with top | inside
    · exact nonempty (eq.symm.trans top)
    · exact node_eq_none.mp none (eq ▸ inside)

theorem closed_cons (closed : fs.Closed) (given : fs.holds p = true) (n : Node) : Closed ((p, n) :: fs) := by
  intro q mem
  rcases mem_names_cons.mp mem with rfl | mem
  · match q, given with
    | [_], _ => exact .inl rfl
    | _ :: name :: parent, given =>
      refine .inr (mem_names_cons.mpr (.inr (Decidable.byContradiction fun missing => ?_)))
      rw [List.tail_cons, ← node_eq_none] at missing
      rw [holds, missing] at given
      cases given
  · exact (closed q mem).imp_right fun inside => mem_names_cons.mpr (.inr inside)

/-! ## Rolling back -/

/-- A fold that at each item erases the item's name or nothing. -/
theorem foldl_erases {X : Type} {f : FileSystem → X → FileSystem} {path : X → Path}
    (either : ∀ fs x, f fs x = fs ∨ f fs x = fs.erase (path x)) :
    ∀ (xs : List X) (fs : FileSystem), (p ∈ (xs.foldl f fs).names → p ∈ fs.names) ∧
      (p ∈ fs.names → (∀ x ∈ xs, path x ≠ p) → p ∈ (xs.foldl f fs).names)
  | [], _ => ⟨id, fun mem _ => mem⟩
  | x :: xs, fs => by
    have ⟨shrinks, keeps⟩ := foldl_erases either xs (f fs x)
    rw [List.foldl_cons]
    grind [either fs x, mem_names_erase]

theorem remove_either (fs : FileSystem) (made : Path × Identity) :
    remove s fs made = fs ∨ remove s fs made = fs.erase made.1 := by
  rw [remove]
  split_ifs <;> simp

theorem rmdir_either (fs : FileSystem) (p : Path) : rmdir fs p = fs ∨ rmdir fs p = fs.erase (id p) := by
  rw [rmdir]
  split_ifs <;> simp

theorem names_rolledBack (w : World) (mem : p ∈ (w.rolledBack s).names) : p ∈ w.fs.names :=
  (foldl_erases remove_either _ _).1 ((foldl_erases rmdir_either _ _).1 mem)

theorem rolledBack_keeps {w : World} (mem : p ∈ w.fs.names) (files : ∀ x ∈ w.files, x.1 ≠ p)
    (dirs : ∀ d ∈ w.dirs, d ≠ p) : p ∈ (w.rolledBack s).names :=
  (foldl_erases rmdir_either _ _).2 ((foldl_erases remove_either _ _).2 mem files) dirs

/-- The two lists lead back to the file system of before. -/
structure Built (s : Setting) (fs0 : FileSystem) (w : World) : Prop where
  closed : w.fs.Closed
  undone : w.rolledBack s = fs0
  files : ∀ x ∈ w.files, x.1 ∈ w.fs.names
  dirs : ∀ d ∈ w.dirs, d ∈ w.fs.names

/-- Something is there that was not and that neither list names. -/
def Lost (fs0 : FileSystem) (w : World) : Prop :=
  ∃ p ∈ w.fs.names, p ∉ fs0.names ∧ (∀ x ∈ w.files, x.1 ≠ p) ∧ ∀ d ∈ w.dirs, d ≠ p

/-- The failure is not one of the two behind the handler of `_create`. -/
def Failure.handled (e : Failure) : Prop := e ≠ .failed .close ∧ e ≠ .failed .inspect

instance (e : Failure) : Decidable e.handled := inferInstanceAs (Decidable (_ ∧ _))

/-- How the work stands when it fails. -/
structure Left (s : Setting) (fs0 : FileSystem) (e : Failure) (w : World) : Prop where
  handled : e.handled → Built s fs0 w
  behind : ¬ e.handled → Lost fs0 w

theorem built_left (w : World) (e : Failure) (built : Built s fs0 w) (handled : e.handled) : Left s fs0 e w :=
  ⟨fun _ => built, fun not => absurd handled not⟩

theorem Left.rolledBack_iff {w : World} {e : Failure} (left : Left s fs0 e w) :
    w.rolledBack s = fs0 ↔ e.handled := by
  constructor
  · intro back
    refine Decidable.byContradiction fun not => ?_
    obtain ⟨p, mem, new, files, dirs⟩ := left.behind not
    exact new (back ▸ rolledBack_keeps mem files dirs)
  · exact fun handled => (left.handled handled).undone

/-- The file being made stands before what was there. -/
structure Making (s : Setting) (fs0 : FileSystem) (p : Path) (before : World) (f : File)
    (w : World) : Prop where
  built : Built s fs0 before
  new : before.fs.node p = none
  given : before.fs.holds p = true
  single : f.links = 1
  eq : w = { before with fs := (p, .file f) :: before.fs }

/-! ## What each part of an installation leaves -/

section Triples

variable {A : Type} {rely : Answer → Prop} {I P : World → Prop} {R : Failure → World → Prop}

theorem look_meets {op : Op} {f : FileSystem → Except Failure A} (alive : ∀ w, P w → I w)
    (fails : ∀ w, P w → R (.failed op) w) (errors : ∀ w e, P w → f w.fs = .error e → R e w) :
    Meets rely I P (look op f) (fun a w => P w ∧ f w.fs = .ok a) R := by
  refine meets_step alive fun w c start _ => ?_
  cases c.ok with
  | false => exact fails w start
  | true =>
    cases value : f w.fs with
    | ok a => exact ⟨start, value⟩
    | error e => exact errors w e start value

/-- A look at something that cannot be refused. -/
theorem glance_meets {op : Op} {f : FileSystem → A} (alive : ∀ w, P w → I w)
    (fails : ∀ w, P w → R (.failed op) w) :
    Meets rely I P (look op fun fs => .ok (f fs)) (fun a w => P w ∧ f w.fs = a) R :=
  meets_post (look_meets alive fails nofun) fun _ _ post => post.imp_right Except.ok.inj

/-- An operation that takes effect or fails. -/
theorem attempt_meets {Q : A → World → Prop} {can : Answer → World → Prop} [∀ c w, Decidable (can c w)]
    {value : Answer → A} {next : Answer → World → World} {e : Failure} (alive : ∀ w, P w → I w)
    (done : ∀ w c, P w → can c w → Q (value c) (next c w)) (fails : ∀ w, P w → R e w) :
    Meets rely I P (Proc.step fun c w => if can c w then (.ok (value c), next c w)
      else (.error e, w)) Q R := by
  refine meets_step alive fun w c start _ => ?_
  by_cases able : can c w
  · simpa [able] using done w c start able
  · simpa [able] using fails w start

end Triples

abbrev Always {X : Type} : X → Prop := fun _ => True

/-- A file is being made. -/
def Underway (s : Setting) (fs0 : FileSystem) (p : Path) (w : World) : Prop :=
  ∃ before f, Making s fs0 p before f w

theorem Making.lost {f : File} {before w : World} (making : Making s fs0 p before f w) : Lost fs0 w := by
  have new := node_eq_none.mp making.new
  rw [making.eq]
  refine ⟨p, mem_names_cons.mpr (.inl rfl), fun mem => new ?_, fun x mem eq => new ?_, fun d mem eq => new ?_⟩
  · exact names_rolledBack before (making.built.undone.symm ▸ mem)
  · exact eq ▸ making.built.files x mem
  · exact eq ▸ making.built.dirs d mem

theorem Making.left {f : File} {before w : World} {e : Failure} (making : Making s fs0 p before f w)
    (behind : ¬ e.handled) : Left s fs0 e w :=
  ⟨fun handled => absurd handled behind, fun _ => making.lost⟩

theorem Making.identity {f : File} {before w : World} (making : Making s fs0 p before f w) (op : Op) :
    identityOf s op w.fs p = .ok (f.identity s) := by
  rw [making.eq, identityOf, node_cons_self]
  exact if_pos making.single

theorem Making.erased {f : File} {before w : World} (making : Making s fs0 p before f w) :
    Built s fs0 { w with fs := w.fs.erase p } := by
  obtain ⟨built, new, -, -, rfl⟩ := making
  simp only [erase_new new]
  exact built

/-- Once it is recorded, a file can be undone. -/
theorem Making.recorded {f : File} {before w : World} (making : Making s fs0 p before f w)
    (entries : List (Path × Identity)) :
    Built s fs0 { w with files := (p, f.identity s) :: w.files, entries := entries } := by
  have identity := making.identity .examine
  obtain ⟨built, new, given, single, rfl⟩ := making
  refine ⟨closed_cons built.closed given _, ?_, ?_, fun d mem => mem_names_cons.mpr (.inr (built.dirs d mem))⟩
  · rw [World.rolledBack, List.foldl_cons, remove, if_pos identity, erase_new new]
    exact built.undone
  · intro x mem
    grind [mem_names_cons, built.files x]

theorem openNew_meets (mode : Nat) :
    Meets Always Always (Built s fs0) (openNew s p mode) (fun _ => Underway s fs0 p) (Left s fs0) :=
  attempt_meets (fun _ _ => trivial) (fun w _ built made => ⟨w, _, built, made.2.1, made.2.2, rfl, rfl⟩)
    fun _ built => built_left _ _ built (by decide)

/-- Where an operation on the open file fails, the file is still there. -/
def Opened (s : Setting) (fs0 : FileSystem) (p : Path) (e : Failure) (w : World) : Prop :=
  Underway s fs0 p w ∧ e.handled

theorem onFile_meets {A : Type} {op : Op} {value : Answer → A} {f : Answer → File → File}
    (handled : (Failure.failed op).handled) (links : ∀ c g, (f c g).links = g.links) :
    Meets Always Always (Underway s fs0 p) (onFile op p value f) (fun _ => Underway s fs0 p)
      (Opened s fs0 p) := by
  refine attempt_meets (fun _ _ => trivial) ?_ fun _ start => ⟨start, handled⟩
  rintro w c ⟨before, g, making⟩ -
  refine ⟨before, f c g, making.built, making.new, making.given, (links c g).trans making.single, ?_⟩
  rw [making.eq, change_new making.new]

theorem writeAll_meets : ∀ (rounds : Nat) (remaining : Bytes),
    Meets Always Always (Underway s fs0 p) (writeAll p rounds remaining) (fun _ => Underway s fs0 p)
      (Opened s fs0 p)
  | 0, _ => meets_pure fun _ start => start
  | rounds + 1, remaining =>
    meets_ite (fun _ => meets_pure fun _ start => start) fun _ =>
      meets_bind (onFile_meets (by decide) fun _ _ => rfl) fun _ =>
        meets_bind (meets_require (fun _ _ start => ⟨start, nofun, nofun⟩) fun _ _ start => start) fun _ =>
          writeAll_meets rounds _

/-- The part of `_create` under its handler. -/
theorem written_meets (content : Bytes) (mode : Nat) :
    Meets Always Always (Underway s fs0 p)
      (do
        onFile .chmod p (fun _ => ()) fun c g => { g with mode := mode, ctime := c.ctime }
        writeAll p content.length content
        look .fsync fun _ => .ok ())
      (fun _ => Underway s fs0 p) (Opened s fs0 p) :=
  meets_bind (onFile_meets (by decide) fun _ _ => rfl) fun _ => meets_bind (writeAll_meets _ _) fun _ =>
    meets_post (glance_meets (fun _ _ => trivial) fun _ start => ⟨start, by decide⟩) fun _ _ post => post.1

theorem create_meets (content : Bytes) (mode : Nat) :
    Meets Always Always (Built s fs0) (create s p content mode)
      (fun identity w => ∃ before f, Making s fs0 p before f w ∧ identity = f.identity s) (Left s fs0) := by
  refine meets_bind (openNew_meets mode) fun _ => meets_bind (M := fun _ => Underway s fs0 p)
    (meets_handle (written_meets content mode) fun e => ?handler) fun _ =>
    meets_bind (M := fun _ => Underway s fs0 p) ?close fun _ =>
      meets_post (look_meets (P := Underway s fs0 p) (fun _ _ => trivial) ?failed ?refused) ?inspected
  case handler =>
    refine meets_bind (M := fun _ w => Built s fs0 w ∧ e.handled) (meets_alter ?_) fun _ =>
      meets_raise fun w start => built_left _ _ start.1 start.2
    rintro w ⟨⟨before, f, making⟩, handled⟩
    exact ⟨making.erased, handled⟩
  case close =>
    refine meets_post (glance_meets (fun _ _ => trivial) ?_) fun _ _ post => post.1
    rintro w ⟨before, f, making⟩
    exact making.left (by decide)
  case failed =>
    rintro w ⟨before, f, making⟩
    exact making.left (by decide)
  case refused =>
    rintro w e ⟨before, f, making⟩ refused
    rw [making.identity] at refused
    cases refused
  case inspected =>
    rintro identity w ⟨⟨before, f, making⟩, known⟩
    rw [making.identity] at known
    exact ⟨before, f, making, (Except.ok.inj known).symm⟩

theorem createFile_meets (p : Path) (content : Bytes) (mode : Nat) (listed : Bool) :
    Meets Always Always (Built s fs0) (createFile s p content mode listed) (fun _ => Built s fs0)
      (Left s fs0) := by
  refine meets_bind (create_meets content mode) fun identity => meets_alter ?_
  rintro w ⟨before, f, making, rfl⟩
  exact making.recorded _

section Looks

variable {P : World → Prop} {R : Failure → World → Prop} (left : ∀ w e, P w → e.handled → R e w)

include left

/-- A look keeps what holds, and its failure is not behind a handler. -/
theorem look_keeps {A : Type} {op : Op} {f : FileSystem → Except Failure A}
    (known : (Failure.failed op).handled)
    (errors : ∀ fs e, f fs = .error e → e.handled) : Meets Always Always P (look op f) (fun _ => P) R :=
  meets_post (look_meets (fun _ _ => trivial) (fun w start => left w _ start known)
    fun w e start eq => left w e start (errors _ _ eq)) fun _ _ post => post.1

theorem require_keeps {condition : Bool} (text : String) :
    Meets Always Always P (Proc.require condition (.refused text) : Program Unit) (fun _ => P) R :=
  meets_require (fun _ w start => left w _ start ⟨nofun, nofun⟩) fun _ _ start => start

theorem absent_keeps (p : Path) (text : String) : Meets Always Always P (absent p text) (fun _ => P) R := by
  refine look_keeps left (by decide) fun fs e error => ?_
  split_ifs at error
  cases error
  exact ⟨nofun, nofun⟩

end Looks

theorem identityOf_handled {op : Op} (known : (Failure.failed op).handled) {fs : FileSystem} {e : Failure}
    (error : identityOf s op fs p = .error e) : e.handled := by
  rw [identityOf] at error
  split at error
  · split_ifs at error
    cases error
    exact ⟨nofun, nofun⟩
  all_goals
    cases error
    first
    | exact known
    | exact ⟨nofun, nofun⟩

theorem configure_meets (name : String) (content : Bytes) :
    Meets Always Always (Built s fs0) (configure s name content) (fun _ => Built s fs0) (Left s fs0) := by
  refine meets_bind (look_keeps built_left (by decide) nofun) fun found =>
    meets_ite (fun _ => createFile_meets _ _ _ _) fun _ =>
      meets_bind (look_keeps built_left (by decide) fun _ _ => identityOf_handled (by decide)) fun existing =>
        meets_bind (look_keeps built_left (by decide) fun fs e error => ?_) fun bytes =>
          require_keeps built_left _
  rw [contentOf] at error
  split at error
  · cases error
  · cases error
    decide

/-- While directories are made there are no files yet. -/
def Bare (s : Setting) (fs0 : FileSystem) (w : World) : Prop := Built s fs0 w ∧ w.files = []

theorem bare_left (w : World) (e : Failure) (bare : Bare s fs0 w) : e.handled → Left s fs0 e w :=
  built_left _ _ bare.1

theorem mkdir_meets (p : Path) :
    Meets Always Always (Bare s fs0) (mkdir s p) (fun _ => Bare s fs0) (Left s fs0) := by
  refine attempt_meets (fun _ _ => trivial) ?_ fun _ bare => built_left _ _ bare.1 (by decide)
  rintro w c ⟨built, nofiles⟩ ⟨-, new, given⟩
  have undone := built.undone
  rw [World.rolledBack, nofiles] at undone
  refine ⟨⟨closed_cons built.closed given _, ?_, ?_, ?_⟩, nofiles⟩
  · rw [World.rolledBack, nofiles, List.foldl_nil, List.foldl_cons, rmdir,
      if_pos (tail_ne built.closed new given _), erase_new new]
    exact undone
  · rw [nofiles]
    exact nofun
  · grind [mem_names_cons, built.dirs]

theorem enter_meets (create : Bool) (p : Path) :
    Meets Always Always (Bare s fs0) (enter s create p) (fun _ => Bare s fs0) (Left s fs0) := by
  refine meets_bind (M := fun _ => Bare s fs0) ?_ fun _ => require_keeps bare_left _
  refine meets_bind (look_keeps bare_left (by decide) nofun) fun found => meets_ite (fun _ => ?_) fun _ =>
    meets_pure fun _ bare => bare
  exact meets_bind (require_keeps bare_left _) fun _ => meets_bind (mkdir_meets p) fun _ =>
    look_keeps bare_left (by decide) nofun

theorem directories_meets (create : Bool) (p : Path) :
    Meets Always Always (Bare s fs0) (directories s create p) (fun _ => Bare s fs0) (Left s fs0) :=
  meets_bind (meets_each (enter_meets create) _) fun _ => meets_when
    (fun _ => meets_bind (look_keeps bare_left (by decide) nofun) fun _ => require_keeps bare_left _)
    fun _ _ bare => bare

theorem build_meets (i : Inputs) :
    Meets Always Always (Bare s fs0) (build s i) (fun _ => Built s fs0) (Left s fs0) := by
  refine meets_bind (meets_each (directories_meets true) _) fun _ => meets_pre ?_ fun _ bare => bare.1
  refine meets_bind (meets_each (fun _ => absent_keeps built_left _ _) _) fun _ => ?_
  refine meets_bind (meets_each (fun _ => configure_meets _ _) _) fun _ => ?_
  refine meets_bind (meets_each (fun _ => createFile_meets _ _ _ _) _) fun _ => ?_
  refine meets_bind (M := fun _ => Built s fs0) (meets_ask fun _ built => built) fun entries => ?_
  refine meets_bind (createFile_meets _ _ _ _) fun _ => ?_
  refine meets_bind (M := fun _ => Built s fs0) (meets_ask fun _ built => built) fun made => ?_
  refine meets_each (fun _ => ?_) _
  exact look_keeps built_left (by decide) nofun

theorem install_meets (tree : Tree) (i : Inputs) :
    Meets Always Always (fun w => w = { fs := tree.nodes }) (install s i) (fun _ => Always)
      fun e w => w.fs = tree.nodes ↔ e.handled := by
  have left : ∀ (w : World) (e : Failure), w = { fs := tree.nodes } → e.handled →
      (w.fs = tree.nodes ↔ e.handled) := fun w e start handled => ⟨fun _ => handled, fun _ => by rw [start]⟩
  have check := fun {op : Op} (known : (Failure.failed op).handled) =>
    look_keeps (f := fun _ => .ok ()) left known nofun
  refine meets_bind (check (by decide)) fun _ => meets_bind (check (by decide)) fun _ =>
    meets_bind (meets_when (fun _ => check (by decide)) fun _ _ start => start) fun _ =>
    meets_bind (check (by decide)) fun _ => meets_bind (meets_each (fun _ =>
      meets_bind (check (by decide)) fun _ => check (by decide)) _) fun _ =>
    meets_bind (absent_keeps left _ _) fun _ => meets_handle (F := Left s tree.nodes)
      (meets_mono (build_meets i)
      (fun w start => ?_) (fun _ _ _ => trivial) fun _ _ err => err) fun e =>
    meets_bind (M := fun _ w => w.fs = tree.nodes ↔ e.handled) (meets_alter fun w left => left.rolledBack_iff)
      fun _ => meets_raise fun _ back => back
  subst start
  exact ⟨⟨tree.closed, rfl, nofun, nofun⟩, rfl⟩

/-! ## What a removal reads -/

/-- What `_directories` accepts where it makes nothing. -/
def Secure (s : Setting) (fs : FileSystem) (p : Path) : Prop :=
  (∀ d ∈ walk p, safe s (fs.node d) = true) ∧ (p = config → isPrivate (fs.node p) = true)

/-- What `_manifest` accepts. -/
structure Listed (s : Setting) (fs : FileSystem) (entries : List Entry) (identity : Identity) : Prop where
  secure : Secure s fs config
  known : identityOf s .examine fs manifestPath = .ok identity
  owned : identity.owner = s.euid ∧ identity.mode = 0o600
  decoded : ∃ content, contentOf fs manifestPath = .ok content ∧ s.decode content = some entries
  distinct : (entries.map Prod.fst).Nodup
  complete : ∀ p ∈ allowed, p ∈ entries.map Prod.fst
  only : ∀ entry ∈ entries, entry.1 ∈ allowed

/-- The listed file is the one that was installed, or gone already. -/
def Agrees (s : Setting) (fs : FileSystem) (entry : Entry) : Prop :=
  Secure s fs entry.1.tail ∧
    (fs.node entry.1 = none ∨ ∃ actual, identityOf s .examine fs entry.1 = .ok actual ∧ entry.2 = some actual)

/-- There is a manifest, and no file it lists differs from it. -/
structure Ready (s : Setting) (fs : FileSystem) (entries : List Entry) (identity : Identity) : Prop where
  listed : Listed s fs entries identity
  agrees : ∀ entry ∈ entries, Agrees s fs entry

def Removable (s : Setting) (fs : FileSystem) : Prop := ∃ entries identity, Ready s fs entries identity

section Reads

variable {A B : Type} {I : World → Prop} {V : A → Prop}

/-- The procedure changes no file, and what it returns is `V`. -/
def Reads (I : World → Prop) (fs : FileSystem) (m : Program A) (V : A → Prop) : Prop :=
  Meets Always I (fun w => w.fs = fs) m (fun a w => w.fs = fs ∧ V a) fun _ w => w.fs = fs

theorem reads_pure {a : A} (value : V a) : Reads I fs (pure a) V := meets_pure fun _ start => ⟨start, value⟩

theorem reads_bind {U : B → Prop} {m : Program B} {f : B → Program A} (first : Reads I fs m U)
    (second : ∀ b, U b → Reads I fs (f b) V) : Reads I fs (m >>= f) V :=
  meets_bind first fun b => meets_given (second b)

theorem reads_require {condition : Bool} {e : Failure} :
    Reads I fs (Proc.require condition e) fun _ => condition = true :=
  meets_require (fun _ _ start => start) fun holds _ start => ⟨start, holds⟩

theorem reads_handle {m : Program A} {h : Failure → Program A} (first : Reads I fs m V)
    (second : ∀ e, Reads I fs (h e) V) : Reads I fs (m.handle h) V :=
  meets_handle first second

theorem reads_each {f : B → Program Unit} {U : B → Prop} (body : ∀ b, Reads I fs (f b) fun _ => U b) :
    ∀ bs : List B, Reads I fs (Proc.each f bs) fun _ => ∀ b ∈ bs, U b
  | [] => reads_pure nofun
  | b :: bs => reads_bind (body b) fun _ first => meets_post (reads_each body bs)
      fun _ _ post => post.imp_right fun rest => List.forall_mem_cons.mpr ⟨first, rest⟩

variable (alive : ∀ w : World, w.fs = fs → I w)

include alive

theorem reads_look {op : Op} {f : FileSystem → Except Failure A} :
    Reads I fs (look op f) fun a => f fs = .ok a :=
  meets_post (look_meets alive (fun _ start => start) fun _ _ start _ => start)
    fun _ _ post => ⟨post.1, post.1 ▸ post.2⟩

theorem enter_reads (p : Path) : Reads I fs (enter s false p) fun _ => safe s (fs.node p) = true := by
  have found : Reads I fs (info s false p) (· = fs.node p) := by
    refine reads_bind (reads_look alive) fun found known => ?_
    refine meets_ite (fun _ => ?_) fun _ => reads_pure (Except.ok.inj known).symm
    exact reads_bind reads_require nofun
  refine reads_bind found fun info known => ?_
  rw [← known]
  exact reads_require

theorem directories_reads (p : Path) : Reads I fs (directories s false p) fun _ => Secure s fs p := by
  refine reads_bind (reads_each (enter_reads alive) _) fun _ along =>
    meets_when (fun _ => ?_) fun other w start =>
    ⟨start, along, fun eq => absurd eq (of_decide_eq_false other)⟩
  refine reads_bind (reads_look alive) fun found known => meets_post reads_require
    fun _ _ post => post.imp_right fun secret => ⟨along, fun _ => ?_⟩
  rwa [← Except.ok.inj known] at secret

theorem readManifest_reads : Reads I fs (readManifest s) fun found => Listed s fs found.1 found.2 := by
  refine reads_bind (directories_reads alive config) fun _ secure => ?_
  refine reads_bind (reads_look alive) fun identity known => ?_
  refine reads_bind reads_require fun _ owned => reads_bind (reads_look alive) fun content found => ?_
  refine reads_bind reads_require fun _ decoded => reads_bind reads_require fun _ distinct => ?_
  refine reads_bind reads_require fun _ names => reads_bind (reads_look alive) fun again _ => ?_
  refine reads_bind reads_require fun _ _ => reads_pure ?_
  obtain ⟨entries, decoded⟩ := Option.isSome_iff_exists.mp decoded
  simp only [decoded, Option.getD_some, Bool.and_eq_true, List.all_eq_true,
    decide_eq_true_eq] at owned distinct names ⊢
  exact ⟨secure, known, owned, ⟨content, found, decoded⟩, distinct, names.1, names.2⟩

/-- What a verdict says of the entry. -/
def Judged (s : Setting) (fs : FileSystem) (entry : Entry) : Verdict → Prop
  | .removed => Agrees s fs entry ∧ fs.node entry.1 = none
  | .verified => Agrees s fs entry ∧ ∃ actual, identityOf s .examine fs entry.1 = .ok actual ∧
      entry.2 = some actual
  | .retained => True

omit alive in
theorem judged {entry : Entry} {actual : Option Identity} (secure : Secure s fs entry.1.tail)
    (known : (if fs.node entry.1 = none then .ok none else (identityOf s .examine fs entry.1).map some) =
      Except.ok actual) : Judged s fs entry (judge entry.2 actual) := by
  split_ifs at known with gone
  · cases known
    exact ⟨⟨secure, .inl gone⟩, gone⟩
  · cases found : identityOf s .examine fs entry.1 with
    | error e => rw [found] at known; cases known
    | ok identity =>
      rw [found] at known
      cases known
      rw [judge]
      split_ifs with same
      · exact ⟨⟨secure, .inr ⟨identity, found, same⟩⟩, identity, found, same⟩
      · trivial

theorem examine_reads (entry : Entry) :
    Reads I fs (examine s entry) fun found => found.1 = entry ∧ Judged s fs entry found.2 :=
  reads_handle (reads_bind (directories_reads alive _) fun _ secure =>
    reads_bind (reads_look alive) fun _ known =>
    reads_pure ⟨rfl, judged secure known⟩) fun _ => reads_pure ⟨rfl, trivial⟩

theorem survey_reads : ∀ entries : List Entry,
    Reads I fs (survey s entries) fun found => found.map Prod.fst = entries ∧ ∀ v ∈ found, Judged s fs v.1 v.2
  | [] => reads_pure ⟨rfl, nofun⟩
  | entry :: entries => by
    refine reads_bind (examine_reads alive entry) fun head first => ?_
    refine reads_bind (survey_reads entries) fun tail rest => reads_pure ⟨?_, ?_⟩
    · rw [List.map_cons, first.1, rest.1]
    · exact List.forall_mem_cons.mpr ⟨first.1.symm ▸ first.2, rest.2⟩

end Reads

/-! ## What a removal takes away -/

theorem node_without {gone : List Path} (out : p ∉ gone) : (fs.without gone).node p = fs.node p := by
  rw [node, without, List.find?_filter, node]
  congr 2
  funext entry
  by_cases eq : entry.1 = p
  · simp [eq, out]
  · simp [eq]

theorem erase_without (gone : List Path) (p : Path) : (fs.without gone).erase p = fs.without (p :: gone) := by
  simp only [erase, without, List.filter_filter, List.mem_cons, not_or, Bool.decide_and, ne_eq]

/-- Only what is there matters. -/
theorem without_congr {gone other : List Path} (same : ∀ p ∈ fs.names, p ∈ gone ↔ p ∈ other) :
    fs.without gone = fs.without other := by
  refine List.filter_congr fun entry mem => ?_
  rw [decide_eq_decide, same entry.1 (List.mem_map.mpr ⟨entry, mem, rfl⟩)]

theorem without_nil : fs.without [] = fs :=
  List.filter_eq_self.mpr fun _ _ => decide_eq_true List.not_mem_nil

theorem without_without (gone other : List Path) :
    (fs.without gone).without other = fs.without (other ++ gone) := by
  simp only [without, List.filter_filter, List.mem_append, not_or, Bool.decide_and]

/-- Some listed files are gone, and nothing else. -/
def Partly (s : Setting) (fs : FileSystem) (w : World) : Prop :=
  w.fs = fs ∨ Removable s fs ∧ ∃ gone, (∀ p ∈ gone, p ∈ allowed) ∧ w.fs = fs.without gone

/-- Between two rounds of the second loop. -/
structure Taking (fs : FileSystem) (rest : List Entry) (gone : List Path) (w : World) : Prop where
  within : ∀ p ∈ gone, p ∈ allowed
  eq : w.fs = fs.without gone
  covers : ∀ p ∈ allowed, p ∈ gone ∨ p ∈ rest.map Prod.fst ∨ fs.node p = none

theorem takeAway_meets (removable : Removable s fs) {entry : Entry} {rest : List Entry}
    (listed : entry.1 ∈ allowed) :
    Meets Always (Partly s fs) (fun w => ∃ gone, Taking fs (entry :: rest) gone w) (takeAway s entry)
      (fun _ w => ∃ gone, Taking fs rest gone w) fun _ => Partly s fs := by
  have stopped : ∀ w, (∃ gone, Taking fs (entry :: rest) gone w) → Partly s fs w :=
    fun w ⟨gone, taking⟩ => .inr ⟨removable, gone, taking.within, taking.eq⟩
  refine meets_bind (look_meets stopped stopped fun w _ taking _ => stopped w taking) fun actual => meets_bind
    (M := fun _ w => ∃ gone, Taking fs (entry :: rest) gone w)
    (meets_require (fun _ w taking => stopped w taking.1) fun _ _ taking => taking.1) fun _ =>
    attempt_meets stopped ?_ stopped
  rintro w c ⟨gone, taking⟩ -
  refine ⟨entry.1 :: gone, List.forall_mem_cons.mpr ⟨listed, taking.within⟩, ?_, fun p mem => ?_⟩
  · rw [← erase_without, ← taking.eq]
  · grind [taking.covers p mem]

theorem Taking.all {w : World} {gone : List Path} (taking : Taking fs [] gone w) :
    w.fs = fs.without allowed := by
  refine taking.eq.trans (without_congr fun p mem => ⟨taking.within p, fun listed => ?_⟩)
  rcases taking.covers p listed with out | next | none
  · exact out
  · cases next
  · exact absurd mem (node_eq_none.mp none)

theorem mem_withVerdict {verdict : Verdict} {verdicts : List (Entry × Verdict)} {entry : Entry} :
    entry ∈ withVerdict verdict verdicts ↔ (entry, verdict) ∈ verdicts := by
  simp [withVerdict]

theorem manifestPath_not_allowed : manifestPath ∉ allowed := by decide

theorem identityOf_without {gone : List Path} (out : p ∉ gone) (op : Op) :
    identityOf s op (fs.without gone) p = identityOf s op fs p := by
  rw [identityOf, node_without out, identityOf]

/-- A survey that found nothing to retain. -/
structure Surveyed (s : Setting) (fs : FileSystem) (entries : List Entry)
    (verdicts : List (Entry × Verdict)) :
    Prop where
  same : verdicts.map Prod.fst = entries
  judged : ∀ v ∈ verdicts, Judged s fs v.1 v.2
  kept : withVerdict .retained verdicts = []

section Surveyed

variable {entries : List Entry} {identity : Identity} {verdicts : List (Entry × Verdict)}

theorem Surveyed.verdict (found : Surveyed s fs entries verdicts) {entry : Entry} (mem : entry ∈ entries) :
    fs.node entry.1 = none ∧ Agrees s fs entry ∨ entry ∈ withVerdict .verified verdicts ∧
    Agrees s fs entry := by
  rw [← found.same] at mem
  obtain ⟨⟨entry, verdict⟩, judged, rfl⟩ := List.mem_map.mp mem
  have known := found.judged _ judged
  cases verdict with
  | removed => exact .inl ⟨known.2, known.1⟩
  | verified => exact .inr ⟨mem_withVerdict.mpr judged, known.1⟩
  | retained =>
    have kept := mem_withVerdict.mpr judged
    rw [found.kept] at kept
    cases kept

theorem Surveyed.removable (found : Surveyed s fs entries verdicts) (listed : Listed s fs entries identity) :
    Removable s fs :=
  ⟨entries, identity, listed, fun _ mem => (found.verdict mem).elim And.right And.right⟩

theorem Surveyed.inside (found : Surveyed s fs entries verdicts) (listed : Listed s fs entries identity)
    {entry : Entry} (mem : entry ∈ withVerdict .verified verdicts) : entry.1 ∈ allowed :=
  listed.only entry (found.same ▸ List.mem_map.mpr ⟨_, mem_withVerdict.mp mem, rfl⟩)

/-- The second loop starts with every listed file that is there before it. -/
theorem Surveyed.start (found : Surveyed s fs entries verdicts)
    (listed : Listed s fs entries identity) {w : World}
    (same : w.fs = fs) : Taking fs (withVerdict .verified verdicts) [] w := by
  refine ⟨nofun, same.trans without_nil.symm, fun p mem => .inr ?_⟩
  obtain ⟨entry, named, rfl⟩ := List.mem_map.mp (listed.complete p mem)
  rcases found.verdict named with ⟨gone, -⟩ | ⟨verified, -⟩
  · exact .inr gone
  · exact .inl (List.mem_map.mpr ⟨entry, verified, rfl⟩)

/-- From the second loop to the end. -/
theorem clear_meets (found : Surveyed s fs entries verdicts) (listed : Listed s fs entries identity)
    {removed : List Path} :
    Meets Always (Partly s fs) (fun w => w.fs = fs)
      (do
        Proc.each (takeAway s) (withVerdict .verified verdicts)
        let again ← look .examine fun fs => identityOf s .examine fs manifestPath
        Proc.when (again = identity) (unlink manifestPath)
        pure (⟨removed, [], false⟩ : Removal))
      (fun _ w => w.fs = fs.without (manifestPath :: allowed)) fun _ => Partly s fs := by
  have removable := found.removable listed
  have stopped : ∀ w, (∃ gone, Taking fs [] gone w) → Partly s fs w :=
    fun w ⟨gone, taking⟩ => .inr ⟨removable, gone, taking.within, taking.eq⟩
  refine meets_bind (meets_pre (meets_each_rest (J := fun rest w => ∃ gone, Taking fs rest gone w) _
    fun front entry rest split => takeAway_meets removable
      (found.inside listed (split ▸ List.mem_append_right _
      List.mem_cons_self))) fun w same => ⟨[], found.start listed same⟩) fun _ => ?_
  refine meets_bind (look_meets stopped stopped fun w _ taking _ => stopped w taking) fun again => meets_bind
    (M := fun _ w => w.fs = fs.without (manifestPath :: allowed)) (meets_when (fun _ => attempt_meets
      (fun w taking => stopped w taking.1) ?unlinked fun w taking => stopped w taking.1) ?changed) fun _ =>
    meets_pure fun _ done => done
  case unlinked =>
    rintro w c ⟨⟨gone, taking⟩, -⟩ -
    rw [← erase_without, ← taking.all]
  case changed =>
    -- the manifest is still the one that was read
    rintro changed w ⟨⟨gone, taking⟩, known⟩
    rw [taking.all, identityOf_without manifestPath_not_allowed, listed.known] at known
    exact absurd (Except.ok.inj known).symm (of_decide_eq_false changed)

end Surveyed

/-- What a removal returns with, and where it can be stopped. -/
theorem uninstall_meets (fs : FileSystem) :
    Meets Always (Partly s fs) (fun w => w.fs = fs) (uninstall s)
      (fun found w => found.removalDeferred = true ∧ w.fs = fs ∨
        Removable s fs ∧ w.fs = fs.without (manifestPath :: allowed))
      fun _ => Partly s fs := by
  have alive : ∀ w : World, w.fs = fs → Partly s fs w := fun _ same => .inl same
  have read : ∀ {A : Type} {m : Program A} {V : A → Prop}, Reads (Partly s fs) fs m V →
      Meets Always (Partly s fs) (fun w => w.fs = fs) m (fun a w => w.fs = fs ∧ V a) fun _ => Partly s fs :=
    fun reads => meets_mono reads (fun _ start => start) (fun _ _ post => post) fun _ w => alive w
  refine meets_bind (read (reads_look alive)) fun _ => meets_given fun _ =>
    meets_bind (read (readManifest_reads alive)) fun ⟨entries, identity⟩ => meets_given fun listed =>
    meets_bind (read (survey_reads alive entries)) fun verdicts => meets_given fun ⟨same, judged⟩ =>
    meets_ite (fun _ => meets_pure fun _ start => .inl ⟨rfl, start⟩) fun none => ?_
  rw [ne_eq, not_not, List.map_eq_nil_iff] at none
  have found : Surveyed s fs entries verdicts := ⟨same, judged, none⟩
  exact meets_post (clear_meets found listed) fun _ _ done => .inr ⟨found.removable listed, done⟩

/-! ## A removal that nothing stops -/

section Completions

variable {good : Answer} (fine : good.ok = true) {w : World}

include fine

theorem look_completes {A : Type} {op : Op} {f : FileSystem → Except Failure A} {a : A}
    (known : f w.fs = .ok a) :
    Completes good (look op f) w a w :=
  completes_step (by rw [if_pos fine, known])

theorem directories_completes (secure : Secure s w.fs p) : Completes good (directories s false p) w () w := by
  refine completes_bind (completes_each_still fun d mem => ?_) (completes_when (fun eq => ?_) fun _ => rfl)
  · have there : w.fs.node d ≠ none := fun none => by
      have known := secure.1 d mem
      rw [none] at known
      cases known
    have found : Completes good (info s false d) w (w.fs.node d) w := by
      refine completes_bind (look_completes fine rfl) ?_
      rw [if_neg there]
      exact completes_pure _
    exact completes_bind found (completes_require (secure.1 d mem))
  · exact completes_bind (look_completes fine rfl) (completes_require (secure.2 (of_decide_eq_true eq)))

theorem readManifest_completes {entries : List Entry} {identity : Identity}
    (listed : Listed s w.fs entries identity) :
    Completes good (readManifest s) w (entries, identity) w := by
  obtain ⟨content, found, decoded⟩ := listed.decoded
  have owned : (decide (identity.owner = s.euid) && decide (identity.mode = 0o600)) = true := by
    rw [Bool.and_eq_true, decide_eq_true_eq, decide_eq_true_eq]
    exact listed.owned
  have names : (allowed.all (decide <| · ∈ entries.map Prod.fst) &&
      entries.all (decide <| ·.1 ∈ allowed)) = true := by
    rw [Bool.and_eq_true, List.all_eq_true, List.all_eq_true]
    exact ⟨fun p mem => decide_eq_true (listed.complete p mem),
      fun entry mem => decide_eq_true (listed.only entry mem)⟩
  refine completes_bind (directories_completes fine listed.secure) ?_
  refine completes_bind (look_completes fine listed.known) (completes_bind (completes_require owned) ?_)
  refine completes_bind (look_completes fine (f := fun fs => contentOf fs manifestPath) found) ?_
  rw [decoded]
  refine completes_bind (completes_require rfl)
    (completes_bind (completes_require (decide_eq_true listed.distinct)) ?_)
  refine completes_bind (completes_require names) (completes_bind (look_completes fine listed.known) ?_)
  exact completes_bind (completes_require (decide_eq_true rfl)) (completes_pure _)

theorem examine_completes {entry : Entry} (agrees : Agrees s w.fs entry) :
    ∃ verdict, verdict ≠ .retained ∧ Completes good (examine s entry) w (entry, verdict) w := by
  obtain ⟨secure, gone | ⟨actual, known, same⟩⟩ := agrees
  · refine ⟨.removed, nofun, completes_handle (completes_bind (directories_completes fine secure)
      (completes_bind (look_completes fine (if_pos gone)) (completes_pure _)))⟩
  · have there : w.fs.node entry.1 ≠ none := fun none => by
      rw [identityOf, none] at known
      cases known
    have judged : judge entry.2 (some actual) = .verified := if_pos same
    refine ⟨.verified, nofun, completes_handle (completes_bind (directories_completes fine secure)
      (completes_bind (look_completes fine ((if_neg there).trans (by rw [known]; rfl))) ?_))⟩
    rw [judged]
    exact completes_pure _

theorem survey_completes : ∀ {entries : List Entry}, (∀ entry ∈ entries, Agrees s w.fs entry) →
    ∃ verdicts, (∀ v ∈ verdicts, v.2 ≠ .retained) ∧ Completes good (survey s entries) w verdicts w
  | [], _ => ⟨[], nofun, completes_pure _⟩
  | entry :: entries, agrees => by
    obtain ⟨verdict, kept, first⟩ := examine_completes fine (agrees entry List.mem_cons_self)
    obtain ⟨verdicts, rest, later⟩ :=
      survey_completes fun entry mem => agrees entry (List.mem_cons_of_mem _ mem)
    exact ⟨(entry, verdict) :: verdicts, List.forall_mem_cons.mpr ⟨kept, rest⟩,
      completes_bind first (completes_bind later (completes_pure _))⟩

/-- The world after an entry was taken away. -/
def World.less (w : World) (entry : Entry) : World := { w with fs := w.fs.erase entry.1 }

omit fine in
theorem node_less : ∀ (entries : List Entry) (w : World), p ∉ entries.map Prod.fst →
    (entries.foldl World.less w).fs.node p = w.fs.node p
  | [], _, _ => rfl
  | entry :: entries, w, out => by
    rw [List.map_cons, List.mem_cons, not_or] at out
    have head : (w.less entry).fs.node p = w.fs.node p := by
      rw [World.less, erase_eq_without, node_without (by rw [List.mem_singleton]; exact out.1)]
    rw [List.foldl_cons, node_less entries _ out.2, head]

theorem takeAway_completes {entries : List Entry} (distinct : (entries.map Prod.fst).Nodup)
    (known : ∀ entry ∈ entries, ∃ actual, identityOf s .examine w.fs entry.1 = .ok actual ∧
      entry.2 = some actual) :
    Completes good (Proc.each (takeAway s) entries) w () (entries.foldl World.less w) := by
  refine completes_each World.less entries w fun front entry rest split => ?_
  obtain ⟨actual, found, same⟩ := known entry (split ▸ List.mem_append_right _ List.mem_cons_self)
  have out : entry.1 ∉ front.map Prod.fst := by
    rw [split, List.map_append, List.nodup_append] at distinct
    exact fun mem => distinct.2.2 _ mem _ List.mem_cons_self rfl
  refine completes_bind (look_completes fine (a := actual) ?_)
    (completes_bind (completes_require (decide_eq_true same))
    (completes_step (by rw [if_pos fine]; rfl)))
  rw [identityOf, node_less front w out, ← identityOf]
  exact found

/-- **A removal that nothing stops takes everything away.** -/
theorem uninstall_completes (removable : Removable s fs) :
    ∃ answers found, (uninstall s { fs := fs } answers).1 = .ok found ∧ found.removalDeferred = false ∧
      (uninstall s { fs := fs } answers).2.1.fs = fs.without (manifestPath :: allowed) := by
  obtain ⟨entries, identity, listed, agrees⟩ := removable
  obtain ⟨verdicts, noneRetained, surveyed⟩ := survey_completes (w := { fs := fs }) fine agrees
  have ⟨same, judged⟩ := (surveyed.meets (survey_reads (I := Always) (fun _ _ => trivial) entries)
    rfl trivial).2
  have kept : withVerdict .retained verdicts = [] :=
    List.eq_nil_iff_forall_not_mem.mpr fun entry mem => noneRetained _ (mem_withVerdict.mp mem) rfl
  have distinct : ((withVerdict .verified verdicts).map Prod.fst).Nodup :=
    ((List.filter_sublist.map Prod.fst).map Prod.fst).nodup (same.symm ▸ listed.distinct)
  have inside : ∀ entry ∈ withVerdict .verified verdicts, entry.1 ∈ allowed := fun entry mem =>
    listed.only entry (same ▸ List.mem_map.mpr ⟨_, mem_withVerdict.mp mem, rfl⟩)
  have taken := takeAway_completes (w := { fs := fs }) fine distinct fun entry mem =>
    (judged _ (mem_withVerdict.mp mem)).2
  have manifest : identityOf s .examine ((withVerdict .verified verdicts).foldl World.less { fs := fs }).fs
      manifestPath = .ok identity := by
    rw [identityOf, node_less _ _ fun mem => ?_, ← identityOf]
    · exact listed.known
    · obtain ⟨entry, mem, eq⟩ := List.mem_map.mp mem
      exact manifestPath_not_allowed (eq ▸ inside entry mem)
  have run : Completes good (uninstall s) { fs := fs }
      ⟨(withVerdict .removed verdicts).map Prod.fst ++
        (withVerdict .verified verdicts).map Prod.fst, [], false⟩
      (((withVerdict .verified verdicts).foldl World.less { fs := fs }).less (manifestPath, none)) := by
    refine completes_bind (look_completes fine rfl) (completes_bind (readManifest_completes fine listed)
      (completes_bind surveyed ?_))
    rw [if_neg (by rw [kept, List.map_nil]; exact not_not.mpr rfl)]
    refine completes_bind taken (completes_bind (look_completes fine manifest)
      (completes_bind (b := ()) ?_ (completes_pure _)))
    exact completes_when (fun _ => completes_step (by rw [if_pos fine]; rfl)) fun never =>
      absurd rfl (of_decide_eq_false never)
  obtain deferred | ⟨-, gone⟩ := run.meets (uninstall_meets fs) rfl trivial
  · cases deferred.1
  · obtain ⟨n, eq⟩ := run
    refine ⟨List.replicate n good ++ [], _, by rw [eq], rfl, ?_⟩
    rw [eq]
    exact gone

end Completions

/-! ## Removing again and again -/

theorem secure_without {gone : List Path} (within : ∀ p ∈ gone, p ∈ allowed)
    (apart : ∀ d ∈ walk p, d ∉ allowed)
    (secure : Secure s fs p) (nonempty : p ≠ []) : Secure s (fs.without gone) p := by
  have out : ∀ d ∈ walk p, d ∉ gone := fun d mem out => apart d mem (within d out)
  have last : p ∈ walk p := by
    cases p with
    | nil => exact absurd rfl nonempty
    | cons name parent => exact List.mem_append_right _ List.mem_cons_self
  refine ⟨fun d mem => ?_, fun eq => ?_⟩
  · rw [node_without (out d mem)]
    exact secure.1 d mem
  · rw [node_without (out p last)]
    exact secure.2 eq

/-- The directories of what is installed are not themselves installed. -/
theorem allowed_apart : ∀ p ∈ config :: allowed.map List.tail, p ≠ [] ∧ ∀ d ∈ walk p, d ∉ allowed := by decide

theorem removable_without {gone : List Path} (within : ∀ p ∈ gone, p ∈ allowed) (removable : Removable s fs) :
    Removable s (fs.without gone) := by
  obtain ⟨entries, identity, listed, agrees⟩ := removable
  have out : manifestPath ∉ gone := fun mem => manifestPath_not_allowed (within _ mem)
  refine ⟨entries, identity, ⟨?_, ?_, listed.owned, ?_, listed.distinct, listed.complete, listed.only⟩, ?_⟩
  · have ⟨nonempty, apart⟩ := allowed_apart config List.mem_cons_self
    exact secure_without within apart listed.secure nonempty
  · rw [identityOf_without out]
    exact listed.known
  · obtain ⟨content, found, decoded⟩ := listed.decoded
    refine ⟨content, ?_, decoded⟩
    rw [contentOf, node_without out, ← contentOf]
    exact found
  · intro entry mem
    have ⟨nonempty, apart⟩ := allowed_apart entry.1.tail
      (List.mem_cons_of_mem _ (List.mem_map_of_mem (listed.only entry mem)))
    obtain ⟨secure, same⟩ := agrees entry mem
    refine ⟨secure_without within apart secure nonempty, ?_⟩
    by_cases taken : entry.1 ∈ gone
    · exact .inl (node_eq_none.mpr fun there => (mem_names_without.mp there).2 taken)
    · rw [node_without taken, identityOf_without taken]
      exact same

theorem not_removable_after : ¬ Removable s (fs.without (manifestPath :: allowed)) := by
  rintro ⟨entries, identity, listed, -⟩
  have gone : (fs.without (manifestPath :: allowed)).node manifestPath = none :=
    node_eq_none.mpr fun there => (mem_names_without.mp there).2 List.mem_cons_self
  have known := listed.known
  rw [identityOf, gone] at known
  cases known

/-- What one run of `uninstall` leaves, wherever it stops. -/
theorem uninstall_leaves (fs : FileSystem) (answers : List Answer) :
    Partly s fs (uninstall s { fs := fs } answers).2.1 ∨
      Removable s fs ∧ (uninstall s { fs := fs } answers).2.1.fs = fs.without (manifestPath :: allowed) :=
  (uninstall_meets fs).after (J := fun _ w => Partly s fs w ∨ Removable s fs ∧
    w.fs = fs.without (manifestPath :: allowed))
    rfl (fun _ _ => trivial) (fun _ _ post => post.imp (fun deferred => .inl deferred.2) id) (fun _ _ => .inl)
    fun _ => .inl

variable (s) in
/-- The file system after removals that were run one after another, each as far as its answers go. -/
def after (fs : FileSystem) (runs : List (List Answer)) : FileSystem :=
  runs.foldl (fun fs answers => (uninstall s { fs := fs } answers).2.1.fs) fs

theorem after_of_not_removable (not : ¬ Removable s fs) : ∀ runs : List (List Answer), after s fs runs = fs
  | [] => rfl
  | answers :: runs => by
    have same : (uninstall s { fs := fs } answers).2.1.fs = fs := by
      rcases uninstall_leaves (s := s) fs answers with (same | some) | all
      · exact same
      · exact absurd some.1 not
      · exact absurd all.1 not
    have rest := after_of_not_removable not runs
    rw [after] at rest ⊢
    rw [List.foldl_cons, same]
    exact rest

/-- Some listed files are gone and a removal can still be finished, or everything is gone. -/
theorem after_of_removable : ∀ (runs : List (List Answer)) {fs : FileSystem}, Removable s fs →
    (∃ gone, (∀ p ∈ gone, p ∈ allowed) ∧ after s fs runs = fs.without gone ∧ Removable s (after s fs runs)) ∨
      after s fs runs = fs.without (manifestPath :: allowed)
  | [], fs, removable => .inl ⟨[], nofun, without_nil.symm, removable⟩
  | answers :: runs, fs, removable => by
    have cons : after s fs (answers :: runs) = after s (uninstall s { fs := fs } answers).2.1.fs runs := rfl
    have part : Partly s fs (uninstall s { fs := fs } answers).2.1 → ∃ gone, (∀ p ∈ gone, p ∈ allowed) ∧
        (uninstall s { fs := fs } answers).2.1.fs = fs.without gone := by
      rintro (same | ⟨-, some⟩)
      · exact ⟨[], nofun, same.trans without_nil.symm⟩
      · exact some
    rw [cons]
    rcases uninstall_leaves (s := s) fs answers with partly | ⟨-, all⟩
    · obtain ⟨gone, within, eq⟩ := part partly
      rw [eq]
      rcases after_of_removable runs (removable_without within removable) with ⟨more, also, run, still⟩ | all
      · exact .inl ⟨more ++ gone, fun p mem => (List.mem_append.mp mem).elim (also p) (within p),
          run.trans (without_without gone more), still⟩
      · refine .inr (all.trans ((without_without gone _).trans (without_congr fun p _ => ?_)))
        exact ⟨fun mem => (List.mem_append.mp mem).elim id fun mem => List.mem_cons_of_mem _ (within p mem),
          List.mem_append_left gone⟩
    · rw [all, after_of_not_removable not_removable_after]
      exact .inr rfl

/-- **Installations and removals are whole.** An installation that fails leaves the file system as it was,
exactly if it did not fail in closing or inspecting a file it had just made. Removals take nothing away
unless every listed file agrees with the manifest; then, wherever they are stopped, they have taken
listed files only and can be finished, or have taken all of them and the manifest. -/
theorem installation_whole (s : Setting) (tree : Tree) :
    (∀ (i : Inputs) (answers : List Answer) (e : Failure),
      (install s i { fs := tree.nodes } answers).1 = .raised e →
        ((install s i { fs := tree.nodes } answers).2.1.fs = tree.nodes ↔
          e ≠ .failed .close ∧ e ≠ .failed .inspect)) ∧
    (¬ Removable s tree.nodes → ∀ runs, after s tree.nodes runs = tree.nodes) ∧
    (Removable s tree.nodes → ∀ runs,
      (∃ gone, (∀ p ∈ gone, p ∈ allowed) ∧ after s tree.nodes runs = tree.nodes.without gone ∧
        ∃ answers, after s tree.nodes (runs ++ [answers]) = tree.nodes.without (manifestPath :: allowed)) ∨
      after s tree.nodes runs = tree.nodes.without (manifestPath :: allowed)) ∧
    ∀ runs name, name ≠ "installation.json" →
      (after s tree.nodes runs).node (name :: config) = tree.nodes.node (name :: config) := by
  refine ⟨fun i answers e raised => ?_, after_of_not_removable, fun removable runs => ?_,
    fun runs name other => ?_⟩
  · refine (install_meets (s := s) tree i).after (J := fun outcome w =>
      outcome = .raised e → (w.fs = tree.nodes ↔ e.handled)) rfl (fun _ _ => trivial) (fun _ _ _ => nofun) ?_
      (fun _ _ => nofun) raised
    intro e' w left eq
    exact Outcome.raised.inj eq ▸ left
  · refine (after_of_removable runs removable).imp_left fun ⟨gone, within, eq, still⟩ =>
      ⟨gone, within, eq, ?_⟩
    obtain ⟨answers, found, -, -, finished⟩ :=
      uninstall_completes (rfl : Answer.ok { ok := true } = true) still
    refine ⟨answers, ?_⟩
    have last : after s tree.nodes (runs ++ [answers]) =
        (uninstall s { fs := after s tree.nodes runs } answers).2.1.fs := List.foldl_append
    rw [last, finished, eq, without_without]
    refine without_congr fun p _ => ⟨fun mem => ?_, List.mem_append_left gone⟩
    exact (List.mem_append.mp mem).elim id fun mem => List.mem_cons_of_mem _ (within p mem)
  · have out : name :: config ∉ manifestPath :: allowed := by
      rw [List.mem_cons, not_or]
      refine ⟨fun eq => other (List.cons.inj eq).1, fun mem => ?_⟩
      have apart : ∀ p ∈ allowed, p.tail ≠ config := by decide
      exact apart _ mem rfl
    by_cases removable : Removable s tree.nodes
    · rcases after_of_removable runs removable with ⟨gone, within, eq, -⟩ | eq
      · rw [eq, node_without fun mem => out (List.mem_cons_of_mem _ (within _ mem))]
      · rw [eq, node_without out]
    · rw [after_of_not_removable removable]

/-! ## Poles -/

/-- A setting in which every digest is the same and every manifest lists what is installed. -/
def plain : Setting where
  euid := 0
  sha256 _ := 0
  encode _ := []
  decode _ := some ((layout.map fun (_, p, mode) => (p, some ⟨0, 0, 0, 0, mode, 0⟩)) ++
    [(command, some ⟨0, 0, 0, 0, 0o755, 0⟩)])

def blank : Inputs where
  artifact _ := []
  profile := []
  settings := []
  failover := none

def empty : Tree := ⟨[], nofun⟩

/-- Answers that let this many operations succeed, and then one fail. -/
def failsAfter (n : Nat) : List Answer := List.replicate n { ok := true, wrote := 200 } ++ [{ ok := false }]

/-- The first file's inspection fails: the file stays, and with it its directories. -/
theorem inspection_leaves_file :
    (install plain blank { fs := empty.nodes } (failsAfter 53)).1 = .raised (.failed .inspect) ∧
      (install plain blank { fs := empty.nodes } (failsAfter 53)).2.1.fs ≠ empty.nodes := by
  decide +kernel

/-- What an installation leaves in which nothing fails. -/
def installed : Tree := ⟨(install plain blank { fs := empty.nodes } (failsAfter 100)).2.1.fs, by
  unfold FileSystem.Closed
  decide +kernel⟩

/-- An installation that fails at its second file leaves nothing. A removal of what was installed that
fails after two files can be finished, and the configuration stays. -/
theorem installation_whole_stopped :
    (install plain blank { fs := empty.nodes } (failsAfter 57)).2.1.fs = empty.nodes ∧
      (after plain installed.nodes [failsAfter 36]).names.length + 2 = installed.nodes.names.length ∧
      (∃ answers, after plain installed.nodes [failsAfter 36, answers] =
        installed.nodes.without (manifestPath :: allowed)) ∧
      (after plain installed.nodes [failsAfter 36]).node ("profile.conf" :: config) =
        installed.nodes.node ("profile.conf" :: config) := by
  obtain ⟨failing, -⟩ := installation_whole plain empty
  obtain ⟨-, kept, removed, configuration⟩ := installation_whole plain installed
  have raised : (install plain blank { fs := empty.nodes } (failsAfter 57)).1 = .raised (.failed .fsync) := by
    decide +kernel
  have two : (after plain installed.nodes [failsAfter 36]).names.length + 2 =
      installed.nodes.names.length := by
    decide +kernel
  have removable : Removable plain installed.nodes := by
    by_contra not
    rw [kept not] at two
    omega
  refine ⟨(failing blank _ _ raised).mpr (by decide), two, ?_, configuration _ _ (by decide)⟩
  rcases removed removable [failsAfter 36] with ⟨_, _, _, finished⟩ | all
  · exact finished
  · rw [all] at two
    exact absurd two (by decide +kernel)

end Model

end ProgramSplit.Linux.Installer
