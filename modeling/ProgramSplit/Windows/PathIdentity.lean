/-
# Windows.PathIdentity — the final path of a file that may be absent

`finalPath` and `resolvePath` of `path-identity.h` on a disk of directories, files and links in
which an object may refuse to be opened. The loop of `resolvePath` climbs a path on its text; the
calls read the text as a drive or a share and components.

* `parse_candidate` — what the calls make of the text of a path;
* `resolveFrom_eq` — the loop visits the prefixes of the path, from the longest down;
* `Extends.walk`, `walk_grown` — creating missing components leaves every walk that succeeded, and
  prolongs it;
* `resolvePath_names` — the name is that of the longest existing prefix and the components behind
  it, nothing if that prefix does not open, and, where there is one, the name the file has once it
  is created.
-/
import ProgramSplit.Windows.Identity

namespace ProgramSplit.Windows.PathIdentity

open Wfp

set_option autoImplicit false

/-! ## Names -/

/-- A character of a name: neither separator of the calls and no control character. -/
def Ordinary (u : UInt16) : Prop :=
  u ≠ 92 ∧ u ≠ 47 ∧ 32 ≤ u

instance (u : UInt16) : Decidable (Ordinary u) :=
  inferInstanceAs (Decidable (_ ∧ _))

instance (w : WString) : Decidable (∀ u ∈ w, Ordinary u) :=
  List.decidableBAll _ w

/-- An ordinary component: not empty, and neither `.` nor `..`. -/
abbrev Name := { w : WString // w ≠ [] ∧ (∀ u ∈ w, Ordinary u) ∧ w ≠ [46] ∧ w ≠ [46, 46] }

/-- Where an absolute path begins. -/
inductive Root
  | drive (letter : { u : UInt16 // Ordinary u })
  | share (server folder : Name)
  deriving DecidableEq

def Root.text : Root → WString
  | .drive letter => [letter.val, 58]
  | .share server folder => 92 :: 92 :: server.val ++ 92 :: folder.val

/-- Components, each behind a separator. -/
def trail (names : List Name) : WString :=
  names.flatMap fun name => 92 :: name.val

/-! ## The disk -/

/-- A directory or file, by its volume and the names it is stored under. -/
structure Place where
  volume : Nat
  names : List Name
  deriving DecidableEq

def Place.child (place : Place) (name : Name) : Place :=
  { place with names := place.names ++ [name] }

inductive Kind
  | directory
  | file
  /-- a symbolic link, a junction or a substituted name, by its absolute target -/
  | link (root : Root) (names : List Name)
  deriving DecidableEq

/-- Why a name does not lead to an object; not found is `ERROR_FILE_NOT_FOUND` or
`ERROR_PATH_NOT_FOUND`. -/
inductive Error
  | notFound
  | refused
  deriving DecidableEq

structure Disk where
  /-- what a drive or share stands for -/
  mount : Root → Except Error Place
  /-- an entry of a directory, by the name it is stored under -/
  lookup : Place → Name → Except Error (Name × Kind)
  /-- whether the object may be opened -/
  opens : Place → Bool
  /-- the drive or share of a volume, if it has one -/
  dosName : Nat → Option Root
  /-- the name of its device below `\Device` -/
  device : Nat → List Name

/-- An absolute path as the calls read it. -/
structure Target where
  root : Root
  names : List Name

/-- Walk down from a directory; `onLink` goes on behind a link. The last component is not followed
for attributes. -/
def walkIn (disk : Disk) (follow : Bool) (onLink : Target → Except Error (Place × Kind)) :
    Place → List Name → Except Error (Place × Kind)
  | place, [] => .ok (place, .directory)
  | place, name :: rest =>
    match disk.lookup place name with
    | .error e => .error e
    | .ok (stored, .directory) => walkIn disk follow onLink (place.child stored) rest
    | .ok (stored, .file) => if rest = [] then .ok (place.child stored, .file) else .error .notFound
    | .ok (stored, .link root names) =>
      if rest = [] ∧ follow = false then .ok (place.child stored, .link root names)
      else onLink ⟨root, names ++ rest⟩

/-- A walk from the root, through so many links at most. -/
def walk (disk : Disk) (follow : Bool) : Nat → Target → Except Error (Place × Kind)
  | 0, _ => .error .refused
  | links + 1, target =>
    match disk.mount target.root with
    | .error e => .error e
    | .ok place => walkIn disk follow (walk disk follow links) place target.names

/-- Printable text, as all texts of paths are. -/
def Printable (w : WString) : Prop :=
  ∀ u ∈ w, 32 ≤ u

instance (w : WString) : Decidable (Printable w) :=
  List.decidableBAll _ w

def Name.of? (w : WString) : Option Name :=
  if ordinary : w ≠ [] ∧ (∀ u ∈ w, Ordinary u) ∧ w ≠ [46] ∧ w ≠ [46, 46] then some ⟨w, ordinary⟩
  else none

/-- How the calls read a path without control characters. A drive without a separator is not
absolute. -/
def parse (path : WString) : Option Target :=
  match if Printable path then path.splitOn 92 else [] with
  | [] :: [] :: server :: folder :: rest =>
    match Name.of? server, Name.of? folder, rest.mapM Name.of? with
    | some server, some folder, some names => some ⟨.share server folder, names⟩
    | _, _, _ => none
  | [letter, mark] :: rest =>
    if drive : Ordinary letter ∧ mark = 58 then
      if rest = [[]] then some ⟨.drive ⟨letter, drive.1⟩, []⟩
      else if rest = [] then none
      else (rest.mapM Name.of?).map fun names => ⟨.drive ⟨letter, drive.1⟩, names⟩
    else none
  | _ => none

def maximumLinks : Nat := 64

/-- `GetFileAttributesW` -/
def attributes (disk : Disk) (path : WString) : Attributes :=
  match parse path with
  | none => .refused
  | some target =>
    match walk disk false maximumLinks target with
    | .ok _ => .present
    | .error .notFound => .notFound
    | .error .refused => .refused

/-- `CreateFileW`: the object behind the last link too. -/
def openFile (disk : Disk) (path : WString) : Option Place :=
  match parse path with
  | none => none
  | some target =>
    match walk disk true maximumLinks target with
    | .error _ => none
    | .ok (place, _) => if disk.opens place then some place else none

/-- `\\?\` -/
def verbatim : WString := [92, 92, 63, 92]

/-- `UNC\` -/
def unc : WString := [85, 78, 67, 92]

/-- `Device` -/
def deviceDirectory : Name := ⟨[68, 101, 118, 105, 99, 101], by decide⟩

/-- A drive or share behind the sign for verbatim paths. -/
def Root.verbatimText : Root → WString
  | .drive letter => verbatim ++ [letter.val, 58]
  | .share server folder => verbatim ++ unc ++ (server.val ++ 92 :: folder.val)

/-- The volume in the text of `GetFinalPathNameByHandleW`. -/
def volumeText (disk : Disk) (volume : Nat) : VolumeFormat → Option WString
  | .nt => some (trail (deviceDirectory :: disk.device volume))
  | .dos => (disk.dosName volume).map Root.verbatimText

/-- The end of a final name: a separator for the root of a volume, or components. -/
def ending (names : List Name) : WString :=
  if names = [] then [92] else trail names

/-- `GetFinalPathNameByHandleW` -/
def finalName (disk : Disk) (format : VolumeFormat) (place : Place) : WString :=
  match volumeText disk place.volume format with
  | none => []
  | some volume => volume ++ ending place.names

def bufferSize : Nat := 32768

/-- The final name `finalPath` gets for a path: none where the path does not open or the name does
not fit. -/
def reported (disk : Disk) (format : VolumeFormat) (path : WString) : WString :=
  match openFile disk path with
  | none => []
  | some place => if bufferSize ≤ (finalName disk format place).length then []
      else finalName disk format place

/-! ## Texts of paths -/

theorem Name.free (name : Name) : 92 ∉ name.val :=
  fun member => (name.property.2.1 92 member).1 rfl

theorem Printable.append {a b : WString} (left : Printable a) (right : Printable b) :
    Printable (a ++ b) :=
  List.forall_mem_append.mpr ⟨left, right⟩

theorem Printable.without {w : WString} (printable : Printable w) {u : UInt16} (control : u < 32) :
    u ∉ w :=
  fun member => absurd (printable u member) (UInt16.not_le.mpr control)

theorem Name.printable (name : Name) : Printable name.val :=
  fun u member => (name.property.2.1 u member).2.2

theorem printable_cons {w : WString} (printable : Printable w) : Printable (92 :: w) :=
  List.forall_mem_cons.mpr ⟨by decide, printable⟩

theorem printable_trail (names : List Name) : Printable (trail names) := by
  induction names with
  | nil => exact fun u member => by cases member
  | cons name names ih => exact (printable_cons name.printable).append ih

theorem Root.printable (root : Root) : Printable root.text := by
  cases root with
  | drive letter =>
    refine List.forall_mem_cons.mpr ⟨letter.property.2.2, ?_⟩
    exact List.forall_mem_singleton.mpr (by decide)
  | share server folder =>
    exact (printable_cons (printable_cons server.printable)).append
      (printable_cons folder.printable)

theorem trail_append (front back : List Name) :
    trail (front ++ back) = trail front ++ trail back := by
  rw [trail, trail, trail, List.flatMap_append]

theorem trail_concat (front : List Name) (name : Name) :
    trail (front ++ [name]) = trail front ++ 92 :: name.val := by
  simp [trail]

/-- A text of components does not end in a separator. -/
theorem getLast?_trail (front : WString) {names : List Name} (nonempty : names ≠ []) :
    (front ++ trail names).getLast? ≠ some 92 := by
  obtain ⟨names, name, rfl⟩ := (List.eq_nil_or_concat' names).resolve_left nonempty
  obtain ⟨start, last, shape⟩ := (List.eq_nil_or_concat' name.val).resolve_left name.property.1
  rw [trail_concat, shape, ← List.cons_append, ← List.append_assoc, ← List.append_assoc,
    List.getLast?_concat]
  intro same
  exact name.free (by rw [shape, ← Option.some.inj same]; simp)

theorem splitOn_trail {front : WString} (free : 92 ∉ front) (names : List Name) :
    (front ++ trail names).splitOn 92 = front :: names.map Subtype.val := by
  induction names generalizing front with
  | nil => simp [trail, List.splitOn_eq_singleton free]
  | cons name names ih =>
    rw [show trail (name :: names) = 92 :: (name.val ++ trail names) from rfl,
      List.splitOn_append_cons_self_of_not_mem free, ih name.free]
    rfl

theorem of?_val (name : Name) : Name.of? name.val = some name :=
  dif_pos name.property

theorem mapM_of?_val (names : List Name) : (names.map Subtype.val).mapM Name.of? = some names := by
  induction names with
  | nil => rfl
  | cons name names ih =>
    rw [List.map_cons, List.mapM_cons, of?_val, ih]
    rfl

/-- What the loop hands to the calls: a drive root opens only with its separator. -/
def candidate (existing : WString) : WString :=
  if existing.length = 2 ∧ existing.getLast? = some 58 then existing ++ [92] else existing

/-- Only a bare drive gets a separator. -/
theorem candidate_eq (root : Root) (names : List Name)
    (more : names ≠ [] ∨ ∃ server folder, root = .share server folder) :
    candidate (root.text ++ trail names) = root.text ++ trail names := by
  refine if_neg fun short => ?_
  have long := short.1
  rcases more with nonempty | ⟨server, folder, rfl⟩
  · obtain ⟨name, names, rfl⟩ := List.exists_cons_of_ne_nil nonempty
    cases root <;> simp [Root.text, trail] at long
  · simp [Root.text] at long

theorem printable_candidate {w : WString} (printable : Printable w) : Printable (candidate w) := by
  unfold candidate
  split
  · exact printable.append (List.forall_mem_singleton.mpr (by decide))
  · exact printable

/-- **What the calls read.** The text of a drive or share and components, as the loop hands it over,
is read as just those. -/
theorem parse_candidate (root : Root) (names : List Name) :
    parse (candidate (root.text ++ trail names)) = some ⟨root, names⟩ := by
  rw [parse, if_pos (printable_candidate (root.printable.append (printable_trail names)))]
  cases root with
  | drive letter =>
    have free : 92 ∉ [letter.val, 58] := by simp [Ne.symm letter.property.1]
    cases names with
    | nil =>
      rw [show candidate _ = [letter.val, 58] ++ 92 :: [] from rfl,
        List.splitOn_append_cons_self_of_not_mem free]
      simp [letter.property]
    | cons name names =>
      have some_ : (name :: names).map Subtype.val ≠ [[]] :=
        fun none => name.property.1 (List.cons.inj none).1
      rw [candidate_eq _ _ (.inl (List.cons_ne_nil name names)), Root.text, splitOn_trail free]
      simp only [letter.property, and_self, dite_true, List.map_cons, List.cons_ne_nil, if_false]
      rw [← List.map_cons, if_neg some_, mapM_of?_val]
      rfl
  | share server folder =>
    have shape : (Root.share server folder).text ++ trail names =
        [] ++ 92 :: ([] ++ 92 :: (server.val ++ 92 :: (folder.val ++ trail names))) := by
      simp [Root.text]
    rw [candidate_eq _ _ (.inr ⟨server, folder, rfl⟩), shape,
      List.splitOn_append_cons_self_of_not_mem (by simp),
      List.splitOn_append_cons_self_of_not_mem (by simp),
      List.splitOn_append_cons_self_of_not_mem server.free, splitOn_trail folder.free]
    simp only [of?_val, mapM_of?_val]

theorem cString_eq {w : WString} (printable : Printable w) : cString w = w :=
  List.takeWhile_eq_self_iff.mpr fun u member => by
    simpa using fun zero : u = 0 => absurd (zero ▸ printable u member) (by decide)

/-! ## The disk as the source sees it -/

theorem printable_finalName (disk : Disk) (format : VolumeFormat) (place : Place) :
    Printable (finalName disk format place) := by
  have ends : Printable (ending place.names) := by
    unfold ending
    split
    · exact List.forall_mem_singleton.mpr (by decide)
    · exact printable_trail _
  unfold finalName
  cases format with
  | nt => exact (printable_trail _).append ends
  | dos =>
    rw [volumeText]
    cases disk.dosName place.volume with
    | none => exact fun u member => by cases member
    | some root =>
      refine Printable.append ?_ ends
      cases root with
      | drive letter => exact Printable.append (by decide) (Root.drive letter).printable
      | share server folder =>
        exact Printable.append (by decide)
          (server.printable.append (printable_cons folder.printable))

def Disk.system (disk : Disk) : FileSystem where
  attributes := attributes disk
  finalName := reported disk
  plain format path := by
    have printable : Printable (reported disk format path) := by
      unfold reported
      split
      · exact fun u member => by cases member
      · split
        · exact fun u member => by cases member
        · exact printable_finalName disk format _
    exact ⟨printable.without (by decide), printable.without (by decide)⟩
  tab path tab _ := by
    have control : ¬Printable path := fun printable => printable.without (by decide) tab
    simp only [attributes, parse, if_neg control]

/-- What stands for a volume in a final path. -/
def volumeName (disk : Disk) (volume : Nat) : VolumeFormat → Option WString
  | .nt => some (trail (deviceDirectory :: disk.device volume))
  | .dos => (disk.dosName volume).map Root.text

/-- The last separator goes. -/
theorem dropLast_ending {base : WString} (nonempty : base ≠ []) (names : List Name) :
    (if 1 < (base ++ ending names).length ∧ (base ++ ending names).getLast? =
      some 92 then (base ++ ending names).dropLast
      else base ++ ending names) = base ++ trail names := by
  unfold ending
  by_cases none : names = []
  · have long := List.length_pos_of_ne_nil nonempty
    subst none
    rw [if_pos rfl, if_pos ⟨by simp; omega, List.getLast?_concat⟩, List.dropLast_concat]
    simp [trail]
  · rw [if_neg none, if_neg fun both => getLast?_trail base none both.2]

theorem withoutPrefix_root (root : Root) (rest : WString) :
    withoutPrefix (root.verbatimText ++ rest) = root.text ++ rest := by
  cases root with
  | drive letter =>
    have plain : ((Root.drive letter).verbatimText ++ rest).take 8 ≠ [92, 92, 63, 92, 85, 78,
        67, 92] := by
      intro same
      have sixth : some (58 : UInt16) = some 78 := congrArg (fun w : WString => w[5]?) same
      exact absurd (Option.some.inj sixth) (by decide)
    rw [withoutPrefix, if_neg plain]
    rfl
  | share server folder => simp [withoutPrefix, Root.verbatimText, Root.text, verbatim, unc]

theorem root_text_ne_nil (root : Root) : root.text ≠ [] := by
  cases root <;> exact List.cons_ne_nil _ _

section FinalPath

variable {disk : Disk} {format : VolumeFormat} {path base : WString} {place : Place}

/-- The final path of an object that opens: its volume and the names it is stored under, as long as
the system's text fits the buffer. -/
theorem finalPath_eq (printable : Printable path) (opened : openFile disk path = some place)
    (named : volumeName disk place.volume format = some base)
    (fits : (finalName disk format place).length < bufferSize) :
    finalPath disk.system path format = base ++ trail place.names := by
  have name : disk.system.finalName format (cString path) = finalName disk format place := by
    show reported disk format _ = _
    rw [cString_eq printable, reported, opened]
    exact if_neg (Nat.not_le.mpr fits)
  unfold finalPath
  rw [name]
  cases format with
  | nt =>
    cases named
    exact dropLast_ending (by simp [trail]) place.names
  | dos =>
    obtain ⟨root, found, rfl⟩ := Option.map_eq_some_iff.mp named
    have text : finalName disk .dos place = root.verbatimText ++ ending place.names := by
      simp [finalName, volumeText, found]
    rw [text]
    dsimp only
    rw [if_pos rfl, withoutPrefix_root]
    exact dropLast_ending (root_text_ne_nil root) place.names

/-- A final path that is not empty comes from an object that opens, on a volume with a name. -/
theorem finalPath_ne_nil (printable : Printable path)
    (some_ : finalPath disk.system path format ≠ []) :
    ∃ place base, openFile disk path = some place ∧
    volumeName disk place.volume format = some base ∧
      finalPath disk.system path format = base ++ trail place.names := by
  have name : reported disk format path ≠ [] := by
    intro none
    refine some_ ?_
    have nothing : disk.system.finalName format (cString path) = [] :=
      (congrArg _ (cString_eq printable)).trans none
    unfold finalPath
    rw [nothing]
    cases format <;> rfl
  unfold reported at name
  split at name
  · exact absurd rfl name
  next place opened =>
    split at name
    · exact absurd rfl name
    next fits =>
      rw [Nat.not_le] at fits
      cases named : volumeName disk place.volume format with
      | some base => exact ⟨place, base, opened, named, finalPath_eq printable opened named fits⟩
      | none =>
        cases format with
        | nt => cases named
        | dos =>
          rw [volumeName, Option.map_eq_none_iff] at named
          simp [finalName, volumeText, named] at name

end FinalPath

/-! ## The loop -/

/-- The place of a separator behind a front without one. -/
theorem findIdx?_separator {front : WString} (free : 92 ∉ front) (rest : WString) :
    (front ++ 92 :: rest).findIdx? (· == 92) = some front.length := by
  have none : front.findIdx? (· == 92) = none := by
    simpa [List.findIdx?_eq_none_iff] using fun u member (same : u = 92) => free (same ▸ member)
  rw [List.findIdx?_append, none]
  simp [List.findIdx?_cons]

theorem lastSeparator_append (front : WString) {name : WString} (free : 92 ∉ name) :
    lastSeparator (front ++ 92 :: name) = some front.length := by
  rw [lastSeparator, List.reverse_append, List.reverse_cons, List.append_assoc,
    List.singleton_append, findIdx?_separator (mt List.mem_reverse.mp free)]
  simp

section Loop

variable (disk : Disk) (format : VolumeFormat) (root : Root) (names : List Name)

/-- The text of the first components of a path. -/
def upTo (k : Nat) : WString :=
  root.text ++ trail (names.take k)

/-- What the system says of a prefix. -/
def status (k : Nat) : Attributes :=
  attributes disk (candidate (upTo root names k))

/-- The final path of a prefix. -/
def prefixPath (k : Nat) : WString :=
  finalPath disk.system (candidate (upTo root names k)) format

/-- The name a prefix gives the whole path. -/
def nameFrom (k : Nat) : WString :=
  if prefixPath disk format root names k = [] then [] else prefixPath disk format root names k ++
    trail (names.drop k)

/-- The answer at a prefix, given the one above it. -/
def answer (k : Nat) (above : WString) : WString :=
  match status disk root names k with
  | .present => nameFrom disk format root names k
  | .refused => []
  | .notFound => above

/-- The climb, by the number of components left. -/
def climb : Nat → WString
  | 0 => answer disk format root names 0 []
  | k + 1 => answer disk format root names (k + 1) (climb k)

theorem printable_upTo (k : Nat) : Printable (upTo root names k) :=
  root.printable.append (printable_trail _)

/-- A turn of the loop at a prefix. -/
theorem resolveFrom_upTo (k fuel : Nat) (above : WString)
    (goesOn : (match lastSeparator (upTo root names k) with
      | none => []
      | some separator =>
        if separator = 0 ∨ atShare (upTo root names k) separator then []
        else resolveFrom disk.system format fuel ((upTo root names k).take separator)
          ((upTo root names k).drop separator ++ trail (names.drop k))) = above) :
    resolveFrom disk.system format (fuel + 1) (upTo root names k) (trail (names.drop k)) =
      answer disk format root names k above := by
  have some_ : upTo root names k ≠ [] := List.append_ne_nil_of_left_ne_nil (root_text_ne_nil root) _
  have asked : disk.system.attributes (cString (candidate (upTo root names k))) =
      status disk root names k := by
    rw [cString_eq (printable_candidate (printable_upTo root names k))]
    rfl
  rw [resolveFrom, if_neg some_, answer, ← asked, ← goesOn]
  rfl

/-- A prefix but the shortest, cut at its last separator. -/
theorem upTo_succ {k : Nat} (inside : k < names.length) :
    upTo root names (k + 1) = upTo root names k ++ 92 :: names[k].val ∧
      trail (names.drop k) = 92 :: names[k].val ++ trail (names.drop (k + 1)) := by
  constructor
  · rw [upTo, upTo, List.take_succ_eq_append_getElem inside, trail_concat, List.append_assoc]
  · rw [List.drop_eq_getElem_cons inside]
    rfl

/-- A share ends at its second separator. -/
theorem atShare_share (server folder : Name) (rest : WString) (separator : Nat) :
    atShare ((Root.share server folder).text ++ rest) separator =
      (server.val.length + 2 == separator) := by
  have text : ((Root.share server folder).text ++ rest).drop 2 = server.val ++
      92 :: (folder.val ++ rest) := by
    simp [Root.text]
  rw [atShare, text, findIdx?_separator server.free]
  simp [Root.text]

theorem atShare_drive (letter : { u : UInt16 // Ordinary u }) (rest : WString) (separator : Nat) :
    atShare ((Root.drive letter).text ++ rest) separator = false := by
  simp [atShare, Root.text]

/-- **The loop.** It visits the prefixes from the longest down and stops in time. -/
theorem resolveFrom_eq : ∀ k ≤ names.length, ∀ fuel, k < fuel →
    resolveFrom disk.system format fuel (upTo root names k)
      (trail (names.drop k)) = climb disk format root names k := by
  intro k
  induction k with
  | zero =>
    intro _ fuel enough
    obtain ⟨fuel, rfl⟩ := Nat.exists_eq_succ_of_ne_zero (Nat.ne_of_gt enough)
    refine resolveFrom_upTo disk format root names 0 fuel [] ?_
    have text : upTo root names 0 = root.text := by simp [upTo, trail]
    rw [text]
    -- at a drive there is no separator, and a share is not cut
    cases root with
    | drive letter =>
      have none : lastSeparator (Root.drive letter).text = none := by
        simp [lastSeparator, Root.text, List.findIdx?_cons, letter.property.1]
      rw [none]
    | share server folder =>
      have cut : lastSeparator (Root.share server folder).text = some (server.val.length + 2) :=
        lastSeparator_append (92 :: 92 :: server.val) folder.free
      have share := atShare_share server folder [] (server.val.length + 2)
      rw [List.append_nil, beq_self_eq_true] at share
      rw [cut]
      exact if_pos (.inr share)
  | succ k ih =>
    intro inside fuel enough
    obtain ⟨fuel, rfl⟩ := Nat.exists_eq_succ_of_ne_zero (Nat.ne_of_gt (Nat.zero_lt_of_lt enough))
    obtain ⟨front, back⟩ := upTo_succ root names inside
    refine resolveFrom_upTo disk format root names (k + 1) fuel _ ?_
    have long : 0 < (upTo root names k).length := by
      rw [upTo, List.length_append]
      exact Nat.add_pos_left (List.length_pos_of_ne_nil (root_text_ne_nil root)) _
    have below : atShare (upTo root names k ++ 92 :: names[k].val)
        (upTo root names k).length = false := by
      cases root with
      | drive letter => rw [upTo, List.append_assoc, atShare_drive]
      | share server folder =>
        rw [upTo, List.append_assoc, atShare_share]
        simp [Root.text]
    rw [front, lastSeparator_append _ names[k].free]
    dsimp only
    rw [if_neg (by rw [below]; exact not_or.mpr ⟨Nat.ne_of_gt long, Bool.false_ne_true⟩),
      List.take_left, List.drop_left, ← back]
    exact ih (by omega) fuel (by omega)

/-- The longest prefix the system has, of `n` components at most. -/
structure Longest (n k : Nat) : Prop where
  le : k ≤ n
  exists_ : status disk root names k = .present
  beyond : ∀ j, k < j → j ≤ n → status disk root names j ≠ .present

variable {disk format root names}

theorem climb_present {k : Nat} (present : status disk root names k = .present) :
    climb disk format root names k = nameFrom disk format root names k := by
  cases k <;> rw [climb, answer, present]

/-- The climb goes down past what is not found. -/
theorem climb_down {n k : Nat} (le : k ≤ n)
    (absent : ∀ j, k < j → j ≤ n → status disk root names j = .notFound) :
    climb disk format root names n = climb disk format root names k := by
  induction n, le using Nat.le_induction with
  | base => rfl
  | succ n le ih =>
    rw [climb, answer, absent (n + 1) (by omega) (Nat.le_refl _)]
    exact ih fun j above below => absent j above (by omega)

/-- It gives no name where every existing prefix lies below one that is refused. -/
theorem climb_nil {n : Nat} (covered : ∀ i ≤ n, status disk root names i = .present →
    ∃ j, i < j ∧ j ≤ n ∧ status disk root names j =
      .refused) : climb disk format root names n = [] := by
  induction n with
  | zero =>
    rw [climb, answer]
    cases here : status disk root names 0 with
    | present =>
      obtain ⟨j, above, below, -⟩ := covered 0 (Nat.le_refl _) here
      omega
    | refused => rfl
    | notFound => rfl
  | succ n ih =>
    rw [climb, answer]
    cases here : status disk root names (n + 1) with
    | present =>
      obtain ⟨j, above, below, -⟩ := covered (n + 1) (Nat.le_refl _) here
      omega
    | refused => rfl
    | notFound =>
      refine ih fun i le present => ?_
      obtain ⟨j, above, below, refused⟩ := covered i (by omega) present
      refine ⟨j, above, Nat.le_of_lt_succ (Nat.lt_of_le_of_ne below ?_), refused⟩
      rintro rfl
      rw [here] at refused
      cases refused

end Loop

/-! ## Creating what is missing -/

/-- A later state of the disk, with more entries. -/
structure Extends (disk disk' : Disk) : Prop where
  mount : disk'.mount = disk.mount
  lookup : ∀ place name found, disk.lookup place name = .ok found →
    disk'.lookup place name = .ok found
  dosName : disk'.dosName = disk.dosName
  device : disk'.device = disk.device

/-- Names down from a directory that are ordinary directories, the last one possibly a file, stored
under the same names up to letter case. -/
inductive Grown (disk : Disk) (lower : UInt16 → UInt16) : Place → List Name → Place → Prop
  | here (place : Place) : Grown disk lower place [] place
  | file {place : Place} {name stored : Name} (found : disk.lookup place name = .ok (stored, .file))
      (same : stored.val.map lower = name.val.map lower) :
      Grown disk lower place [name] (place.child stored)
  | directory {place last : Place} {name stored : Name} {rest : List Name}
      (found : disk.lookup place name = .ok (stored, .directory))
      (same : stored.val.map lower = name.val.map lower)
      (below : Grown disk lower (place.child stored) rest last) :
      Grown disk lower place (name :: rest) last

section Walks

variable {disk disk' : Disk} {lower : UInt16 → UInt16}

theorem Extends.walkIn (later : Extends disk disk') {follow : Bool}
    {onLink onLink' : Target → Except Error (Place × Kind)}
    (links : ∀ target found, onLink target = .ok found → onLink' target = .ok found)
    {names : List Name} :
    ∀ {place : Place} {found : Place × Kind}, walkIn disk follow onLink place names = .ok found →
      walkIn disk' follow onLink' place names = .ok found := by
  induction names with
  | nil => exact fun walked => walked
  | cons name rest ih =>
    intro place found walked
    unfold PathIdentity.walkIn at walked ⊢
    cases looked : disk.lookup place name with
    | error e => rw [looked] at walked; cases walked
    | ok entry =>
      obtain ⟨stored, kind⟩ := entry
      rw [looked] at walked
      rw [later.lookup place name _ looked]
      cases kind with
      | directory => exact ih walked
      | file => exact walked
      | link root names =>
        dsimp only at walked ⊢
        split at walked
        next last => rw [if_pos last]; exact walked
        next more => rw [if_neg more]; exact links _ _ walked

/-- **Walks stay.** What a walk found it finds in a later state. -/
theorem Extends.walk (later : Extends disk disk') {follow : Bool} (links : Nat) :
    ∀ {target : Target} {found : Place × Kind},
    walk disk follow links target = .ok found → walk disk' follow links target = .ok found := by
  induction links with
  | zero => exact fun walked => by cases walked
  | succ links ih =>
    intro target found walked
    unfold PathIdentity.walk at walked ⊢
    rw [later.mount]
    cases mounted : disk.mount target.root with
    | error e => rw [mounted] at walked; cases walked
    | ok place =>
      rw [mounted] at walked
      exact later.walkIn (fun _ _ => ih) walked

theorem walkIn_grown {place last : Place} {more : List Name}
    (grown : Grown disk lower place more last) {follow : Bool}
    {onLink : Target → Except Error (Place × Kind)} :
      ∃ kind, walkIn disk follow onLink place more = .ok (last, kind) := by
  induction grown with
  | here place => exact ⟨.directory, rfl⟩
  | file found _ => exact ⟨.file, by rw [walkIn, found]; rfl⟩
  | directory found _ _ ih =>
    obtain ⟨kind, walked⟩ := ih
    exact ⟨kind, by rw [walkIn, found]; exact walked⟩

theorem walkIn_append {onLink : Target → Except Error (Place × Kind)} {parent last : Place}
    {more : List Name} (grown : Grown disk lower parent more last)
    (links : ∀ target : Target, onLink target = .ok (parent, .directory) →
      ∃ kind, onLink ⟨target.root, target.names ++ more⟩ = .ok (last, kind)) {names : List Name} :
    ∀ {place : Place}, walkIn disk true onLink place names = .ok (parent, .directory) →
      ∃ kind, walkIn disk true onLink place (names ++ more) = .ok (last, kind) := by
  induction names with
  | nil =>
    intro place walked
    cases walked
    exact walkIn_grown grown
  | cons name rest ih =>
    intro place walked
    rw [List.cons_append]
    unfold walkIn at walked ⊢
    cases looked : disk.lookup place name with
    | error e => rw [looked] at walked; cases walked
    | ok entry =>
      obtain ⟨stored, kind⟩ := entry
      rw [looked] at walked
      cases kind with
      | directory => exact ih walked
      | file =>
        dsimp only at walked
        split at walked <;> cases walked
      | link root target =>
        dsimp only at walked ⊢
        rw [if_neg (by simp)] at walked ⊢
        obtain ⟨kind, onward⟩ := links _ walked
        exact ⟨kind, by rw [← List.append_assoc]; exact onward⟩

/-- **Walks go on.** A walk to a directory goes on through what was created below it. -/
theorem walk_grown {parent last : Place} {more : List Name}
    (grown : Grown disk lower parent more last) (links : Nat) :
    ∀ {target : Target}, walk disk true links target = .ok (parent, .directory) →
      ∃ kind, walk disk true links ⟨target.root, target.names ++ more⟩ = .ok (last, kind) := by
  induction links with
  | zero => exact fun walked => by cases walked
  | succ links ih =>
    intro target walked
    unfold walk at walked ⊢
    cases mounted : disk.mount target.root with
    | error e => rw [mounted] at walked; cases walked
    | ok place =>
      rw [mounted] at walked
      exact walkIn_append grown (fun _ => ih) walked

theorem grown_names {place last : Place} {more : List Name}
    (grown : Grown disk lower place more last) :
    last.volume = place.volume ∧ ∃ stored, last.names = place.names ++ stored ∧
      (trail stored).map lower = (trail more).map lower := by
  induction grown with
  | here place => exact ⟨rfl, [], by simp, rfl⟩
  | @file place name stored _ same => exact ⟨rfl, [stored], rfl, by simp [trail, same]⟩
  | @directory place last name stored rest _ same _ ih =>
    obtain ⟨volume, names, shape, case⟩ := ih
    refine ⟨volume, stored :: names, by rw [shape, Place.child, List.append_assoc]; rfl, ?_⟩
    show (92 :: stored.val ++ trail names).map lower = (92 :: name.val ++ trail rest).map lower
    rw [List.map_append, List.map_append, List.map_cons, List.map_cons, same, case]

end Walks

/-! ## The name before and after -/

/-- An absolute path of ordinary components. -/
structure Path where
  root : Root
  names : List Name
  nonempty : names ≠ []

def Path.text (path : Path) : WString :=
  path.root.text ++ trail path.names

/-- What is missing of a path has been created, as ordinary directories and files that open and
whose names keep to the system's limit. -/
structure Created (disk disk' : Disk) (lower : UInt16 → UInt16) (format : VolumeFormat)
    (path : Path) : Prop where
  later : Extends disk disk'
  grown : ∃ k place last, Longest disk path.root path.names path.names.length k ∧
    walk disk true maximumLinks ⟨path.root, path.names.take k⟩ = .ok (place, .directory) ∧
    Grown disk' lower place (path.names.drop k) last ∧ disk'.opens last = true ∧
    (finalName disk' format last).length < bufferSize

theorem length_le_trail (names : List Name) : names.length ≤ (trail names).length := by
  induction names with
  | nil => exact Nat.le_refl _
  | cons name names ih =>
    show names.length + 1 ≤ (92 :: name.val ++ trail names).length
    rw [List.length_append, List.length_cons]
    omega

/-- The loop ends after a turn for each component and one for the root. -/
theorem resolveFrom_text (disk : Disk) (format : VolumeFormat) (path : Path) {fuel : Nat}
    (enough : path.names.length < fuel) :
    resolveFrom disk.system format fuel path.text [] =
      climb disk format path.root path.names path.names.length := by
  have start := resolveFrom_eq disk format path.root path.names _ (Nat.le_refl _) fuel enough
  rwa [upTo, List.take_length, List.drop_length] at start

theorem resolvePath_eq (disk : Disk) (format : VolumeFormat) (path : Path) :
    resolvePath disk.system path.text format =
      climb disk format path.root path.names path.names.length := by
  refine resolveFrom_text disk format path ?_
  have := length_le_trail path.names
  rw [Path.text, List.length_append]
  omega

theorem openFile_eq_some {disk : Disk} {path : WString} {target : Target}
    (parsed : parse path = some target) {place : Place} :
    openFile disk path = some place ↔
      (∃ kind, walk disk true maximumLinks target = .ok (place, kind)) ∧
      disk.opens place = true := by
  rw [openFile, parsed]
  dsimp only
  cases walk disk true maximumLinks target with
  | error e => simp
  | ok found =>
    obtain ⟨there, kind⟩ := found
    simp only [Option.ite_none_right_eq_some, Option.some.injEq, Except.ok.injEq, Prod.mk.injEq,
      exists_and_left, exists_eq', and_true]
    constructor
    · rintro ⟨opens, rfl⟩
      exact ⟨rfl, opens⟩
    · rintro ⟨rfl, opens⟩
      exact ⟨opens, rfl⟩

theorem Extends.volumeName {disk disk' : Disk} (later : Extends disk disk') (volume : Nat)
    (format : VolumeFormat) :
    volumeName disk' volume format = volumeName disk volume format := by
  cases format <;> simp [PathIdentity.volumeName, later.dosName, later.device]

/-- A name given before the file was there is its final path afterwards. -/
theorem finalPath_created {disk disk' : Disk} {lower : UInt16 → UInt16} {format : VolumeFormat}
    {path : Path}
    (created : Created disk disk' lower format path)
    (named : resolvePath disk.system path.text format ≠ []) :
    (finalPath disk'.system path.text format).map lower =
      (resolvePath disk.system path.text format).map lower := by
  obtain ⟨k, place, last, longest, walked, grown, opens, fits⟩ := created.grown
  rw [resolvePath_eq] at named ⊢
  -- the loop stopped at the existing prefix, which opened
  have absent : ∀ j, k < j → j ≤ path.names.length → status disk path.root path.names j =
      .notFound := by
    intro j above le
    cases here : status disk path.root path.names j with
    | present => exact absurd here (longest.beyond j above le)
    | notFound => rfl
    | refused =>
      refine absurd (climb_nil fun i inside present => ?_) named
      have below : i ≤ k := Nat.not_lt.mp fun higher => longest.beyond i higher inside present
      exact ⟨j, Nat.lt_of_le_of_lt below above, le, here⟩
  rw [climb_down longest.le absent, climb_present longest.exists_, nameFrom] at named ⊢
  split at named
  next empty => exact absurd rfl named
  next opened =>
    have printable := printable_candidate (printable_upTo path.root path.names k)
    obtain ⟨there, base, found, volume, text⟩ := finalPath_ne_nil printable opened
    obtain ⟨⟨kind, same⟩, -⟩ := (openFile_eq_some
      (parse_candidate path.root (path.names.take k))).mp found
    rw [walked] at same
    cases same
    -- in the later state the walk goes on from there
    obtain ⟨sameVolume, stored, names, letters⟩ := grown_names grown
    obtain ⟨kind, whole⟩ := walk_grown grown maximumLinks (created.later.walk maximumLinks walked)
    rw [List.take_append_drop] at whole
    have parsed := parse_candidate path.root path.names
    rw [candidate_eq _ _ (.inl path.nonempty)] at parsed
    have file : openFile disk' path.text = some last :=
      (openFile_eq_some parsed).mpr ⟨⟨kind, whole⟩, opens⟩
    have textPrintable : Printable path.text := path.root.printable.append (printable_trail _)
    rw [← created.later.volumeName, ← sameVolume] at volume
    rw [if_neg opened, finalPath_eq textPrintable file volume fits, prefixPath, text, names,
      trail_append]
    simp only [List.map_append, letters, List.append_assoc]

/-- **The same name.** The loop ends. Where the longest existing prefix opens and nothing longer was
refused, the name is the prefix's final path and the rest of the components; otherwise there is
none. A name given is the final path of the file once its missing components are there, up to letter
case. -/
theorem resolvePath_names (disk : Disk) (format : VolumeFormat) (path : Path) :
    (∀ fuel, path.names.length < fuel →
      resolveFrom disk.system format fuel path.text [] = resolvePath disk.system path.text format) ∧
    (∀ k, Longest disk path.root path.names path.names.length k →
      (∀ j, k < j → j ≤ path.names.length → status disk path.root path.names j = .notFound) →
      prefixPath disk format path.root path.names k ≠ [] →
      resolvePath disk.system path.text format =
        prefixPath disk format path.root path.names k ++ trail (path.names.drop k)) ∧
    (∀ k, Longest disk path.root path.names path.names.length k →
      (prefixPath disk format path.root path.names k = [] ∨
        ∃ j, k < j ∧ j ≤ path.names.length ∧ status disk path.root path.names j = .refused) →
      resolvePath disk.system path.text format = []) ∧
    ((∀ j ≤ path.names.length, status disk path.root path.names j ≠ .present) →
      resolvePath disk.system path.text format = []) ∧
    ∀ (disk' : Disk) (lower : UInt16 → UInt16), Created disk disk' lower format path →
      resolvePath disk.system path.text format ≠ [] →
      (finalPath disk'.system path.text format).map lower =
        (resolvePath disk.system path.text format).map lower := by
  refine ⟨fun fuel enough => ?_, fun k longest absent opens => ?_, fun k longest reason => ?_,
    fun none => ?_, fun disk' lower created named => finalPath_created created named⟩
  · rw [resolveFrom_text disk format path enough, resolvePath_eq]
  · rw [resolvePath_eq, climb_down longest.le absent, climb_present longest.exists_]
    exact if_neg opens
  · rw [resolvePath_eq]
    by_cases refused : ∃ j, k < j ∧ j ≤ path.names.length ∧
      status disk path.root path.names j = .refused
    · obtain ⟨j, above, le, here⟩ := refused
      refine climb_nil fun i inside present => ⟨j, ?_, le, here⟩
      exact Nat.lt_of_le_of_lt (Nat.not_lt.mp fun higher =>
        longest.beyond i higher inside present) above
    · have absent : ∀ j, k < j → j ≤ path.names.length → status disk path.root path.names j =
          .notFound := by
        intro j above le
        cases here : status disk path.root path.names j with
        | present => exact absurd here (longest.beyond j above le)
        | notFound => rfl
        | refused => exact absurd ⟨j, above, le, here⟩ refused
      rw [climb_down longest.le absent, climb_present longest.exists_]
      exact if_pos (reason.resolve_right refused)
  · rw [resolvePath_eq, climb_nil fun i le present => absurd present (none i le)]

/-! ## Poles -/

def letterC : { u : UInt16 // Ordinary u } := ⟨67, by decide⟩
def nameD : Name := ⟨[100], by decide⟩
def nameX : Name := ⟨[120], by decide⟩
def volumeC : Place := ⟨0, []⟩

/-- `C:` with a directory `d` that opens or not, and a file `x` in it or not. -/
def oneDirectory (opening present : Bool) : Disk where
  mount := fun root => if root = .drive letterC then .ok volumeC else .error .notFound
  lookup := fun place name =>
    if place = volumeC ∧ name = nameD then .ok (nameD, .directory)
    else if place = volumeC.child nameD ∧ name = nameX ∧ present = true then .ok (nameX, .file)
    else .error .notFound
  opens := fun place => opening || place ≠ volumeC.child nameD
  dosName := fun _ => some (.drive letterC)
  device := fun _ => []

/-- `C:\d\x` -/
def pathX : Path := ⟨.drive letterC, [nameD, nameX], by decide⟩

theorem created_oneDirectory (opening : Bool) :
    Created (oneDirectory opening false) (oneDirectory opening true) id .dos pathX where
  later := by
    refine ⟨rfl, fun place name found looked => ?_, rfl, rfl⟩
    simp only [oneDirectory] at looked ⊢
    split at looked
    next directory => rw [if_pos directory]; exact looked
    next => simp at looked
  grown := by
    refine ⟨1, volumeC.child nameD, (volumeC.child nameD).child nameX, ⟨by decide, rfl, ?_⟩, rfl,
      .file rfl rfl, by cases opening <;> decide, by cases opening <;> decide⟩
    intro j above le
    obtain rfl : j = 2 := by
      have : j ≤ 2 := le
      omega
    exact fun impossible => by cases impossible

/-- A directory that opens names its file before the file is there, and so does the file
afterwards. -/
theorem resolvePath_names_created :
    resolvePath (oneDirectory true false).system pathX.text .dos = [67, 58, 92, 100, 92, 120] ∧
      finalPath (oneDirectory true true).system pathX.text .dos = [67, 58, 92, 100, 92, 120] := by
  have named : resolvePath (oneDirectory true false).system pathX.text .dos = [67, 58, 92, 100, 92,
    120] := by decide
  have names := resolvePath_names (oneDirectory true false) .dos pathX
  have same := names.2.2.2.2 _ id (created_oneDirectory true) (by simp [named])
  rw [named, List.map_id, List.map_id] at same
  exact ⟨named, same⟩

/-- A file that appears in a directory that does not open had no name before and has one
afterwards. -/
theorem unnamed_before : Created (oneDirectory false false)
    (oneDirectory false true) id .dos pathX ∧
    resolvePath (oneDirectory false false).system pathX.text .dos = [] ∧
    finalPath (oneDirectory false true).system pathX.text .dos = [67, 58, 92, 100, 92, 120] :=
  ⟨created_oneDirectory false, by decide, by decide⟩

end ProgramSplit.Windows.PathIdentity
