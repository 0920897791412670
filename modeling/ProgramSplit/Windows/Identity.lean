/-
# Windows.Identity — how the listed entries are identified and recorded

The included-app list, the resolution of a listed path, the identifiers the filter engine derives
from it, and `resolved-identities.tsv`, the record of every entry's identity.  The file system and
the kernel's case table are parameters.

* `loadIncludedPaths`, `resolvePath` — the listed entries and the final path of one.
* `identifyApps` — a present or absent entry by its resolved path, an unresolved one by every
  identity it had.
* `serializeIdentities`, `parseIdentities` — the record.
* `appIds` — the identifiers and tags that are given to the filters.
-/
import ProgramSplit.Windows.Filters
import ProgramSplit.Lib.Utf16
import Mathlib.Data.List.DropRight
import Mathlib.Data.List.Dedup

namespace ProgramSplit.Windows.Wfp

set_option autoImplicit false

open Lib.Digits
open Lib.Utf16

/-! ## The listed entries -/

def lowerUnit (c : UInt16) : UInt16 :=
  if 65 ≤ c ∧ c ≤ 90 then c + 32 else c

/-- ASCII only. -/
def lower (value : WString) : WString :=
  value.map lowerUnit

/-- The units of `L" \t\r"`. -/
def isBlank (c : UInt16) : Bool :=
  c == 32 || c == 9 || c == 13

def trim (value : WString) : WString :=
  (value.dropWhile isBlank).rdropWhile isBlank

/-- The set of entries; a line that starts with `#` is a comment. -/
def parseIncludedText (text : WString) : List WString :=
  ((((text.splitOn 10).map trim).filter fun line => line ≠ [] ∧ line.head? ≠ some 35).map lower).dedup

def loadIncludedPaths (bytes : Bytes) : Except String (List WString) :=
  if 1024 * 1024 < bytes.length then .error "Invalid included-app list size"
  else
    match wideStrict (if bytes.take 3 = [0xef, 0xbb, 0xbf] then bytes.drop 3 else bytes) with
    | none => .error "Included-app list must be UTF-8"
    | some text =>
      match parseIncludedText text with
      | [] => .error "Included-app list is empty"
      | listed => .ok listed

/-! ## Final paths -/

inductive VolumeFormat
  | dos
  | nt
  deriving DecidableEq

/-- What `GetFileAttributesW` says of a name. -/
inductive Attributes
  | present
  | notFound
  | refused
  deriving DecidableEq

/-- The file system: the attributes of a name, and the final name of what it opens, empty when it
cannot be opened.  No name that Windows reports holds a tab or a line feed, and a name with a tab is
refused, unless it names a stream. -/
structure FileSystem where
  attributes : WString → Attributes
  finalName : VolumeFormat → WString → WString
  plain : ∀ format name, 9 ∉ finalName format name ∧ 10 ∉ finalName format name
  tab : ∀ name, 9 ∈ name → 58 ∉ name.drop 2 → attributes name = .refused

/-- `c_str()`, as the callee reads it. -/
def cString (s : WString) : WString :=
  s.takeWhile (· != 0)

/-- A final DOS name without the prefix of the extended form. -/
def withoutPrefix (name : WString) : WString :=
  -- \\?\UNC\ and \\?\
  if name.take 8 = [92, 92, 63, 92, 85, 78, 67, 92] then [92, 92] ++ name.drop 8
  else if name.take 4 = [92, 92, 63, 92] then name.drop 4
  else name

def finalPath (fs : FileSystem) (path : WString) (volumeFormat : VolumeFormat) : WString :=
  let name := fs.finalName volumeFormat (cString path)
  let result := if volumeFormat = .dos then withoutPrefix name else name
  if 1 < result.length ∧ result.getLast? = some 92 then result.dropLast else result

/-- `find_last_of(L'\\')` -/
def lastSeparator (path : WString) : Option Nat :=
  (path.reverse.findIdx? (· == 92)).map fun i => path.length - 1 - i

/-- Above `\\server\share` there is nothing more to open. -/
def atShare (path : WString) (separator : Nat) : Bool :=
  path.take 2 == [92, 92] && ((path.drop 2).findIdx? (· == 92)).map (· + 2) == some separator

/-- The loop of `resolvePath`; a component is cut off in each turn, so the length of the path bounds
the turns. -/
def resolveFrom (fs : FileSystem) (volumeFormat : VolumeFormat) : Nat → WString → WString → WString
  | 0, _, _ => []
  | fuel + 1, existing, remainder =>
    if existing = [] then []
    else
      -- a drive root opens only with its separator
      let candidate := if existing.length = 2 ∧ existing.getLast? = some 58 then existing ++ [92]
        else existing
      match fs.attributes (cString candidate) with
      | .present =>
        let resolved := finalPath fs candidate volumeFormat
        if resolved = [] then [] else resolved ++ remainder
      | .refused => []
      | .notFound =>
        match lastSeparator existing with
        | none => []
        | some separator =>
          if separator = 0 ∨ atShare existing separator then []
          else resolveFrom fs volumeFormat fuel (existing.take separator)
            (existing.drop separator ++ remainder)

def resolvePath (fs : FileSystem) (path : WString) (volumeFormat : VolumeFormat) : WString :=
  resolveFrom fs volumeFormat (path.length + 1) path []

/-! ## Identifiers -/

/-- The bytes of units in memory. -/
def memory (s : WString) : Bytes :=
  s.flatMap fun u : UInt16 => [u.toUInt8, (u >>> 8).toUInt8]

/-- The identifier the filter engine derives from an image path, its NUL included. -/
def appIdFromNtPath (ntPath : WString) : Bytes :=
  memory (lower ntPath) ++ [0, 0]

/-- Every letter lowercased the way the kernel compares names; `downcase` is
`RtlDowncaseUnicodeString`, none when it is missing or fails. -/
def fullyLowered (downcase : Bytes → Option Bytes) (appId : Bytes) : Bytes :=
  if appId.length < 2 ∨ 0xfffe < appId.length then appId
  else
    match downcase (appId.take (appId.length - 2)) with
    | none => appId
    | some target =>
      if target.length = appId.length - 2 then target ++ appId.drop (appId.length - 2) else appId

inductive Source
  | present
  | derived
  | retained
  | none
  deriving DecidableEq

structure AttributionGroup where
  path : WString
  ids : List Bytes
  deriving DecidableEq

structure ResolvedIdentity where
  source : Source
  path : WString
  ids : List Bytes
  others : List AttributionGroup
  deriving DecidableEq

/-- A `std::map` by entry: the pairs in the order of their keys. -/
abbrev Identities := List (WString × ResolvedIdentity)

/-- Every attribution path of an identity with its identifiers. -/
def ResolvedIdentity.groups (identity : ResolvedIdentity) : List AttributionGroup :=
  ⟨identity.path, identity.ids⟩ :: identity.others

/-! ## The record -/

/-- The bytes of an ASCII text. -/
def ascii (text : Text) : Bytes :=
  text.map fun c => UInt8.ofNat c.toNat

def kIdentityHeader : Bytes :=
  ascii (chars "# wgps-identities 1\n")

def idsText (ids : List Bytes) : Bytes :=
  [44].intercalate (ids.map fun id => ascii (hexBytes id))

def recordLine (entry : WString) (group : AttributionGroup) : Bytes :=
  utf8 entry ++ 9 :: (utf8 group.path ++ 9 :: (idsText group.ids ++ [10]))

def serializeIdentities (identities : Identities) : Bytes :=
  kIdentityHeader ++ identities.flatMap fun (entry, identity) =>
    if identity.ids = [] then [] else identity.groups.flatMap (recordLine entry)

/-- `wgps::hexDigit` -/
def hexDigit (c : UInt8) : Option UInt8 :=
  if 48 ≤ c ∧ c ≤ 57 then some (c - 48)
  else if 97 ≤ c ∧ c ≤ 102 then some (c - 97 + 10)
  else if 65 ≤ c ∧ c ≤ 70 then some (c - 65 + 10)
  else none

/-- The bytes of pairs of digits. -/
def parseHex : Bytes → Option Bytes
  | [] => some []
  | high :: low :: rest =>
    match hexDigit high, hexDigit low, parseHex rest with
    | some high, some low, some rest => some ((high * 16 + low) :: rest)
    | _, _, _ => none
  | [_] => none

def parseId (text : Bytes) : Option Bytes :=
  if text = [] then none else parseHex text

/-- One row: an entry, a path and its identifiers. -/
structure Row where
  entry : WString
  path : WString
  ids : List Bytes
  deriving DecidableEq

def parseRow (line : Bytes) : Option Row :=
  match line.splitOn 9 with
  | [entry, path, ids] =>
    if entry = [] ∨ path = [] then none
    else ((ids.splitOn 44).mapM parseId).map fun ids => ⟨wide entry, wide path, ids⟩
  | _ => none

/-- A row joins the entry it names, or is entered in the order of the keys. -/
def addRow (row : Row) : Identities → Identities
  | [] => [(row.entry, ⟨.retained, row.path, row.ids, []⟩)]
  | (entry, identity) :: rest =>
    if row.entry = entry then
      (entry, { identity with others := identity.others ++ [⟨row.path, row.ids⟩] }) :: rest
    else if row.entry < entry then
      (row.entry, ⟨.retained, row.path, row.ids, []⟩) :: (entry, identity) :: rest
    else (entry, identity) :: addRow row rest

/-- A record with any malformed row is read as empty. -/
def parseIdentities (text : Bytes) : Identities :=
  if ¬ kIdentityHeader <+: text ∨ text.getLast? ≠ some 10 then []
  else
    -- the piece behind the last line feed is empty
    match (((text.drop kIdentityHeader.length).splitOn 10).dropLast).mapM parseRow with
    | none => []
    | some rows => rows.foldl (fun identities row => addRow row identities) []

def Identities.find (identities : Identities) (entry : WString) : Option ResolvedIdentity :=
  (identities.find? fun pair => pair.1 == entry).map (·.2)

/-! ## Identification -/

def sortIds (ids : List Bytes) : List Bytes :=
  ids.insertionSort (· ≤ ·)

/-- What is gathered for an entry that does not resolve. -/
structure Gathered where
  groups : List (WString × List Bytes)
  pathless : List Bytes
  seen : List Bytes

/-- `groups[path].push_back(id)` on a `std::map`. -/
def pushGroup (path : WString) (id : Bytes) : List (WString × List Bytes) → List (WString × List Bytes)
  | [] => [(path, [id])]
  | (key, ids) :: rest =>
    if path = key then (key, ids ++ [id]) :: rest
    else if path < key then (path, [id]) :: (key, ids) :: rest
    else (key, ids) :: pushGroup path id rest

local instance : LawfulBEq Bytes := inferInstance

def Gathered.add (gathered : Gathered) (path : WString) (id : Bytes) : Gathered :=
  if id = [] ∨ id ∈ gathered.seen then gathered
  else if path = [] then
    { gathered with pathless := gathered.pathless ++ [id], seen := id :: gathered.seen }
  else { gathered with groups := pushGroup path id gathered.groups, seen := id :: gathered.seen }

/-- Every identifier the entry had, from the filters tagged with it and then from the record. -/
def gather (previous : Identities) (filters : List OwnedFilter) (entry : WString) : Gathered :=
  let fromFilters := (filters.filter fun filter => filter.tag == entry).map fun filter =>
    (filter.path, filter.appId)
  let fromRecord := ((previous.find entry).toList.flatMap ResolvedIdentity.groups).flatMap fun group =>
    group.ids.map fun id => (group.path, id)
  (fromFilters ++ fromRecord).foldl (fun gathered pair => gathered.add pair.1 pair.2) ⟨[], [], []⟩

/-- Paths and identifiers in order; identifiers without a path join the first group. -/
def retainedIdentity (gathered : Gathered) : ResolvedIdentity :=
  match gathered.groups, gathered.pathless with
  | [], [] => ⟨.none, [], [], []⟩
  | [], pathless => ⟨.retained, [], sortIds pathless, []⟩
  | (path, ids) :: rest, pathless =>
    ⟨.retained, path, sortIds (sortIds ids ++ pathless), rest.map fun (path, ids) => ⟨path, sortIds ids⟩⟩

/-- The machine a run meets: its file system, the identifier the filter engine gives a present
executable (empty when it is absent), and the kernel's case table. -/
structure Machine where
  fs : FileSystem
  presentId : WString → Bytes
  downcase : Bytes → Option Bytes

/-- The final DOS and NT paths. -/
def Machine.resolve (machine : Machine) (entry : WString) : WString × WString :=
  (resolvePath machine.fs entry .dos, resolvePath machine.fs entry .nt)

/-- Both final paths are known. -/
def Machine.Resolves (machine : Machine) (entry : WString) : Prop :=
  (machine.resolve entry).1 ≠ [] ∧ (machine.resolve entry).2 ≠ []

instance (machine : Machine) (entry : WString) : Decidable (machine.Resolves entry) :=
  inferInstanceAs (Decidable (_ ∧ _))

/-- The lowered identifier, where it differs, stands first. -/
def idsOf (downcase : Bytes → Option Bytes) (id : Bytes) : List Bytes :=
  if fullyLowered downcase id ≠ id then [fullyLowered downcase id, id] else [id]

def resolvedIdentity (machine : Machine) (entry : WString) : ResolvedIdentity :=
  let dosPath := (machine.resolve entry).1
  let present := machine.presentId dosPath
  let id := if present = [] then appIdFromNtPath (machine.resolve entry).2 else present
  ⟨if present = [] then .derived else .present, lower dosPath, idsOf machine.downcase id, []⟩

def identify (machine : Machine) (previous : Identities) (current : Owned) (entry : WString) :
    ResolvedIdentity :=
  if machine.Resolves entry then resolvedIdentity machine entry
  else retainedIdentity (gather previous current.filters entry)

/-- The entries are visited in any order; the map holds them by key. -/
def identifyApps (machine : Machine) (listed : List WString) (previous : Identities)
    (current : Owned) : Identities :=
  (listed.insertionSort (· ≤ ·)).map fun entry => (entry, identify machine previous current entry)

/-! ## What the filters are made of -/

/-- Each attribution path tags its own identifiers. -/
def appIds (identified : Identities) : List AppEntry :=
  identified.flatMap fun (entry, found) => found.groups.flatMap fun group =>
    group.ids.map fun id => ⟨id, memory (entry ++ 9 :: group.path)⟩

end ProgramSplit.Windows.Wfp
