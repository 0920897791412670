/-
# Linux.PolicyMaps — the two-tier policy maps and the classifier's lookup

The included executables live in two kernel hash maps: `paths_short` holds keys
of up to 255 bytes, `paths` the longer ones. The loader fills and edits them
(`initialize_paths`, `change_path`), reads them back (`policy_entries`), and the
classifier looks one executable up (`resolve_policy`). Each side chooses the
tier, the padding and the terminator for itself.

The maps follow the documented behaviour of `BPF_MAP_TYPE_HASH`: a key is the
first `key_size` bytes at the pointer, a new key is refused when the map is
full, `BPF_NOEXIST` refuses a present key, deleting an absent key fails, and a
walk with `bpf_map_get_next_key` under the owner's lock visits every key once in
an order of the kernel's choosing.

* `PolicySet` — the abstract policy: at most 1024 byte strings.
* `changePath_refines` — one edit of the maps is one edit of the set.
* `policyMaps_are_set_membership` — after any load and any edits the maps are
  exactly that set, for the loader's readback and for the classifier.
-/
import Mathlib.Data.Finset.Card
import Mathlib.Data.List.TakeWhile
import ProgramSplit.Lib.FiniteMap

namespace ProgramSplit.Linux.Policy

set_option autoImplicit false

open Lib

abbrev Bytes := List UInt8

/-! ## The path maps of `pin-set.h` -/

def PATH_BYTES : Nat := 4096

def SHORT_PATH_BYTES : Nat := 256

/-- The size of a map's keys and how many entries it holds. -/
structure MapSpec where
  key : Nat
  entries : Nat

def MapSpec.paths : MapSpec := ⟨PATH_BYTES, 1024⟩

def MapSpec.pathsShort : MapSpec := ⟨SHORT_PATH_BYTES, 1024⟩

/-! ## C strings and key buffers -/

/-- The bytes before the first NUL of a buffer. -/
def cString (buffer : Bytes) : Bytes :=
  buffer.takeWhile fun byte => byte != 0

/-- `memchr(buffer, 0, size)` as an offset. -/
def memchrNul (size : Nat) (buffer : Bytes) : Option Nat :=
  (buffer.take size).findIdx? fun byte => byte == 0

/-- `PathKey`: a zeroed buffer of `PATH_BYTES` with a C string copied into it. The
bytes are the string's, so no key is unterminated or has bytes behind its end. -/
structure PathKey where
  text : Bytes
  clean : 0 ∉ text
  fits : text.length < PATH_BYTES
  deriving DecidableEq

/-- A text copied into a zeroed buffer. -/
def pad (size : Nat) (text : Bytes) : Bytes :=
  text ++ List.replicate (size - text.length) 0

def PathKey.pathname (key : PathKey) : Bytes :=
  pad PATH_BYTES key.text

/-! ## Kernel hash maps -/

inductive Errno
  | enoent
  | eexist
  | e2big
  deriving DecidableEq, Repr

def strerror : Errno → String
  | .enoent => "No such file or directory"
  | .eexist => "File exists"
  | .e2big => "Argument list too long"

inductive UpdateFlag
  | any
  | noexist
  deriving DecidableEq, Repr

/-- A `BPF_MAP_TYPE_HASH` map; a key is the first `keySize` bytes at the pointer. -/
structure HashMap where
  keySize : Nat
  maxEntries : Nat
  entries : FiniteMap Bytes UInt32

namespace HashMap

def create (spec : MapSpec) : HashMap :=
  ⟨spec.key, spec.entries, ∅⟩

def lookupElem (map : HashMap) (key : Bytes) : Option UInt32 :=
  map.entries.lookup (key.take map.keySize)

def updateElem (map : HashMap) (key : Bytes) (value : UInt32) (flag : UpdateFlag) :
    Except Errno HashMap :=
  match map.lookupElem key with
  | some _ =>
    if flag = .noexist then .error .eexist
    else .ok { map with entries := map.entries.insert (key.take map.keySize) value }
  | none =>
    if map.maxEntries ≤ map.entries.keys.length then .error .e2big
    else .ok { map with entries := map.entries.insert (key.take map.keySize) value }

def deleteElem (map : HashMap) (key : Bytes) : Except Errno HashMap :=
  match map.lookupElem key with
  | some _ => .ok { map with entries := map.entries.erase (key.take map.keySize) }
  | none => .error .enoent

end HashMap

/-- The order in which `bpf_map_get_next_key` visits the keys of a map. -/
structure Walk where
  order : List Bytes → List Bytes
  visits : ∀ keys, (order keys).Perm keys

/-! ## The loader -/

/-- The two maps of one pinned generation. -/
structure PolicyMaps where
  paths : HashMap
  pathsShort : HashMap

/-- The maps of a freshly loaded object. -/
def PolicyMaps.fresh : PolicyMaps :=
  ⟨.create .paths, .create .pathsShort⟩

/-- The tier `path_map_spec` chooses: `maps[1]` for short keys, `maps[0]` otherwise. -/
inductive Tier
  | long
  | short
  deriving DecidableEq, Repr

def Tier.spec : Tier → MapSpec
  | .long => .paths
  | .short => .pathsShort

def pathMapSpec (key : PathKey) : Tier :=
  if (cString key.pathname).length < SHORT_PATH_BYTES then .short else .long

def PolicyMaps.tierMap (all : PolicyMaps) : Tier → HashMap
  | .long => all.paths
  | .short => all.pathsShort

def PolicyMaps.set (all : PolicyMaps) (map : HashMap) : Tier → PolicyMaps
  | .long => { all with paths := map }
  | .short => { all with pathsShort := map }

/-- `check`: the text with the reason of the failed call. -/
def checkError (text : String) (errno : Errno) : String :=
  text ++ ": " ++ strerror errno

/-- A system call on one tier's map: its failure is reported under `text` and
leaves the maps as they were. -/
def PolicyMaps.syscall (all : PolicyMaps) (tier : Tier) (text : String)
    (call : HashMap → Except Errno HashMap) : Except String Unit × PolicyMaps :=
  match call (all.tierMap tier) with
  | .ok map => (.ok (), all.set map tier)
  | .error errno => (.error (checkError text errno), all)

def selected : UInt32 := 1

def initializeLoop : List PathKey → PolicyMaps → Except String Unit × PolicyMaps
  | [], all => (.ok (), all)
  | key :: rest, all =>
    match all.syscall (pathMapSpec key) "initialize path"
        (·.updateElem key.pathname selected .noexist) with
    | (.ok (), all') => initializeLoop rest all'
    | failed => failed

def initializePaths (keys : List PathKey) (all : PolicyMaps) : Except String Unit × PolicyMaps :=
  if 1024 < keys.length then (.error "policy exceeds combined path capacity", all)
  else initializeLoop keys all

/-- One iteration of the readback: `next` holds the key in its first bytes, and what
earlier iterations left behind them. -/
def readKey (spec : MapSpec) (entries : Finset Bytes) (next : Bytes) : Except String (Finset Bytes) :=
  match memchrNul spec.key next with
  | none => .error "unterminated policy key"
  | some length =>
    if decide (length < SHORT_PATH_BYTES) ≠ decide (spec.key = SHORT_PATH_BYTES) then
      .error "policy key in wrong path tier"
    else if cString next ∈ entries ∨ 1024 < (insert (cString next) entries).card then
      .error "policy changed during readback or exceeds capacity"
    else .ok (insert (cString next) entries)

/-- The keys of one map, read through the buffer `next`. -/
def readKeys (spec : MapSpec) : List Bytes → Bytes → Finset Bytes → Except String (Finset Bytes)
  | [], _, entries => .ok entries
  | key :: rest, next, entries =>
    let next' := key ++ next.drop spec.key
    match readKey spec entries next' with
    | .ok entries' => readKeys spec rest next' entries'
    | .error text => .error text

def policyEntries (walk : Walk) (all : PolicyMaps) : Except String (Finset Bytes) :=
  let zeroed := List.replicate PATH_BYTES 0
  match readKeys .paths (walk.order all.paths.entries.keys) zeroed ∅ with
  | .ok entries => readKeys .pathsShort (walk.order all.pathsShort.entries.keys) zeroed entries
  | .error text => .error text

/-- `change_path` under the directory's exclusive lock; `command` names the request
in the error of its last call. -/
def changePath (walk : Walk) (key : PathKey) (adding : Bool) (command : String) (all : PolicyMaps) :
    Except String Unit × PolicyMaps :=
  let tier := pathMapSpec key
  if adding then
    let update := all.syscall tier command (·.updateElem key.pathname selected .any)
    match (all.tierMap tier).lookupElem key.pathname with
    | some _ => update
    | none =>
      match policyEntries walk all with
      | .error text => (.error text, all)
      | .ok entries =>
        if 1024 ≤ entries.card then (.error "policy exceeds combined path capacity", all)
        else update
  else
    all.syscall tier command (·.deleteElem key.pathname)

/-! ## The classifier -/

inductive Reason
  | direct
  | included
  | blocked
  | unsupportedContext
  | exeError
  | pathError
  | unlinkedImage
  | unsupportedSocket
  | sockoptError
  deriving DecidableEq, Repr

/-- What `resolve_policy` reads of an executable's file: the facts behind
`linked_file` and `synthetic_file`, and the text `d_path` spells for it. -/
structure Exe where
  inode : Bool
  nlink : Nat
  hashed : Bool
  dname : Bool
  dpath : Bytes
  deriving DecidableEq, Repr

def syntheticFile (exe : Exe) : Bool :=
  exe.dname

def linkedFile (exe : Exe) : Bool :=
  exe.inode && exe.nlink != 0 && exe.hashed && !exe.dname

/-- The per-CPU buffer every classification shares. -/
structure PathScratch where
  key : Bytes
  resolved : Bytes

/-- `bpf_path_d_path`: the text and its NUL are written at the end of the buffer and
then moved to its start; the length counts the NUL. A text that does not fit is
`-ENAMETOOLONG`. -/
def pathDPath (text : Bytes) (buffer : Bytes) : Int × Bytes :=
  let written := text ++ [0]
  if PATH_BYTES < written.length then (-36, buffer)
  else
    let placed := buffer.take (PATH_BYTES - written.length) ++ written
    (written.length, written ++ placed.drop written.length)

/-- `bpf_probe_read_kernel_str`: at most `size` bytes with the terminator, and how
many were copied. -/
def probeReadKernelStr (size : Nat) (source : Bytes) (buffer : Bytes) : Nat × Bytes :=
  let copied := (cString source).take (size - 1)
  (copied.length + 1, copied ++ 0 :: buffer.drop (copied.length + 1))

/-- The text `d_path` appends to the name of an unlinked image. -/
def deletedSuffix : Bytes :=
  [0x20, 0x28, 0x64, 0x65, 0x6c, 0x65, 0x74, 0x65, 0x64, 0x29]

/-- The lookup of the resolved path in one tier, through the zeroed key buffer. -/
def lookupResolved (all : PolicyMaps) (linked : Bool) (len : Nat) (work : PathScratch)
    (size : Nat) (tier : Tier) : Reason × PathScratch :=
  let zeroed := List.replicate size 0 ++ work.key.drop size
  let (copied, key) := probeReadKernelStr size work.resolved zeroed
  let work' := { work with key := key }
  if copied ≠ len then (.pathError, work')
  else
    match (all.tierMap tier).lookupElem key with
    | none => (.direct, work')
    | some _ => (if linked then .included else .unlinkedImage, work')

/-- The end of `resolve_policy`: `len` counts the terminator, so a path of 255 bytes
is the longest of the short tier. -/
def selectTier (all : PolicyMaps) (linked : Bool) (len : Nat) (work : PathScratch) :
    Reason × PathScratch :=
  if len ≤ SHORT_PATH_BYTES then lookupResolved all linked len work SHORT_PATH_BYTES .short
  else lookupResolved all linked len work PATH_BYTES .long

/-- Strip the suffix of an unlinked image: the cut, and the buffer ended there. -/
def stripDeleted (len : Nat) (resolved : Bytes) : Option (Nat × Bytes) :=
  if len < 12 then none
  else
    let cut := len - 11
    if PATH_BYTES - 11 < cut then none
    else if (resolved.drop cut).take 11 ≠ deletedSuffix ++ [0] then none
    else some (cut + 1, resolved.set cut 0)

def resolvePolicy (all : PolicyMaps) (exe : Exe) (work : PathScratch) : Reason × PathScratch :=
  let (len, resolved) := pathDPath exe.dpath work.resolved
  let work' := { work with resolved := resolved }
  if len ≤ 1 ∨ (PATH_BYTES : Int) < len ∨ resolved.head? ≠ some 0x2f then (.pathError, work')
  else if linkedFile exe then selectTier all true len.toNat work'
  else if syntheticFile exe then (.unlinkedImage, work')
  else
    match stripDeleted len.toNat resolved with
    | none => (.pathError, work')
    | some (len', resolved') => selectTier all false len' { work' with resolved := resolved' }

/-! ## Padded texts -/

variable {text : Bytes}

theorem cString_append_nul (clean : 0 ∉ text) (rest : Bytes) :
    cString (text ++ 0 :: rest) = text := by
  have nonzero : ∀ byte ∈ text, (byte != 0) = true := by
    intro byte mem
    rw [bne_iff_ne]
    rintro rfl
    exact clean mem
  rw [cString, List.takeWhile_append_of_pos nonzero]
  simp

/-- A padded text shorter than its buffer has its terminator and zeros behind it. -/
theorem pad_eq {size : Nat} (short : text.length < size) :
    pad size text = text ++ 0 :: List.replicate (size - text.length - 1) 0 := by
  rw [pad, ← List.replicate_succ]
  congr 2
  omega

theorem pad_length {size : Nat} (short : text.length ≤ size) :
    (pad size text).length = size := by
  simp only [pad, List.length_append, List.length_replicate]
  omega

theorem cString_pad {size : Nat} (clean : 0 ∉ text) (short : text.length < size)
    (rest : Bytes) : cString (pad size text ++ rest) = text := by
  rw [pad_eq short, List.append_assoc, List.cons_append]
  exact cString_append_nul clean _

theorem pad_take {size size' : Nat} (short : text.length ≤ size) (le : size ≤ size') :
    (pad size' text).take size = pad size text := by
  rw [pad, pad, List.take_append, List.take_of_length_le short, List.take_replicate]
  congr 2
  omega

theorem memchrNul_pad {size : Nat} (clean : 0 ∉ text) (short : text.length < size)
    (rest : Bytes) : memchrNul size (pad size text ++ rest) = some text.length := by
  have whole : (pad size text ++ rest).take size = pad size text := by
    rw [List.take_append_of_le_length (by rw [pad_length short.le]), List.take_of_length_le]
    rw [pad_length short.le]
  have none_before : text.findIdx? (fun byte => byte == 0) = none := by
    rw [List.findIdx?_eq_none_iff]
    intro byte mem
    rw [beq_eq_false_iff_ne]
    rintro rfl
    exact clean mem
  rw [memchrNul, whole, pad_eq short, List.findIdx?_append, none_before]
  simp [List.findIdx?_cons]

/-! ## Tiers -/

/-- The tier of a text, and the bytes its key has there. -/
def Tier.of (text : Bytes) : Tier :=
  if text.length < SHORT_PATH_BYTES then .short else .long

/-- A text a key can hold. -/
def Fits (text : Bytes) : Prop :=
  0 ∉ text ∧ text.length < PATH_BYTES

theorem Tier.of_fits (fits : Fits text) : text.length < (Tier.of text).spec.key := by
  unfold Tier.of
  split
  · assumption
  · exact fits.2

theorem Tier.spec_key_le (tier : Tier) : tier.spec.key ≤ PATH_BYTES := by
  cases tier <;> decide

theorem PathKey.fits_text (key : PathKey) : Fits key.text :=
  ⟨key.clean, key.fits⟩

@[simp] theorem cString_pathname (key : PathKey) : cString key.pathname = key.text := by
  have found := cString_pad key.clean key.fits []
  rwa [List.append_nil] at found

@[simp] theorem pathMapSpec_eq (key : PathKey) : pathMapSpec key = Tier.of key.text := by
  simp [pathMapSpec, Tier.of]

/-- Both tiers find the padded text at the front of the full buffer. -/
theorem pad_take_tier (fits : Fits text) :
    (pad PATH_BYTES text).take (Tier.of text).spec.key = pad (Tier.of text).spec.key text :=
  pad_take (Tier.of_fits fits).le (Tier.spec_key_le _)

/-! ## The abstract policy -/

/-- The policy as a set: at most 1024 byte strings, each one a key can hold. -/
@[ext] structure PolicySet where
  members : Finset Bytes
  bounded : members.card ≤ 1024
  fits : ∀ text ∈ members, Fits text

namespace PolicySet

def ofKeys (keys : List PathKey) (room : keys.length ≤ 1024) : PolicySet where
  members := (keys.map (·.text)).toFinset
  bounded := (List.toFinset_card_le _).trans (by simpa using room)
  fits := by
    intro text mem
    obtain ⟨key, -, rfl⟩ := List.mem_map.mp (List.mem_toFinset.mp mem)
    exact key.fits_text

/-- A member stays; a new path needs room. -/
def add (set : PolicySet) (key : PathKey) : Option PolicySet :=
  if key.text ∈ set.members then some set
  else if room : set.members.card < 1024 then
    some
      { members := insert key.text set.members
        bounded := (Finset.card_insert_le _ _).trans room
        fits := by
          intro text mem
          rcases Finset.mem_insert.mp mem with rfl | old
          · exact key.fits_text
          · exact set.fits text old }
  else none

def delete (set : PolicySet) (key : PathKey) : Option PolicySet :=
  if key.text ∈ set.members then
    some
      { members := set.members.erase key.text
        bounded := (Finset.card_erase_le).trans set.bounded
        fits := fun text mem => set.fits text (Finset.mem_of_mem_erase mem) }
  else none

theorem add_isSome (set : PolicySet) (key : PathKey) :
    (set.add key).isSome ↔ key.text ∈ set.members ∨ set.members.card < 1024 := by
  unfold add
  split_ifs <;> simp [*]

theorem delete_isSome (set : PolicySet) (key : PathKey) :
    (set.delete key).isSome ↔ key.text ∈ set.members := by
  unfold delete
  split_ifs <;> simp [*]

end PolicySet

/-- One `path-add` or `path-del` request, with the walk its readback makes. -/
structure Edit where
  key : PathKey
  adding : Bool
  command : String
  walk : Walk

def PolicySet.edit (set : PolicySet) (edit : Edit) : Option PolicySet :=
  if edit.adding then set.add edit.key else set.delete edit.key

def Edit.run (edit : Edit) (all : PolicyMaps) : Except String Unit × PolicyMaps :=
  changePath edit.walk edit.key edit.adding edit.command all

/-- The maps after a sequence of requests, each of which may fail. -/
def PolicyMaps.edits (all : PolicyMaps) (edits : List Edit) : PolicyMaps :=
  edits.foldl (fun all edit => (edit.run all).2) all

/-- The set after the same requests: a refused one changes nothing. -/
def PolicySet.edits (set : PolicySet) (edits : List Edit) : PolicySet :=
  edits.foldl (fun set edit => (set.edit edit).getD set) set

/-! ## What the maps represent -/

/-- The maps hold exactly the members, each padded in its tier. -/
structure Represents (all : PolicyMaps) (set : PolicySet) : Prop where
  keySize : ∀ tier, (all.tierMap tier).keySize = tier.spec.key
  maxEntries : ∀ tier, (all.tierMap tier).maxEntries = 1024
  keys : ∀ tier key, key ∈ (all.tierMap tier).entries ↔
    ∃ text ∈ set.members, Tier.of text = tier ∧ key = pad tier.spec.key text

theorem pad_injective {tier : Tier} {text text' : Bytes} (fits : Fits text) (fits' : Fits text')
    (at_tier : Tier.of text = tier) (at_tier' : Tier.of text' = tier)
    (same : pad tier.spec.key text = pad tier.spec.key text') : text = text' := by
  have read := cString_pad fits.1 (at_tier ▸ Tier.of_fits fits) []
  have read' := cString_pad fits'.1 (at_tier' ▸ Tier.of_fits fits') []
  rw [← read, ← read', same]

namespace Represents

variable {all : PolicyMaps} {set : PolicySet}

theorem fresh : Represents .fresh ⟨∅, by decide, by simp⟩ where
  keySize := by intro tier; cases tier <;> rfl
  maxEntries := by intro tier; cases tier <;> rfl
  keys := by intro tier key; cases tier <;> simp [PolicyMaps.tierMap, PolicyMaps.fresh, HashMap.create]

theorem mem_tier (represents : Represents all set) (fits : Fits text) :
    pad (Tier.of text).spec.key text ∈ (all.tierMap (Tier.of text)).entries ↔ text ∈ set.members := by
  rw [represents.keys]
  constructor
  · rintro ⟨text', mem, at_tier, same⟩
    rwa [pad_injective fits (set.fits _ mem) rfl at_tier same]
  · intro mem
    exact ⟨text, mem, rfl, rfl⟩

/-- A lookup of the full buffer finds exactly the members. -/
theorem lookup (represents : Represents all set) (fits : Fits text) :
    ((all.tierMap (Tier.of text)).lookupElem (pad PATH_BYTES text)).isSome ↔ text ∈ set.members := by
  rw [HashMap.lookupElem, represents.keySize, pad_take_tier fits, AList.lookup_isSome]
  exact represents.mem_tier fits

/-- No tier holds more keys than the set has members. -/
theorem keys_length_le (represents : Represents all set) (tier : Tier) :
    (all.tierMap tier).entries.keys.length ≤ set.members.card := by
  rw [← List.toFinset_card_of_nodup (AList.keys_nodup _)]
  refine (Finset.card_le_card (t := set.members.image (pad tier.spec.key)) ?_).trans
    Finset.card_image_le
  intro key mem
  obtain ⟨text, member, -, rfl⟩ := (represents.keys tier key).mp
    (AList.mem_keys.mpr (List.mem_toFinset.mp mem))
  exact Finset.mem_image_of_mem _ member

end Represents

/-! ## Readback -/

/-- One key of the tier, not read before and within the capacity, is read as its text. -/
theorem readKey_pad {tier : Tier} (fits : Fits text) (at_tier : Tier.of text = tier)
    {entries : Finset Bytes} (new : text ∉ entries) (room : (insert text entries).card ≤ 1024)
    (rest : Bytes) :
    readKey tier.spec entries (pad tier.spec.key text ++ rest) = .ok (insert text entries) := by
  have short : text.length < tier.spec.key := at_tier ▸ Tier.of_fits fits
  have tier_agrees : decide (text.length < SHORT_PATH_BYTES) =
      decide (tier.spec.key = SHORT_PATH_BYTES) := by
    subst at_tier
    unfold Tier.of
    split
    next below => exact decide_eq_true below
    next above => exact decide_eq_false above
  rw [readKey, memchrNul_pad fits.1 short]
  simp only [tier_agrees, ne_eq, not_true_eq_false, if_false, cString_pad fits.1 short]
  rw [if_neg (by grind)]

/-- A walk over distinct keys of one tier, none of them read before, reads their texts. -/
theorem readKeys_tier {set : PolicySet} (tier : Tier) : ∀ (keys : List Bytes) (next : Bytes)
    (entries : Finset Bytes), keys.Nodup → entries ⊆ set.members →
    (∀ key ∈ keys, ∃ text ∈ set.members, Tier.of text = tier ∧ text ∉ entries ∧
      key = pad tier.spec.key text) →
    ∃ entries' ⊆ set.members, readKeys tier.spec keys next entries = .ok entries' ∧
      ∀ text ∈ set.members, text ∈ entries' ↔
        text ∈ entries ∨ Tier.of text = tier ∧ pad tier.spec.key text ∈ keys
  | [], _, entries, _, within, _ => ⟨entries, within, rfl, by simp⟩
  | key :: rest, next, entries, nodup, within, spelled => by
    obtain ⟨text, member, at_tier, new, rfl⟩ := spelled key List.mem_cons_self
    obtain ⟨not_later, nodup⟩ := List.nodup_cons.mp nodup
    have within' : insert text entries ⊆ set.members := Finset.insert_subset member within
    have read := readKey_pad (set.fits _ member) at_tier new
      ((Finset.card_le_card within').trans set.bounded) (next.drop tier.spec.key)
    obtain ⟨entries', fits, done, reads⟩ := readKeys_tier tier rest (pad tier.spec.key text ++
      next.drop tier.spec.key) _ nodup within' (by grind)
    refine ⟨entries', fits, by simp only [readKeys, read, done], fun other mem => ?_⟩
    have same := @pad_injective tier _ _ (set.fits _ mem) (set.fits _ member)
    rw [reads other mem]
    grind

namespace Represents

variable {all : PolicyMaps} {set : PolicySet}

/-- **Readback is exact.** -/
theorem policyEntries_eq (represents : Represents all set) (walk : Walk) :
    policyEntries walk all = .ok set.members := by
  have nodup : ∀ map : HashMap, (walk.order map.entries.keys).Nodup :=
    fun map => (walk.visits _).nodup_iff.mpr (AList.keys_nodup _)
  have keys : ∀ tier key, key ∈ walk.order (all.tierMap tier).entries.keys ↔
      ∃ text ∈ set.members, Tier.of text = tier ∧ key = pad tier.spec.key text :=
    fun tier key => (walk.visits _).mem_iff.trans (AList.mem_keys.symm.trans (represents.keys tier key))
  obtain ⟨longs, within, long, isLong⟩ := readKeys_tier .long _ (List.replicate PATH_BYTES 0) ∅
    (nodup (all.tierMap .long)) (Finset.empty_subset set.members) (by grind)
  obtain ⟨entries, fits, short, isShort⟩ := readKeys_tier .short _ (List.replicate PATH_BYTES 0) longs
    (nodup (all.tierMap .short)) within (by grind)
  have whole : entries = set.members := by
    refine fits.antisymm fun text mem => (isShort text mem).mpr ?_
    cases at_tier : Tier.of text with
    | long => exact .inl ((isLong text mem).mpr (.inr ⟨at_tier, (keys _ _).mpr ⟨text, mem, at_tier, rfl⟩⟩))
    | short => exact .inr ⟨rfl, (keys _ _).mpr ⟨text, mem, at_tier, rfl⟩⟩
  simp only [Tier.spec, PolicyMaps.tierMap] at long short
  simp only [policyEntries, long, short, whole]

end Represents

/-! ## Loading and editing -/

@[simp] theorem PolicyMaps.tierMap_set (all : PolicyMaps) (map : HashMap) (tier tier' : Tier) :
    (all.set map tier).tierMap tier' = if tier' = tier then map else all.tierMap tier' := by
  cases tier <;> cases tier' <;> rfl

namespace Represents

variable {all : PolicyMaps} {set set' : PolicySet} (represents : Represents all set)

include represents

/-- Replacing one tier's map, with the members of the other tier unchanged. -/
theorem replace (tier : Tier) (map : HashMap)
    (keySize : map.keySize = (all.tierMap tier).keySize)
    (maxEntries : map.maxEntries = (all.tierMap tier).maxEntries)
    (here : ∀ key, key ∈ map.entries ↔
      ∃ text ∈ set'.members, Tier.of text = tier ∧ key = pad tier.spec.key text)
    (elsewhere : ∀ text, Tier.of text ≠ tier → (text ∈ set'.members ↔ text ∈ set.members)) :
    Represents (all.set map tier) set' where
  keySize tier' := by grind [represents.keySize tier', PolicyMaps.tierMap_set]
  maxEntries tier' := by grind [represents.maxEntries tier', PolicyMaps.tierMap_set]
  keys tier' key := by
    rw [PolicyMaps.tierMap_set]
    split
    next same => rw [here, same]
    next other => grind [represents.keys tier' key]

theorem take_pathname (key : PathKey) :
    key.pathname.take (all.tierMap (Tier.of key.text)).keySize =
      pad (Tier.of key.text).spec.key key.text := by
  rw [represents.keySize, PathKey.pathname, pad_take_tier key.fits_text]

/-- Entering a key the map can take represents the set with its text. -/
theorem update (key : PathKey) (flag : UpdateFlag) (text : String)
    (takes : if key.text ∈ set.members then flag = .any else set.members.card < 1024)
    (grown : set'.members = insert key.text set.members) :
    ∃ all', all.syscall (pathMapSpec key) text (·.updateElem key.pathname selected flag) =
        (.ok (), all') ∧ Represents all' set' := by
  obtain ⟨tier, at_tier⟩ : ∃ tier, tier = Tier.of key.text := ⟨_, rfl⟩
  have taken := represents.take_pathname key
  have found := represents.lookup key.fits_text
  rw [← at_tier] at taken found
  let entries := (all.tierMap tier).entries.insert (pad tier.spec.key key.text) selected
  have updated : (all.tierMap tier).updateElem key.pathname selected flag =
      .ok { all.tierMap tier with entries := entries } := by
    by_cases member : key.text ∈ set.members
    · rw [if_pos member] at takes
      obtain ⟨value, present⟩ := Option.isSome_iff_exists.mp (found.mpr member)
      have present' : (all.tierMap tier).lookupElem key.pathname = some value := present
      simp [HashMap.updateElem, present', takes, taken, entries]
    · rw [if_neg member] at takes
      have absent : (all.tierMap tier).lookupElem key.pathname = none :=
        Option.not_isSome_iff_eq_none.mp fun present => member (found.mp present)
      have below : ¬ (all.tierMap tier).maxEntries ≤ (all.tierMap tier).entries.keys.length := by
        have few := represents.keys_length_le tier
        rw [represents.maxEntries]
        omega
      simp only [HashMap.updateElem, absent, if_neg below, taken, entries]
  refine ⟨all.set { all.tierMap tier with entries := entries } tier, ?_, ?_⟩
  · simp only [pathMapSpec_eq, ← at_tier, PolicyMaps.syscall, updated]
  · refine represents.replace tier _ rfl rfl ?_ ?_
    · intro entry
      rw [AList.mem_insert, represents.keys, grown]
      grind
    · grind

/-- Deleting a member represents the set without it. -/
theorem erase (key : PathKey) (text : String)
    (member : key.text ∈ set.members) (shrunk : set'.members = set.members.erase key.text) :
    ∃ all', all.syscall (pathMapSpec key) text (·.deleteElem key.pathname) = (.ok (), all') ∧
      Represents all' set' := by
  obtain ⟨tier, at_tier⟩ : ∃ tier, tier = Tier.of key.text := ⟨_, rfl⟩
  have taken := represents.take_pathname key
  have found := represents.lookup key.fits_text
  rw [← at_tier] at taken found
  obtain ⟨value, present⟩ := Option.isSome_iff_exists.mp (found.mpr member)
  have present' : (all.tierMap tier).lookupElem key.pathname = some value := present
  refine ⟨all.set { all.tierMap tier with
    entries := (all.tierMap tier).entries.erase (pad tier.spec.key key.text) } tier, ?_, ?_⟩
  · simp only [pathMapSpec_eq, ← at_tier, PolicyMaps.syscall, HashMap.deleteElem, present', taken]
  · refine represents.replace tier _ rfl rfl ?_ ?_
    · intro entry
      rw [AList.mem_erase, represents.keys, shrunk]
      have apart : ∀ text ∈ set.members, Tier.of text = tier →
          pad tier.spec.key text = pad tier.spec.key key.text → text = key.text :=
        fun text old same => pad_injective (set.fits _ old) key.fits_text same at_tier.symm
      grind
    · grind

/-- **One edit of the maps is one edit of the set**; a refused one leaves the maps. -/
theorem changePath_refines (edit : Edit) :
    match set.edit edit with
    | some set' => ∃ all', edit.run all = (.ok (), all') ∧ Represents all' set'
    | none => ∃ text, edit.run all = (.error text, all) := by
  obtain ⟨key, adding, command, walk⟩ := edit
  have found : ((all.tierMap (pathMapSpec key)).lookupElem key.pathname).isSome ↔
      key.text ∈ set.members := by
    rw [pathMapSpec_eq]
    exact represents.lookup key.fits_text
  cases adding with
  | true =>
    by_cases member : key.text ∈ set.members
    · obtain ⟨value, present⟩ := Option.isSome_iff_exists.mp (found.mpr member)
      simp only [PolicySet.edit, PolicySet.add, if_pos member, Edit.run, changePath, present, if_true]
      exact represents.update key .any command (by simp [member])
        (Finset.insert_eq_of_mem member).symm
    · have absent : (all.tierMap (pathMapSpec key)).lookupElem key.pathname = none :=
        Option.not_isSome_iff_eq_none.mp fun present => member (found.mp present)
      have read := represents.policyEntries_eq walk
      by_cases room : set.members.card < 1024
      · simp only [PolicySet.edit, PolicySet.add, if_neg member, dif_pos room, Edit.run, changePath,
          absent, read, if_true, if_neg (Nat.not_le.mpr room)]
        exact represents.update key .any command (by simp [member, room]) rfl
      · simp only [PolicySet.edit, PolicySet.add, if_neg member, dif_neg room, Edit.run, changePath,
          absent, read, if_true, if_pos (Nat.not_lt.mp room)]
        exact ⟨_, rfl⟩
  | false =>
    by_cases member : key.text ∈ set.members
    · simp only [PolicySet.edit, PolicySet.delete, if_pos member, Edit.run, changePath,
        Bool.false_eq_true, if_false]
      exact represents.erase key command member rfl
    · have absent : (all.tierMap (pathMapSpec key)).lookupElem key.pathname = none :=
        Option.not_isSome_iff_eq_none.mp fun present => member (found.mp present)
      simp only [PolicySet.edit, PolicySet.delete, if_neg member, Edit.run, changePath,
        Bool.false_eq_true, if_false, PolicyMaps.syscall, HashMap.deleteElem, absent]
      exact ⟨_, rfl⟩

/-- An edit succeeds exactly when the set accepts it, and else changes nothing. -/
theorem run_outcome (edit : Edit) :
    if (set.edit edit).isSome then (edit.run all).1 = .ok ()
    else ∃ text, edit.run all = (.error text, all) := by
  have step := represents.changePath_refines edit
  cases accepted : set.edit edit with
  | some set' =>
    rw [accepted] at step
    obtain ⟨all', ran, -⟩ := step
    simp [ran]
  | none =>
    rw [accepted] at step
    simpa using step

/-- Any sequence of edits keeps the maps on the set. -/
theorem edits (requests : List Edit) :
    Represents (all.edits requests) (set.edits requests) := by
  induction requests generalizing all set with
  | nil => exact represents
  | cons edit rest ih =>
    have step := represents.changePath_refines edit
    refine ih ?_
    show Represents (edit.run all).2 ((set.edit edit).getD set)
    split at step
    · rename_i set' accepted
      obtain ⟨all', ran, represents'⟩ := step
      rwa [ran, accepted]
    · rename_i refused
      obtain ⟨text, ran⟩ := step
      rwa [ran, refused]

omit represents in
/-- Entering distinct keys one by one, while the set has room for all of them. -/
theorem initializeLoop_refines : ∀ (keys : List PathKey) {all : PolicyMaps} {set : PolicySet},
    Represents all set → keys.Nodup → (∀ key ∈ keys, key.text ∉ set.members) →
    ∀ set' : PolicySet, (∀ text, text ∈ set'.members ↔ text ∈ set.members ∨ text ∈ keys.map (·.text)) →
      ∃ all', initializeLoop keys all = (.ok (), all') ∧ Represents all' set' := by
  intro keys
  induction keys with
  | nil =>
    intro all set represents _ _ set' same
    have : set' = set := PolicySet.ext (Finset.ext (by simpa using same))
    exact ⟨all, rfl, this ▸ represents⟩
  | cons key rest ih =>
    intro all set represents nodup fresh set' union
    obtain ⟨not_later, nodup_rest⟩ := List.nodup_cons.mp nodup
    have new := fresh key List.mem_cons_self
    have within : insert key.text set.members ⊆ set'.members := by grind
    have room := (Finset.card_le_card within).trans set'.bounded
    let middle : PolicySet :=
      ⟨insert key.text set.members, room, fun text mem => set'.fits text (within mem)⟩
    have takes : if key.text ∈ set.members then UpdateFlag.noexist = .any
        else set.members.card < 1024 := by
      rw [if_neg new]
      rw [Finset.card_insert_of_notMem new] at room
      omega
    obtain ⟨all', updated, represents'⟩ :=
      represents.update key .noexist "initialize path" takes
        (rfl : middle.members = insert key.text set.members)
    have rest_new : ∀ later ∈ rest, later.text ∉ middle.members := by
      have apart : ∀ later : PathKey, later.text = key.text → later = key :=
        fun ⟨_, _, _⟩ => by cases key; simp
      grind
    obtain ⟨all'', done, represents''⟩ := ih represents' nodup_rest rest_new set' (by grind)
    refine ⟨all'', ?_, represents''⟩
    simp only [initializeLoop, updated, done]

end Represents

/-! ## Classification -/

/-- The zeroed key buffer with a resolved path copied in starts with the padded path,
whatever the buffers held before. -/
theorem probeReadKernelStr_pad {size : Nat} (clean : 0 ∉ text)
    (short : text.length < size) (rest key : Bytes) :
    probeReadKernelStr size (text ++ 0 :: rest) (List.replicate size 0 ++ key.drop size) =
      (text.length + 1, pad size text ++ key.drop size) := by
  have whole : text.take (size - 1) = text := List.take_of_length_le (by omega)
  have behind : (List.replicate size (0 : UInt8) ++ key.drop size).drop (text.length + 1) =
      List.replicate (size - text.length - 1) 0 ++ key.drop size := by
    have within : text.length + 1 ≤ (List.replicate size (0 : UInt8)).length := by
      rw [List.length_replicate]
      omega
    rw [List.drop_append_of_le_length within, List.drop_replicate]
    congr 2
  simp only [probeReadKernelStr, cString_append_nul clean, whole, behind, pad_eq short,
    List.append_assoc, List.cons_append]

namespace Represents

variable {all : PolicyMaps} {set : PolicySet}

theorem lookupResolved_tier (represents : Represents all set) (fits : Fits text)
    (linked : Bool) (rest key : Bytes) :
    (lookupResolved all linked (text.length + 1) ⟨key, text ++ 0 :: rest⟩ (Tier.of text).spec.key
      (Tier.of text)).1 =
      if text ∈ set.members then (if linked then .included else .unlinkedImage) else .direct := by
  obtain ⟨tier, at_tier⟩ : ∃ tier, tier = Tier.of text := ⟨_, rfl⟩
  have short := Tier.of_fits fits
  have found := represents.mem_tier fits
  rw [← at_tier] at short found ⊢
  have copied := probeReadKernelStr_pad fits.1 short rest key
  have looked_up : (all.tierMap tier).lookupElem (pad tier.spec.key text ++ key.drop tier.spec.key) =
      (all.tierMap tier).entries.lookup (pad tier.spec.key text) := by
    rw [HashMap.lookupElem, represents.keySize,
      List.take_append_of_le_length (by rw [pad_length short.le]),
      List.take_of_length_le (by rw [pad_length short.le])]
  simp only [lookupResolved, copied, looked_up, ne_eq, not_true_eq_false, if_false]
  by_cases member : text ∈ set.members
  · obtain ⟨value, present⟩ := Option.isSome_iff_exists.mp (AList.lookup_isSome.mpr (found.mpr member))
    simp only [present, if_pos member]
  · have absent : (all.tierMap tier).entries.lookup (pad tier.spec.key text) = none :=
      AList.lookup_eq_none.mpr fun present => member (found.mp present)
    simp only [absent, if_neg member]

theorem selectTier_eq (represents : Represents all set) (fits : Fits text)
    (linked : Bool) (rest key : Bytes) :
    (selectTier all linked (text.length + 1) ⟨key, text ++ 0 :: rest⟩).1 =
      if text ∈ set.members then (if linked then .included else .unlinkedImage) else .direct := by
  rw [← represents.lookupResolved_tier fits linked rest key]
  unfold selectTier Tier.of
  by_cases below : text.length < SHORT_PATH_BYTES
  · rw [if_pos (Nat.succ_le_of_lt below), if_pos below]
    rfl
  · rw [if_neg (by omega), if_neg below]
    rfl

end Represents

/-- An absolute path of 2 to 4095 bytes, as an executable's name in the file tree. -/
structure ExecutablePath (path : Bytes) : Prop where
  absolute : path.head? = some 0x2f
  clean : 0 ∉ path
  nonroot : 2 ≤ path.length
  fits : path.length ≤ 4095

theorem pathDPath_fits (room : text.length < PATH_BYTES) (buffer : Bytes) :
    ∃ rest, pathDPath text buffer = (((text.length + 1 : Nat) : Int), text ++ 0 :: rest) := by
  have fits : ¬ PATH_BYTES < text.length + 1 := by omega
  refine ⟨(buffer.take (PATH_BYTES - (text.length + 1)) ++ (text ++ [0])).drop (text.length + 1), ?_⟩
  simp only [pathDPath, List.length_append, List.length_singleton, if_neg fits, List.append_assoc,
    List.singleton_append]

/-- Behind an absolute text that fits, none of the early errors is taken. -/
theorem resolvePolicy_fits (all : PolicyMaps) {exe : Exe} (work : PathScratch)
    (absolute : exe.dpath.head? = some 0x2f) (nonroot : 2 ≤ exe.dpath.length)
    (room : exe.dpath.length < PATH_BYTES) :
    ∃ rest, resolvePolicy all exe work =
      if linkedFile exe then
        selectTier all true (exe.dpath.length + 1) ⟨work.key, exe.dpath ++ 0 :: rest⟩
      else if syntheticFile exe then (.unlinkedImage, ⟨work.key, exe.dpath ++ 0 :: rest⟩)
      else
        match stripDeleted (exe.dpath.length + 1) (exe.dpath ++ 0 :: rest) with
        | none => (.pathError, ⟨work.key, exe.dpath ++ 0 :: rest⟩)
        | some (len', resolved') => selectTier all false len' ⟨work.key, resolved'⟩ := by
  obtain ⟨rest, resolved⟩ := pathDPath_fits room work.resolved
  refine ⟨rest, ?_⟩
  have head : (exe.dpath ++ 0 :: rest).head? = some 0x2f := by
    rw [List.head?_append, absolute]
    rfl
  have early : ¬ (((exe.dpath.length + 1 : Nat) : Int) ≤ 1 ∨
      (PATH_BYTES : Int) < ((exe.dpath.length + 1 : Nat) : Int) ∨
      (exe.dpath ++ 0 :: rest).head? ≠ some 0x2f) := by
    rw [head]
    push Not
    exact ⟨by omega, by exact_mod_cast room, rfl⟩
  simp only [resolvePolicy, resolved, if_neg early, Int.toNat_natCast]

/-- The suffix of an unlinked image is found and cut off. -/
theorem stripDeleted_suffix {path : Bytes} (nonempty : path ≠ [])
    (room : (path ++ deletedSuffix).length < PATH_BYTES) (rest : Bytes) :
    stripDeleted ((path ++ deletedSuffix).length + 1) (path ++ deletedSuffix ++ 0 :: rest) =
      some (path.length + 1, path ++ 0 :: (deletedSuffix.tail ++ 0 :: rest)) := by
  have length : (path ++ deletedSuffix).length = path.length + 10 := by
    rw [List.length_append]
    rfl
  have positive := List.length_pos_iff.mpr nonempty
  have cut : path.length + 10 + 1 - 11 = path.length := by omega
  have tail : ((path ++ deletedSuffix ++ 0 :: rest).drop path.length).take 11 =
      deletedSuffix ++ [0] := by
    rw [List.append_assoc, List.drop_left]
    rfl
  have ended : (path ++ deletedSuffix ++ 0 :: rest).set path.length 0 =
      path ++ 0 :: (deletedSuffix.tail ++ 0 :: rest) := by
    rw [List.append_assoc, List.set_append_right _ _ le_rfl, Nat.sub_self]
    rfl
  have long : ¬ path.length + 10 + 1 < 12 := by omega
  have bounded : ¬ PATH_BYTES - 11 < path.length := by
    omega
  simp only [stripDeleted, length, cut, if_neg long, if_neg bounded, tail, ended, ne_eq,
    not_true_eq_false, if_false]

namespace Represents

variable {all : PolicyMaps} {set : PolicySet}

/-- A linked image is included exactly when its path is a member. -/
theorem resolvePolicy_linked (represents : Represents all set) {exe : Exe}
    (path : ExecutablePath exe.dpath) (linked : linkedFile exe = true) (work : PathScratch) :
    (resolvePolicy all exe work).1 = if exe.dpath ∈ set.members then .included else .direct := by
  have fits : Fits exe.dpath := ⟨path.clean, Nat.lt_succ_of_le path.fits⟩
  obtain ⟨rest, resolved⟩ := resolvePolicy_fits all work path.absolute path.nonroot fits.2
  rw [resolved, if_pos linked, represents.selectTier_eq fits]
  rfl

/-- An unlinked regular image is refused exactly when its path is a member. -/
theorem resolvePolicy_unlinked (represents : Represents all set) {exe : Exe} {path : Bytes}
    (executable : ExecutablePath path) (spelled : exe.dpath = path ++ deletedSuffix)
    (room : exe.dpath.length < PATH_BYTES) (unlinked : linkedFile exe = false)
    (regular : syntheticFile exe = false) (work : PathScratch) :
    (resolvePolicy all exe work).1 = if path ∈ set.members then .unlinkedImage else .direct := by
  have nonempty : path ≠ [] := by
    rintro rfl
    exact absurd executable.nonroot (by decide)
  have absolute : exe.dpath.head? = some 0x2f := by
    rw [spelled, List.head?_append, executable.absolute]
    rfl
  have nonroot : 2 ≤ exe.dpath.length := by
    rw [spelled, List.length_append]
    exact executable.nonroot.trans (Nat.le_add_right _ _)
  obtain ⟨rest, resolved⟩ := resolvePolicy_fits all work absolute nonroot room
  have stripped := stripDeleted_suffix nonempty (spelled ▸ room) rest
  have fits : Fits path := ⟨executable.clean, Nat.lt_succ_of_le executable.fits⟩
  rw [resolved, unlinked, regular, spelled, stripped]
  simp only [Bool.false_eq_true, if_false]
  rw [represents.selectTier_eq fits]
  rfl

end Represents

/-! ## The maps are the set -/

theorem initializePaths_refines {keys : List PathKey} (distinct : keys.Nodup)
    (room : keys.length ≤ 1024) :
    ∃ loaded, initializePaths keys .fresh = (.ok (), loaded) ∧
      Represents loaded (.ofKeys keys room) := by
  rw [initializePaths, if_neg (Nat.not_lt.mpr room)]
  exact Represents.initializeLoop_refines keys Represents.fresh distinct (by simp) _
    (by simp [PolicySet.ofKeys])

/-- **The two-tier maps implement exact set membership.** A list of distinct keys is
loaded when it has at most 1024 of them. After any edits, with the set they leave:
it has at most 1024 members; an edit succeeds exactly when the set accepts it, and a
refused one changes nothing; the readback is the set; and the classifier answers by
membership, from any contents of the shared buffer. -/
theorem policyMaps_are_set_membership (keys : List PathKey) (distinct : keys.Nodup) :
    (1024 < keys.length → ∃ text, initializePaths keys .fresh = (.error text, .fresh)) ∧
    ∀ room : keys.length ≤ 1024, ∃ loaded, initializePaths keys .fresh = (.ok (), loaded) ∧
      ∀ requests : List Edit,
        let all := loaded.edits requests
        let set := (PolicySet.ofKeys keys room).edits requests
        set.members.card ≤ 1024 ∧
        (∀ walk, policyEntries walk all = .ok set.members) ∧
        (∀ walk key command,
          if key.text ∈ set.members ∨ set.members.card < 1024 then
            (changePath walk key true command all).1 = .ok ()
          else ∃ text, changePath walk key true command all = (.error text, all)) ∧
        (∀ walk key command,
          if key.text ∈ set.members then (changePath walk key false command all).1 = .ok ()
          else ∃ text, changePath walk key false command all = (.error text, all)) ∧
        (∀ exe work, ExecutablePath exe.dpath → linkedFile exe = true →
          (resolvePolicy all exe work).1 = if exe.dpath ∈ set.members then .included else .direct) ∧
        (∀ exe work path, ExecutablePath path → exe.dpath = path ++ deletedSuffix →
          exe.dpath.length < PATH_BYTES → linkedFile exe = false → syntheticFile exe = false →
          (resolvePolicy all exe work).1 =
            if path ∈ set.members then .unlinkedImage else .direct) := by
  refine ⟨fun full => ⟨_, by rw [initializePaths, if_pos full]⟩, fun room => ?_⟩
  obtain ⟨loaded, initialized, represents⟩ := initializePaths_refines distinct room
  refine ⟨loaded, initialized, fun requests => ?_⟩
  have after := represents.edits requests
  intro all set
  refine ⟨set.bounded, after.policyEntries_eq, ?_, ?_, ?_, ?_⟩
  · intro walk key command
    have outcome := after.run_outcome ⟨key, true, command, walk⟩
    simp only [PolicySet.edit, if_true, PolicySet.add_isSome] at outcome
    exact outcome
  · intro walk key command
    have outcome := after.run_outcome ⟨key, false, command, walk⟩
    simp only [PolicySet.edit, Bool.false_eq_true, if_false, PolicySet.delete_isSome] at outcome
    exact outcome
  · intro exe work path linked
    exact after.resolvePolicy_linked path linked work
  · intro exe work path executable spelled fits unlinked regular
    exact after.resolvePolicy_unlinked executable spelled fits unlinked regular work

/-- The key `/a`. -/
def PathKey.a : PathKey :=
  ⟨[0x2f, 0x61], by decide, by decide⟩

/-- The key `/b`. -/
def PathKey.b : PathKey :=
  ⟨[0x2f, 0x62], by decide, by decide⟩

/-- A key too long for the short tier. -/
def PathKey.long : PathKey :=
  ⟨0x2f :: List.replicate 300 0x63, by decide +kernel, by decide +kernel⟩

/-- `/a` goes and the long key comes, each readback in the maps' own order. -/
def swapped : List Edit :=
  [⟨.a, false, "path-del", id, fun _ => List.Perm.refl _⟩,
    ⟨.long, true, "path-add", id, fun _ => List.Perm.refl _⟩]

/-- With `/a` and `/b` loaded and the edits made, a linked `/a` is direct, the long one included, and a
replaced `/b` refused. -/
theorem policyMaps_are_set_membership_enrolled : [PathKey.a, .b].Nodup ∧
    ∃ loaded, initializePaths [PathKey.a, .b] .fresh = (.ok (), loaded) ∧
      (resolvePolicy (loaded.edits swapped) ⟨true, 1, true, false, PathKey.a.text⟩ ⟨[1], [2]⟩).1 = .direct ∧
      (resolvePolicy (loaded.edits swapped) ⟨true, 1, true, false,
        PathKey.long.text⟩ ⟨[1], [2]⟩).1 = .included ∧
      (resolvePolicy (loaded.edits swapped) ⟨true, 0, false, false, PathKey.b.text ++
        deletedSuffix⟩ ⟨[1], [2]⟩).1 =
        .unlinkedImage := by
  have distinct : [PathKey.a, .b].Nodup := by decide
  obtain ⟨loaded, initialized, after⟩ :=
    (policyMaps_are_set_membership [PathKey.a, .b] distinct).2 (by decide)
  obtain ⟨-, -, -, -, linked, unlinked⟩ := after swapped
  have executable : ExecutablePath PathKey.a.text ∧ ExecutablePath PathKey.long.text ∧
      ExecutablePath PathKey.b.text := by
    refine ⟨⟨rfl, ?_, ?_, ?_⟩, ⟨rfl, ?_, ?_, ?_⟩, ⟨rfl, ?_, ?_, ?_⟩⟩ <;> decide +kernel
  refine ⟨distinct, loaded, initialized, ?_, ?_, ?_⟩
  · exact (linked _ _ executable.1 rfl).trans (if_neg (by decide +kernel))
  · exact (linked _ _ executable.2.1 rfl).trans (if_pos (by decide +kernel))
  · exact (unlinked _ _ _ executable.2.2 rfl (by decide) rfl rfl).trans (if_pos (by decide +kernel))

end ProgramSplit.Linux.Policy
