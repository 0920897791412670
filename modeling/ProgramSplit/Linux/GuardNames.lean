/-
# Linux.GuardNames — guarded names in fixed buffers

`guard_slot_add` and `guard_user_bus` of `bpf-loader.cpp` enrol names; `address_role` and
`dentry_role` of `resolver_guard.bpf.c` look names up. Both sides build keys of a length and a
zero-filled buffer, each in its own way: 108 bytes for a Unix address, 64 for a file name.

* `addressKey_address`, `Endpoint.key_inj` — the key the guard builds of an address is that of an enrolled
  endpoint exactly if the address is that endpoint;
* `dentryKey_name`, `slotKey_inj` — the same for directory entries;
* `Call.endpoints`, `Call.entries` — which endpoints and which directory entries a call names;
* `guarded_names_exact` — after any calls of the loader, a lookup finds a role exactly if some call named
  that very endpoint or entry for it.
-/
import Mathlib.Data.List.Basic
import Mathlib.Tactic.SplitIfs

namespace ProgramSplit.Linux.GuardNames

set_option autoImplicit false

abbrev Bytes := List UInt8

structure ObjectId where
  dev : UInt64
  ino : UInt64
  deriving DecidableEq

/-- `struct endpoint_name` -/
structure EndpointName where
  netns : UInt32
  length : Nat
  name : Bytes
  deriving DecidableEq

/-- `struct guard_slot` -/
structure GuardSlot where
  parent : ObjectId
  name : Bytes
  deriving DecidableEq

def roleSocket : UInt32 := 1
def roleCache : UInt32 := 2
def roleCacheDir : UInt32 := 4
def roleNscdParent : UInt32 := 8
def roleUserRoot : UInt32 := 16

/-- A string without a terminator inside it. -/
abbrev Text := { t : Bytes // 0 ∉ t }

/-- Bytes copied to the front of a buffer of zeros. -/
def fill (capacity : Nat) (bytes : Bytes) : Bytes := bytes ++ List.replicate (capacity - bytes.length) 0

/-! ## The loader -/

/-- What a socket is bound to. -/
inductive Endpoint
  | path (text : Bytes)
  | abstract (name : Bytes)
  deriving DecidableEq

/-- The maps of the guard. -/
structure GuardMaps where
  names : EndpointName → UInt32
  slots : GuardSlot → UInt32
  dirs : ObjectId → UInt32
  roles : ObjectId → UInt32

def GuardMaps.empty : GuardMaps := ⟨fun _ => 0, fun _ => 0, fun _ => 0, fun _ => 0⟩

/-- `merge_role`: a key that is not there counts as no role. -/
def mergeRole {K : Type} [DecidableEq K] (map : K → UInt32) (key : K) (role : UInt32) : K → UInt32 :=
  fun k => if k = key then role ||| map k else map k

/-- The key of a pathname: its bytes and a terminator. -/
def pathKey (netns : UInt32) (spelling : Bytes) : EndpointName :=
  ⟨netns, spelling.length + 1, fill 108 (spelling ++ [0])⟩

/-- The key of an abstract name `@NAME`: a zero in place of the sign. -/
def abstractKey (netns : UInt32) (name : Bytes) : EndpointName :=
  ⟨netns, name.length + 1, fill 108 (0 :: name)⟩

def slotKey (parent : ObjectId) (name : Bytes) : GuardSlot := ⟨parent, fill 64 (name ++ [0])⟩

/-- A pathname enters the map of endpoints, unless it is too long for a socket address. -/
def enrolPath (maps : GuardMaps) (netns : UInt32) (spelling : Text) : Option GuardMaps :=
  if spelling.val.length + 1 > 108 then none
  else some { maps with names := mergeRole maps.names (pathKey netns spelling.val) roleSocket }

def enrolAbstract (maps : GuardMaps) (netns : UInt32) (name : Bytes) : GuardMaps :=
  { maps with names := mergeRole maps.names (abstractKey netns name) roleSocket }

def enrolSlot (maps : GuardMaps) (parent : ObjectId) (name : Text) (role : UInt32) : GuardMaps :=
  { maps with slots := mergeRole maps.slots (slotKey parent name.val) role }

/-- What the loader sees of the file system. -/
structure Host where
  /-- `fs::weakly_canonical` of an absolute path -/
  canonical : Text → Text
  canonical_ne_nil : ∀ path, (canonical path).val ≠ []
  parentPath : Text → Text
  filename : Text → Text
  isPresent : Text → Bool
  isDirectory : Text → Bool
  isSocket : Text → Bool
  isRegular : Text → Bool
  identity : Text → ObjectId

inductive Kind
  | socket
  | abstract
  | cache
  | cacheDir
  | userBusDir
  | nscdParent
  | other
  deriving DecidableEq

/-- The role of a file or socket that is there already. -/
def labelObject (host : Host) (maps : GuardMaps) (role : UInt32) (path : Text) : GuardMaps × Bool :=
  if host.isPresent path then
    if (role = roleSocket ∧ host.isSocket path = false) ∨
      (role = roleCache ∧ host.isRegular path = false) then
      (maps, false)
    else ({ maps with roles := mergeRole maps.roles (host.identity path) role }, true)
  else (maps, true)

/-- The directory entry of a slot, and the object if it is there. -/
def slotPath (host : Host) (maps : GuardMaps) (kind : Kind) (role : UInt32) (path : Text) :
    GuardMaps × Bool :=
  if host.isPresent (host.parentPath path) then
    if (host.filename path).val.length ≥ 64 then (maps, false)
    else
      labelObject host (enrolSlot maps (host.identity (host.parentPath path))
        (host.filename path) role) role path
  else if kind = .cache then (maps, false)
  else labelObject host maps role path

/-- The directories whose children have roles. -/
def addDirectory (host : Host) (maps : GuardMaps) (input : Text) (role : UInt32) : GuardMaps × Bool :=
  if input.val.head? ≠ some 0x2f ∨ host.isDirectory (host.canonical input) = false then (maps, false)
  else ({ maps with dirs := mergeRole maps.dirs (host.identity (host.canonical input)) role }, true)

/-- `guard_slot_add`: the maps, and whether it did not throw. -/
def guardSlotAdd (host : Host) (maps : GuardMaps) (netns : UInt32) (kind : Kind) (input : Text) :
    GuardMaps × Bool :=
  let path := host.canonical input
  match kind with
  | .abstract =>
    match input.val with
    | [] => (maps, false)
    | sign :: name =>
      if sign ≠ 0x40 ∨ input.val.length > 108 then (maps, false) else (enrolAbstract maps netns name, true)
  | .other => (maps, false)
  | .cacheDir => addDirectory host maps input roleCacheDir
  | .userBusDir => addDirectory host maps input roleUserRoot
  | .nscdParent => addDirectory host maps input roleNscdParent
  | .socket =>
    if input.val.head? ≠ some 0x2f then (maps, false)
    else
      match enrolPath maps netns input with
      | none => (maps, false)
      | some maps =>
        match enrolPath maps netns path with
        | none => (maps, false)
        | some maps => slotPath host maps kind roleSocket path
  | .cache => if input.val.head? ≠ some 0x2f then (maps, false) else slotPath host maps kind roleCache path

def busName : Text := ⟨[0x62, 0x75, 0x73], by decide⟩

/-- The separator that `/` of `fs::path` puts behind a directory, unless it ends in one or is empty. -/
def separator (directory : Bytes) : Bytes :=
  if directory.getLast? = none ∨ directory.getLast? = some 0x2f then [] else [0x2f]

theorem separator_plain (directory : Bytes) : 0 ∉ separator directory := by
  unfold separator
  split <;> decide

/-- `directory/"bus"` -/
def busPath (directory : Text) : Text :=
  ⟨directory.val ++ separator directory.val ++ busName.val, by
    simp [directory.property, separator_plain, busName.property]⟩

/-- `guard_user_bus`: nothing of a user's directory makes it fail. -/
def guardUserBus (host : Host) (maps : GuardMaps) (netns : UInt32) (directory : Text) : GuardMaps :=
  let path := busPath directory
  match enrolPath maps netns path with
  | none => maps
  | some maps =>
    if host.isDirectory directory = false then maps
    else
      let maps := enrolSlot maps (host.identity directory) busName roleSocket
      if host.isSocket path then { maps with
        roles := mergeRole maps.roles (host.identity path) roleSocket } else maps

/-! ## The guard -/

/-- `bpf_probe_read_kernel_str`: what arrives in a zeroed buffer, and the count with the terminator. -/
def readStr (capacity : Nat) (memory : Bytes) : Bytes × Nat :=
  let text := (memory.takeWhile (· ≠ 0)).take (capacity - 1)
  (fill capacity (text ++ [0]), text.length + 1)

/-- `struct unix_address`: its length with the family, and the bytes of `sun_path` in memory. -/
structure UnixAddress where
  len : Nat
  memory : Bytes

/-- How the kernel keeps an address: a pathname with its terminator, an abstract name behind a zero. -/
def Endpoint.address : Endpoint → UnixAddress
  | .path text => ⟨2 + text.length + 1, text ++ [0]⟩
  | .abstract name => ⟨2 + 1 + name.length, 0 :: name⟩

def addressKey (netns : UInt32) (address : UnixAddress) : Option EndpointName :=
  let length := address.len - 2
  if length < 1 ∨ length > 108 then none
  else if address.memory.headD 0 ≠ 0 then
    let (name, n) := readStr 108 address.memory
    if n < 1 ∨ n > 108 then none else some ⟨netns, n, name⟩
  else some ⟨netns, length, fill 108 (address.memory.take length)⟩

/-- `address_role` -/
def addressRole (maps : GuardMaps) (netns : UInt32) (address : Option UnixAddress) : UInt32 :=
  match address.bind (addressKey netns) with
  | some key => maps.names key
  | none => 0

/-- The key of a directory entry, none for a name longer than any slot's. -/
def dentryKey (parent : ObjectId) (name : Bytes) : Option GuardSlot :=
  let memory := name ++ [0]
  let (buffer, copied) := readStr 64 memory
  if copied < 1 then none
  else if copied = 64 ∧ memory.getD 63 0 ≠ 0 then none
  else some ⟨parent, buffer⟩

/-- The slot lookup of `dentry_role`. -/
def slotRole (maps : GuardMaps) (parent : ObjectId) (name : Bytes) : UInt32 :=
  match dentryKey parent name with
  | some key => maps.slots key
  | none => 0

/-! ## Keys -/

/-- A text with its terminator is determined by the buffer it fills. -/
theorem fill_text_inj {capacity : Nat} {a b : Bytes} (plainA : 0 ∉ a) (plainB : 0 ∉ b)
    (same : fill capacity (a ++ [0]) = fill capacity (b ++ [0])) : a = b := by
  have front : ∀ {t : Bytes}, 0 ∉ t → (fill capacity (t ++ [0])).takeWhile (· ≠ 0) = t := by
    intro t plain
    rw [fill, List.append_assoc, List.takeWhile_append_of_pos]
    · simp
    · intro c member
      simpa using fun zero : c = 0 => plain (zero ▸ member)
  rw [← front plainA, same, front plainB]

/-- Bytes are determined by their number and the buffer they fill. -/
theorem fill_inj {capacity : Nat} {a b : Bytes} (lengths : a.length = b.length)
    (same : fill capacity a = fill capacity b) : a = b :=
  List.append_inj_left same lengths

theorem takeWhile_text {text rest : Bytes} (plain : 0 ∉ text) :
    (text ++ 0 :: rest).takeWhile (· ≠ 0) = text := by
  rw [List.takeWhile_append_of_pos]
  · simp
  · intro c member
    simpa using fun zero : c = 0 => plain (zero ▸ member)

/-- A text that fits is read whole. -/
theorem readStr_text {capacity : Nat} {text : Bytes} (plain : 0 ∉ text) (fits : text.length ≤ capacity - 1) :
    readStr capacity (text ++ [0]) = (fill capacity (text ++ [0]), text.length + 1) := by
  rw [readStr, takeWhile_text plain, List.take_of_length_le fits]

/-- Names as the system has them: pathnames are texts, and not empty. -/
def Endpoint.Valid : Endpoint → Prop
  | .path text => text ≠ [] ∧ 0 ∉ text
  | .abstract _ => True

instance : (e : Endpoint) → Decidable e.Valid
  | .path _ => inferInstanceAs (Decidable (_ ∧ _))
  | .abstract _ => inferInstanceAs (Decidable True)

/-- The key under which the loader enrols an endpoint. -/
def Endpoint.key (netns : UInt32) : Endpoint → EndpointName
  | .path text => pathKey netns text
  | .abstract name => abstractKey netns name

/-- The bytes of an address in a socket address of the system. -/
def Endpoint.size : Endpoint → Nat
  | .path text => text.length + 1
  | .abstract name => name.length + 1

theorem address_len (e : Endpoint) : e.address.len - 2 = e.size := by
  cases e with
  | path text =>
    simp only [Endpoint.address, Endpoint.size]
    omega
  | abstract name =>
    simp only [Endpoint.address, Endpoint.size]
    omega

theorem size_pos (e : Endpoint) : 1 ≤ e.size := by
  cases e <;> exact Nat.le_add_left 1 _

/-- The guard's key of an address, at every length. -/
theorem addressKey_address (netns : UInt32) {e : Endpoint} (valid : e.Valid) :
    addressKey netns e.address = if e.size ≤ 108 then some (e.key netns) else none := by
  have positive := size_pos e
  unfold addressKey
  simp only [address_len]
  by_cases fits : e.size ≤ 108
  · rw [if_neg (by omega), if_pos fits]
    cases e with
    | path text =>
      obtain ⟨c, rest, rfl⟩ := List.exists_cons_of_ne_nil valid.1
      have nonzero : c ≠ 0 := fun zero => valid.2 (zero ▸ List.mem_cons_self)
      have head : (Endpoint.path (c :: rest)).address.memory.headD 0 ≠ 0 := nonzero
      have short : (c :: rest).length + 1 ≤ 108 := fits
      have read : readStr 108 (Endpoint.path (c :: rest)).address.memory =
          (fill 108 (c :: rest ++ [0]), (c :: rest).length + 1) :=
        readStr_text valid.2 (by omega)
      rw [if_pos head, read]
      rw [if_neg (by omega)]
      rfl
    | abstract name =>
      have whole : (0 :: name).take (name.length + 1) = 0 :: name := by simp
      simp only [Endpoint.address, Endpoint.size, Endpoint.key, abstractKey, List.headD_cons, ne_eq,
        not_true_eq_false, if_false, whole]
  · rw [if_pos (by omega), if_neg fits]

/-- Endpoints are determined by their keys. -/
theorem Endpoint.key_inj {netns netns' : UInt32} {e e' : Endpoint} (valid : e.Valid) (valid' : e'.Valid)
    (same : e.key netns = e'.key netns') : netns = netns' ∧ e = e' := by
  have spaces : netns = netns' := by
    cases e <;> cases e' <;> exact congrArg EndpointName.netns same
  refine ⟨spaces, ?_⟩
  -- A pathname's buffer begins with a byte, that of an abstract name with a zero.
  have apart : ∀ {text name : Bytes}, text ≠ [] → 0 ∉ text →
      fill 108 (text ++ [0]) ≠ fill 108 (0 :: name) := by
    intro text name nonempty plain equal
    obtain ⟨c, rest, rfl⟩ := List.exists_cons_of_ne_nil nonempty
    have zero : c = 0 := by
      exact (List.cons.inj equal).1
    exact plain (zero ▸ List.mem_cons_self)
  cases e with
  | path text =>
    cases e' with
    | path text' => rw [fill_text_inj valid.2 valid'.2 (congrArg EndpointName.name same)]
    | abstract name' => exact absurd (congrArg EndpointName.name same) (apart valid.1 valid.2)
  | abstract name =>
    cases e' with
    | path text' => exact absurd (congrArg EndpointName.name same).symm (apart valid'.1 valid'.2)
    | abstract name' =>
      have lengths : (0 :: name).length = (0 :: name').length := congrArg EndpointName.length same
      rw [(List.cons.inj (fill_inj lengths (congrArg EndpointName.name same))).2]

/-- The guard's key of a directory entry, at every length. -/
theorem dentryKey_name (parent : ObjectId) {name : Bytes} (plain : 0 ∉ name) :
    dentryKey parent name = if name.length < 64 then some (slotKey parent name) else none := by
  by_cases fits : name.length < 64
  · have beyond : (name ++ [0]).getD 63 0 = 0 := by
      by_cases shorter : name.length < 63
      · have past : (name ++ [0]).length ≤ 63 := by
          simp only [List.length_append, List.length_singleton]
          omega
        rw [List.getD, List.getElem?_eq_none past]
        rfl
      · have full : name.length = 63 := by omega
        rw [List.getD, List.getElem?_append_right (by omega), full]
        rfl
    have read : readStr 64 (name ++ [0]) = (fill 64 (name ++ [0]), name.length + 1) :=
      readStr_text plain (by omega)
    simp only [dentryKey, read, beyond, ne_eq, not_true_eq_false, and_false, if_false, if_pos fits]
    rfl
  · have long : 63 < name.length := by omega
    have nonzero : (name ++ [0]).getD 63 0 ≠ 0 := by
      rw [List.getD, List.getElem?_append_left long, List.getElem?_eq_getElem long]
      exact fun zero => plain (zero ▸ List.getElem_mem long)
    have copied : (readStr 64 (name ++ [0])).2 = 64 := by
      rw [readStr, takeWhile_text plain]
      simp only [List.length_take]
      omega
    simp only [dentryKey, copied, nonzero, ne_eq, not_false_eq_true, and_self, if_true, if_neg fits]
    rfl

theorem slotKey_inj {parent parent' : ObjectId} {name name' : Bytes} (plain : 0 ∉ name) (plain' : 0 ∉ name')
    (same : slotKey parent name = slotKey parent' name') : parent = parent' ∧ name = name' :=
  ⟨congrArg GuardSlot.parent same, fill_text_inj plain plain' (congrArg GuardSlot.name same)⟩

/-! ## Merged roles -/

/-- A role is found under a key exactly if it was merged there or was there before. -/
theorem and_mergeRole_ne_zero {K : Type} [DecidableEq K] {map : K → UInt32} {key k : K}
    {role role' : UInt32} :
    role &&& mergeRole map key role' k ≠ 0 ↔ (k = key ∧ role &&& role' ≠ 0) ∨ role &&& map k ≠ 0 := by
  unfold mergeRole
  by_cases same : k = key
  · have distributes : role &&& (role' ||| map k) = role &&& role' ||| role &&& map k :=
      UInt32.toBitVec_inj.mp BitVec.and_or_distrib_left
    rw [if_pos same, distributes, ne_eq, UInt32.or_eq_zero_iff, Classical.not_and_iff_not_or_not,
      and_iff_right same]
  · simp [same]

/-- The same of a role merged under several keys. -/
theorem and_foldl_mergeRole_ne_zero {K A : Type} [DecidableEq K] (key : A → K) {role role' : UInt32} {k : K}
    (items : List A) (map : K → UInt32) :
    role &&& items.foldl (fun map item => mergeRole map (key item) role') map k ≠ 0 ↔
      ((∃ item ∈ items, k = key item) ∧ role &&& role' ≠ 0) ∨ role &&& map k ≠ 0 := by
  induction items generalizing map with
  | nil => simp
  | cons item items ih =>
    rw [List.foldl_cons, ih, and_mergeRole_ne_zero, List.exists_mem_cons_iff, or_and_right,
      or_left_comm, or_assoc]

/-! ## Calls of the loader -/

/-- A call of the loader. -/
inductive Call
  | add (netns : UInt32) (kind : Kind) (input : Text)
  | userBus (netns : UInt32) (directory : Text)

/-- The directory entry of a path: its last name, below its parent. -/
def entryOf (host : Host) (path : Text) : List (ObjectId × Bytes) :=
  if host.isPresent (host.parentPath path) ∧ (host.filename path).val.length < 64 then
    [(host.identity (host.parentPath path), (host.filename path).val)]
  else []

namespace Call

def apply (host : Host) (maps : GuardMaps) : Call → GuardMaps
  | .add netns kind input => (guardSlotAdd host maps netns kind input).1
  | .userBus netns directory => guardUserBus host maps netns directory

def netns : Call → UInt32
  | .add netns _ _ => netns
  | .userBus netns _ => netns

/-- The role a call gives to what it names. -/
def role : Call → UInt32
  | .add _ .cache _ => roleCache
  | _ => roleSocket

/-- The endpoints a call names: the abstract name behind `@`; an absolute path as it is spelled, and as it
resolves; the bus of a directory. None is longer than a socket address holds. -/
def endpoints (host : Host) : Call → List Endpoint
  | .add _ .abstract input =>
    if input.val.head? = some 0x40 ∧ input.val.length ≤ 108 then [.abstract input.val.tail] else []
  | .add _ .socket input =>
    if input.val.head? = some 0x2f ∧ input.val.length < 108 then
      .path input.val ::
        if (host.canonical input).val.length < 108 then [.path (host.canonical input).val] else []
    else []
  | .userBus _ directory =>
    if (busPath directory).val.length < 108 then [.path (busPath directory).val] else []
  | _ => []

/-- The directory entries a call names. -/
def entries (host : Host) : Call → List (ObjectId × Bytes)
  | .add _ .socket input =>
    if input.val.head? = some 0x2f ∧ input.val.length < 108 ∧ (host.canonical input).val.length < 108 then
      entryOf host (host.canonical input)
    else []
  | .add _ .cache input => if input.val.head? = some 0x2f then entryOf host (host.canonical input) else []
  | .userBus _ directory =>
    if (busPath directory).val.length < 108 ∧ host.isDirectory directory then
      [(host.identity directory, busName.val)]
    else []
  | _ => []

end Call

section Calls

variable {host : Host} {maps : GuardMaps} {netns role : UInt32} {e : Endpoint}

theorem labelObject_keeps (role : UInt32) (path : Text) :
    (labelObject host maps role path).1.names = maps.names ∧
    (labelObject host maps role path).1.slots = maps.slots := by
  unfold labelObject
  split_ifs <;> exact ⟨rfl, rfl⟩

theorem addDirectory_keeps (input : Text) (role : UInt32) :
    (addDirectory host maps input role).1.names = maps.names ∧
    (addDirectory host maps input role).1.slots = maps.slots := by
  unfold addDirectory
  split_ifs <;> exact ⟨rfl, rfl⟩

/-- The part of a call that names a directory entry. -/
theorem slotPath_eq (kind : Kind) (role : UInt32) (path : Text) :
    (slotPath host maps kind role path).1.names = maps.names ∧
      (slotPath host maps kind role path).1.slots =
        (entryOf host path).foldl (fun slots entry =>
          mergeRole slots (slotKey entry.1 entry.2) role) maps.slots := by
  unfold slotPath
  by_cases present : host.isPresent (host.parentPath path) = true
  · by_cases short : (host.filename path).val.length < 64
    · simp [entryOf, present, short, Nat.not_le.mpr short, labelObject_keeps, enrolSlot]
    · simp [entryOf, present, short, Nat.not_lt.mp short]
  · have absent : entryOf host path = [] := if_neg fun both => present both.1
    rw [absent, if_neg present]
    split_ifs
    · exact ⟨rfl, rfl⟩
    · exact labelObject_keeps role path

/-- A path that fits is enrolled, and one that does not is refused. -/
theorem enrolPath_eq (maps : GuardMaps) (netns : UInt32) (spelling : Text) :
    enrolPath maps netns spelling = if spelling.val.length < 108 then
      some { maps with names := mergeRole maps.names ((Endpoint.path spelling.val).key netns) roleSocket }
    else none := by
  unfold enrolPath
  by_cases fits : spelling.val.length < 108
  · rw [if_pos fits, if_neg (by omega)]
    rfl
  · rw [if_neg fits, if_pos (by omega)]

/-- **What a call does to the two maps.** -/
theorem apply_eq (call : Call) :
    (call.apply host maps).names = (call.endpoints host).foldl
        (fun names e => mergeRole names (e.key call.netns) roleSocket) maps.names ∧
      (call.apply host maps).slots = (call.entries host).foldl
        (fun slots entry => mergeRole slots (slotKey entry.1 entry.2) call.role) maps.slots := by
  cases call with
  | userBus netns directory =>
    simp only [Call.apply, guardUserBus, enrolPath_eq, Call.endpoints, Call.entries]
    by_cases fits : (busPath directory).val.length < 108
    · by_cases present : host.isDirectory directory = true
      · simp only [fits, present, if_true, Bool.true_eq_false, if_false, and_self]
        split_ifs <;> exact ⟨rfl, rfl⟩
      · simp [fits, present, Call.netns]
    · simp [fits]
  | add netns kind input =>
    cases kind with
    | abstract =>
      simp only [Call.apply, guardSlotAdd, Call.endpoints, Call.entries]
      cases text : input.val with
      | nil => simp
      | cons sign name =>
        have refused : (sign ≠ 0x40 ∨ (sign :: name).length > 108) ↔
            ¬(sign = 0x40 ∧ (sign :: name).length ≤ 108) := by
          rw [not_and_or, Nat.not_le]
        simp only [List.head?_cons, Option.some.injEq, refused]
        split_ifs <;> exact ⟨rfl, rfl⟩
    | other => exact ⟨rfl, rfl⟩
    | cacheDir => exact addDirectory_keeps input roleCacheDir
    | userBusDir => exact addDirectory_keeps input roleUserRoot
    | nscdParent => exact addDirectory_keeps input roleNscdParent
    | socket =>
      simp only [Call.apply, guardSlotAdd, enrolPath_eq, Call.endpoints, Call.entries]
      by_cases absolute : input.val.head? = some 0x2f
      · by_cases fits : input.val.length < 108
        · by_cases resolved : (host.canonical input).val.length < 108
          · simp [absolute, fits, resolved, slotPath_eq, Call.netns, Call.role]
          · simp [absolute, fits, resolved, Call.netns]
        · simp [fits]
      · simp [absolute]
    | cache =>
      simp only [Call.apply, guardSlotAdd, Call.endpoints, Call.entries]
      by_cases absolute : input.val.head? = some 0x2f
      · simp [absolute, slotPath_eq, Call.role]
      · simp [absolute]

theorem busPath_length_le (directory : Text) : (busPath directory).val.length ≤ directory.val.length + 4 := by
  have one : (separator directory.val).length ≤ 1 := by
    unfold separator
    split <;> decide
  simp only [busPath, List.length_append, show busName.val.length = 3 from rfl]
  omega

theorem endpoints_valid {call : Call} (named : e ∈ call.endpoints host) : e.Valid ∧ e.size ≤ 108 := by
  have path {text : Text} (nonempty : text.val ≠ []) (fits : text.val.length < 108)
    (same : e = .path text.val) :
      e.Valid ∧ e.size ≤ 108 := same ▸ ⟨⟨nonempty, text.property⟩, fits⟩
  revert named
  fun_cases Call.endpoints host call <;> intro named
  case case1 input fits =>
    rw [List.mem_singleton.mp named]
    refine ⟨trivial, ?_⟩
    rw [Endpoint.size, List.length_tail]
    omega
  case case3 input fits =>
    rcases List.mem_cons.mp named with same | named
    · refine path (fun empty => ?_) fits.2 same
      rw [empty] at fits
      cases fits.1
    · split at named
      · exact path (host.canonical_ne_nil input) ‹_› (List.mem_singleton.mp named)
      · cases named
  case case5 directory fits => exact path (by simp [busPath, busName]) fits (List.mem_singleton.mp named)
  all_goals cases named

theorem entries_plain {call : Call} {entry : ObjectId × Bytes} (named : entry ∈ call.entries host) :
    0 ∉ entry.2 ∧ entry.2.length < 64 := by
  have ofPath {path : Text} (named : entry ∈ entryOf host path) : 0 ∉ entry.2 ∧ entry.2.length < 64 := by
    unfold entryOf at named
    split at named
    · rename_i short
      rw [List.mem_singleton.mp named]
      exact ⟨(host.filename path).property, short.2⟩
    · cases named
  revert named
  fun_cases Call.entries host call <;> intro named
  case case1 => exact ofPath named
  case case3 => exact ofPath named
  case case5 =>
    rw [List.mem_singleton.mp named]
    exact ⟨busName.property, show busName.val.length < 64 by decide⟩
  all_goals cases named

/-- The lookup of an address after a call. -/
theorem addressRole_apply (valid : e.Valid) (call : Call) :
    role &&& addressRole (call.apply host maps) netns (some e.address) ≠ 0 ↔
      (call.netns = netns ∧ e ∈ call.endpoints host ∧ role &&& roleSocket ≠ 0) ∨
        role &&& addressRole maps netns (some e.address) ≠ 0 := by
  simp only [addressRole, Option.bind_some, addressKey_address netns valid]
  by_cases short : e.size ≤ 108
  · have keys : (∃ named ∈ call.endpoints host, e.key netns = named.key call.netns) ↔
        call.netns = netns ∧ e ∈ call.endpoints host := by
      constructor
      · rintro ⟨named, member, same⟩
        obtain ⟨rfl, rfl⟩ := Endpoint.key_inj valid (endpoints_valid member).1 same
        exact ⟨rfl, member⟩
      · rintro ⟨rfl, member⟩
        exact ⟨e, member, rfl⟩
    rw [if_pos short]
    dsimp only
    rw [(apply_eq call).1, and_foldl_mergeRole_ne_zero, keys, and_assoc]
  · rw [if_neg short]
    exact ⟨.inr, fun either => either.resolve_left fun named => short (endpoints_valid named.2.1).2⟩

/-- The lookup of a directory entry after a call. -/
theorem slotRole_apply {parent : ObjectId} {name : Bytes} (plain : 0 ∉ name) (call : Call) :
    role &&& slotRole (call.apply host maps) parent name ≠ 0 ↔
      ((parent, name) ∈ call.entries host ∧ role &&& call.role ≠ 0) ∨
      role &&& slotRole maps parent name ≠ 0 := by
  simp only [slotRole, dentryKey_name parent plain]
  by_cases short : name.length < 64
  · have keys : (∃ entry ∈ call.entries host, slotKey parent name = slotKey entry.1 entry.2) ↔
        (parent, name) ∈ call.entries host := by
      constructor
      · rintro ⟨entry, member, same⟩
        obtain ⟨rfl, rfl⟩ := slotKey_inj plain (entries_plain member).1 same
        exact member
      · exact fun member => ⟨_, member, rfl⟩
    rw [if_pos short]
    dsimp only
    rw [(apply_eq call).2, and_foldl_mergeRole_ne_zero, keys]
  · rw [if_neg short]
    exact ⟨.inr, fun either => either.resolve_left fun named => short (entries_plain named.1).2⟩

end Calls

/-- What a call brings and no call takes away holds after a run exactly if one of the calls brought it or it
held before. -/
theorem foldl_apply_iff {host : Host} {P : GuardMaps → Prop} {Q : Call → Prop}
    (step : ∀ maps call, P (call.apply host maps) ↔ Q call ∨ P maps) (calls : List Call) (maps : GuardMaps) :
    P (calls.foldl (Call.apply host) maps) ↔ (∃ call ∈ calls, Q call) ∨ P maps := by
  induction calls generalizing maps with
  | nil => simp
  | cons call calls ih =>
    rw [List.foldl_cons, ih, step, List.exists_mem_cons_iff, or_left_comm, or_assoc]

/-- **Guarded names match exactly.** After any calls of the loader, an address has a role exactly if some
call named that endpoint in the same network namespace, and the slot of a directory entry exactly if some call
named that very entry below that directory for it; at every length. -/
theorem guarded_names_exact (host : Host) (calls : List Call) (role : UInt32) :
    (∀ netns (e : Endpoint), e.Valid →
      (role &&& addressRole (calls.foldl (Call.apply host) .empty) netns (some e.address) ≠ 0 ↔
        ∃ call ∈ calls, call.netns = netns ∧ e ∈ call.endpoints host ∧ role &&& roleSocket ≠ 0)) ∧
      (∀ parent name, 0 ∉ name →
        (role &&& slotRole (calls.foldl (Call.apply host) .empty) parent name ≠ 0 ↔
          ∃ call ∈ calls, (parent, name) ∈ call.entries host ∧ role &&& call.role ≠ 0)) := by
  constructor
  · intro netns e valid
    have absent : ¬role &&& addressRole .empty netns (some e.address) ≠ 0 := by
      unfold addressRole
      split <;> exact not_not.mpr UInt32.and_zero
    rw [foldl_apply_iff (P := fun maps => role &&& addressRole maps netns (some e.address) ≠ 0)
      (fun maps call => addressRole_apply valid call), or_iff_left absent]
  · intro parent name plain
    have absent : ¬role &&& slotRole .empty parent name ≠ 0 := by
      unfold slotRole
      split <;> exact not_not.mpr UInt32.and_zero
    rw [foldl_apply_iff (P := fun maps => role &&& slotRole maps parent name ≠ 0)
      (fun maps call => slotRole_apply plain call), or_iff_left absent]

/-! ## Poles -/

/-- A text without its zeros. -/
def text (s : String) : Text := ⟨s.toUTF8.data.toList.filter (· ≠ 0), by simp⟩

/-- A host where `/var/run` is a link to `/run`, with a directory of the name service and one of a user. -/
def runHost : Host where
  canonical := fun path => if path = text "/var/run/nscd/socket" then text "/run/nscd/socket" else text "/"
  canonical_ne_nil := by
    intro path
    split <;> decide
  parentPath := fun path =>
    ⟨(path.val.reverse.dropWhile (· ≠ 0x2f)).tail.reverse, fun zero => path.property (List.mem_reverse.mp
      ((List.dropWhile_sublist _).subset (List.mem_of_mem_tail (List.mem_reverse.mp zero))))⟩
  filename := fun path =>
    ⟨(path.val.reverse.takeWhile (· ≠ 0x2f)).reverse, fun zero => path.property (List.mem_reverse.mp
      ((List.takeWhile_sublist _).subset (List.mem_reverse.mp zero)))⟩
  isPresent := fun path => path = text "/run/nscd"
  isDirectory := fun path => path = text "/run/nscd" ∨ path = text "/run/user/1000"
  isSocket := fun _ => false
  isRegular := fun _ => false
  identity := fun path => ⟨26, path.val.length.toUInt64⟩

def runCalls : List Call :=
  [.add 7 .abstract (text "@a"), .add 7 .socket (text "/var/run/nscd/socket"),
    .userBus 7 (text "/run/user/1000")]

def runMaps : GuardMaps := runCalls.foldl (Call.apply runHost) .empty

/-- The abstract name, both spellings of the socket and the bus are found in their namespace, and so are the
entries `socket` and `bus` below their directories; a name longer or shorter by a byte is not. -/
theorem guarded_names_run :
    (∀ e ∈ [.abstract (text "a").val, .path (text "/var/run/nscd/socket").val,
        .path (text "/run/nscd/socket").val, .path (text "/run/user/1000/bus").val],
      roleSocket &&& addressRole runMaps 7 (some (Endpoint.address e)) ≠ 0) ∧
    (∀ e ∈ [.abstract (text "ab").val, .path (text "/run/nscd/socke").val],
      ¬roleSocket &&& addressRole runMaps 7 (some (Endpoint.address e)) ≠ 0) ∧
    roleSocket &&& slotRole runMaps ⟨26, 9⟩ (text "socket").val ≠ 0 ∧
    roleSocket &&& slotRole runMaps ⟨26, 14⟩ (text "bus").val ≠ 0 ∧
    ¬roleSocket &&& slotRole runMaps ⟨26, 9⟩ (text "sockets").val ≠ 0 := by
  obtain ⟨addresses, slots⟩ := guarded_names_exact runHost runCalls roleSocket
  simp only [runMaps, slots _ _ (text _).property, List.forall_mem_cons]
  rw [addresses 7 (.abstract _) (by decide), addresses 7 (.path _) (by decide),
    addresses 7 (.path _) (by decide), addresses 7 (.path _) (by decide),
    addresses 7 (.abstract (text "ab").val) (by decide), addresses 7 (.path _) (by decide)]
  refine ⟨⟨?_, ?_, ?_, ?_, nofun⟩, ⟨?_, ?_, nofun⟩, ?_, ?_, ?_⟩ <;> decide +kernel

end ProgramSplit.Linux.GuardNames
