/-
# Linux.Receipts — ownership receipts as a compare-and-swap cell

`write_receipt`, `read_receipt` and `verify_resource` of `ownership.py`, with the checks they share. A
receipt is printed as JSON, with its inventories as tuples; it is read back with lists, and checked by
the same function. It is published by a link, which replaces nothing, or by a rename over the expected
one; every file operation may fail, and the process may die in it.

* `decodeReceipt_asdict` — the check returns the receipt it is given, as tuples or as lists;
* `readReceipt_content` — the printed text of an accepted receipt is read back as that receipt;
* `writeReceipt_cases` — what a call leaves: the receipt as it was, or its own, complete;
* `receipts_exact` — so for every sequence of calls.
-/
import ProgramSplit.Lib.Json
import ProgramSplit.Lib.Sequence

namespace ProgramSplit.Linux.Receipts

open Lib
open Lib.Json

set_option autoImplicit false

/-! ## Receipts -/

structure FileIdentity where
  name : Str
  device : Int
  inode : Int
  ctimeNs : Int
  size : Int
  sha256 : Str
  ownerUid : Int
  mode : Int
  deriving DecidableEq

structure ResourceIdentity (F : Type) where
  kind : Str
  name : Str
  identity : Value F

structure Receipt (F : Type) where
  schemaVersion : Int
  attemptId : Str
  bootId : Str
  files : List FileIdentity
  resources : List (ResourceIdentity F)

section Model

variable {F : Type}

def fileKeys : List Str :=
  ["ctime_ns", "device", "inode", "mode", "name", "owner_uid", "sha256", "size"].map ofString

def resourceKeys : List Str := ["identity", "kind", "name"].map ofString

def receiptKeys : List Str := ["attempt_id", "boot_id", "files", "resources", "schema_version"].map ofString

def FileIdentity.asdict (f : FileIdentity) : Value F :=
  .dict (fileKeys.zip [.int f.ctimeNs, .int f.device, .int f.inode, .int f.mode, .str f.name, .int f.ownerUid,
    .str f.sha256, .int f.size])

def ResourceIdentity.asdict (r : ResourceIdentity F) : Value F :=
  .dict (resourceKeys.zip [r.identity, .str r.kind, .str r.name])

/-- `asdict`, with the inventories in the given kind of sequence. -/
def Receipt.asdictWith (sequence : List (Value F) → Value F) (r : Receipt F) : Value F :=
  .dict (receiptKeys.zip [.str r.attemptId, .str r.bootId, sequence (r.files.map FileIdentity.asdict),
    sequence (r.resources.map ResourceIdentity.asdict), .int r.schemaVersion])

/-- `asdict(receipt)`: its inventories are tuples. -/
def Receipt.asdict (r : Receipt F) : Value F := r.asdictWith .tuple

/-! ## Checks -/

def require (condition : Bool) (text : String) : Except String Unit :=
  if condition then .ok () else .error text

/-- `[A-Za-z0-9_.-]` -/
def isSafe : CodePoint → Bool
  | .scalar c => ('A' ≤ c && c ≤ 'Z') || ('a' ≤ c && c ≤ 'z') || ('0' ≤ c && c ≤ '9') || c = '_' ||
      c = '.' || c = '-'
  | .surrogate _ => false

def safeText (limit : Nat) (s : Str) : Bool := 1 ≤ s.length && s.length ≤ limit && s.all isSafe

/-- `_name`. -/
def checkName : Value F → Except String Str
  | .str s =>
    if safeText 128 s && s ≠ ofString "." && s ≠ ofString ".." then .ok s
    else .error "state file requires a single safe basename"
  | _ => .error "state file requires a single safe basename"

def isLowerHex : CodePoint → Bool
  | .scalar c => ('0' ≤ c && c ≤ '9') || ('a' ≤ c && c ≤ 'f')
  | .surrogate _ => false

/-- The text is that of a `uuid.UUID`: `8-4-4-4-12` lower-case digits. -/
def isUuid (s : Str) : Bool :=
  s.length = 36 && s.zipIdx.all fun (c, i) =>
    if i = 8 ∨ i = 13 ∨ i = 18 ∨ i = 23 then c = .scalar '-' else isLowerHex c

/-- `_uuid`: the text of a number that is not zero. -/
def uuid : Value F → Except String Str
  | .str s =>
    if isUuid s && s.any fun c => c ≠ .scalar '-' ∧ c ≠ .scalar '0' then .ok s
    else .error "receipt requires canonical nonzero UUID identities"
  | _ => .error "receipt requires canonical nonzero UUID identities"

/-- `key.lower().replace('_', '').replace('-', '')`, of a key that passed the pattern. -/
def plainKey (key : Str) : Str :=
  (key.filter fun c => c ≠ .scalar '_' ∧ c ≠ .scalar '-').map fun
    | .scalar c => .scalar c.toLower
    | c => c

def secretKeys : List Str := ["privatekey", "presharedkey", "profile", "profiletext"].map ofString

def nested (depth : Nat) (check : Except String Unit) : Except String Unit :=
  if 8 < depth then .error "resource identity is too deeply nested" else check

mutual

/-- `_json_identity`. -/
def jsonIdentity (depth : Nat) : Value F → Except String Unit
  | .null | .bool _ | .int _ => nested depth (.ok ())
  | .str s => nested depth (require (s.length ≤ 4096) "unsupported resource identity value")
  | .list items =>
    nested depth (require (items.length ≤ 1024) "unsupported resource identity value" >>= fun _ =>
      jsonItems (depth + 1) items)
  | .dict entries =>
    nested depth (require (entries.length ≤ 128) "unsupported resource identity value" >>= fun _ =>
      jsonEntries (depth + 1) entries)
  | .float _ | .tuple _ => nested depth (.error "unsupported resource identity value")

def jsonItems (depth : Nat) : List (Value F) → Except String Unit
  | [] => .ok ()
  | item :: items => jsonIdentity depth item >>= fun _ => jsonItems depth items

def jsonEntries (depth : Nat) : List (Str × Value F) → Except String Unit
  | [] => .ok ()
  | (key, value) :: entries =>
    if safeText 64 key ∧ plainKey key ∉ secretKeys then
      jsonIdentity depth value >>= fun _ => jsonEntries depth entries
    else .error "unsupported resource identity field"

end

/-- The values of a dictionary that has exactly these keys. -/
def fields (keys : List Str) : Value F → Option (List (Value F))
  | .dict entries => if entries.map Prod.fst = keys then some (entries.map Prod.snd) else none
  | _ => none

/-- `isinstance(value, (list, tuple))` with at most 4096 items. -/
def inventory : Value F → Option (List (Value F))
  | .list items | .tuple items => if items.length ≤ 4096 then some items else none
  | _ => none

/-- `type(value) is int`, and not negative. -/
def natural : Value F → Except String Int
  | .int n => if 0 ≤ n then .ok n else .error "invalid file ownership metadata"
  | _ => .error "invalid file ownership metadata"

def digest : Value F → Except String Str
  | .str s => if s.length = 64 ∧ s.all isLowerHex then .ok s else .error "invalid file ownership metadata"
  | _ => .error "invalid file ownership metadata"

def decodeFile (entry : Value F) : Except String FileIdentity :=
  match fields fileKeys entry with
  | some [ctimeNs, device, inode, mode, name, ownerUid, sha256, size] => do
    let name ← checkName name
    let device ← natural device
    let inode ← natural inode
    let ctimeNs ← natural ctimeNs
    let size ← natural size
    let ownerUid ← natural ownerUid
    let mode ← natural mode
    require (inode ≠ 0 && ctimeNs ≠ 0 && mode = 0o600) "invalid file ownership metadata"
    let sha256 ← digest sha256
    pure ⟨name, device, inode, ctimeNs, size, sha256, ownerUid, mode⟩
  | _ => .error "unsupported file ownership identity"

/-- `_RESOURCE_KINDS`. -/
def resourceKinds : List Str :=
  ["interface", "route", "rule", "nft_table", "conntrack_zone", "bpf_link", "bpf_map", "process", "sysctl",
    "private_file", "private_directory"].map ofString

def decodeResource (entry : Value F) : Except String (ResourceIdentity F) :=
  match fields resourceKeys entry with
  | some [.dict identity, .str kind, .str name] => do
    require (kind ∈ resourceKinds && 1 ≤ name.length && name.length ≤ 256 && name.all (32 ≤ ·.ord) &&
      !identity.isEmpty) "unsupported resource ownership identity"
    jsonIdentity 0 (.dict identity)
    pure ⟨kind, name, .dict identity⟩
  | _ => .error "unsupported resource ownership identity"

/-- What `_decode_receipt` does with a dictionary of the right keys and schema. -/
def decodeParts (attempt boot : Value F) (files resources : Option (List (Value F))) :
    Except String (Receipt F) := do
  let attempt ← uuid attempt
  let boot ← uuid boot
  match files, resources with
  | some files, some resources => do
    let files ← files.mapM decodeFile
    let resources ← resources.mapM decodeResource
    require ((files.map (·.name)).Nodup && (resources.map fun r => (r.kind, r.name)).Nodup)
      "receipt has duplicate resource identities"
    pure ⟨1, attempt, boot, files, resources⟩
  | _, _ => .error "unsupported receipt inventory"

/-- `_decode_receipt`. -/
def decodeReceipt (data : Value F) : Except String (Receipt F) :=
  match fields receiptKeys data with
  | some [attempt, boot, files, resources, .int 1] =>
    decodeParts attempt boot (inventory files) (inventory resources)
  | _ => .error "unsupported receipt schema"

/-- `validate_receipt`. -/
def validateReceipt (receipt : Receipt F) (bootId attemptId : Str) : Except String Unit := do
  let _ ← decodeReceipt receipt.asdict
  let boot ← uuid (F := F) (.str bootId)
  let attempt ← uuid (F := F) (.str attemptId)
  require (receipt.bootId = boot && receipt.attemptId = attempt)
    "receipt belongs to another boot or acquisition attempt"

variable (floats : Floats F)

/-- `verify_resource`. -/
def verifyResource (receipt : Receipt F) (kind name : Str) (live : Value F) (bootId attemptId : Str) :
    Except String Unit := do
  validateReceipt receipt bootId attemptId
  match live with
  | .dict (_ :: _) => do
    jsonIdentity 0 live
    require (receipt.resources.any fun r =>
        r.kind = kind && r.name = name && dumps floats r.identity = dumps floats live)
      "live resource does not match the recorded ownership identity"
  | _ => .error "unsupported live resource identity"

/-! ## The receipt file -/

/-- A published file; `linked` while its temporary name leads to it as well. -/
structure File where
  content : List Char
  linked : Bool
  deriving DecidableEq

/-- `_MAX_RECEIPT`. -/
def maxReceipt : Nat := 1024 * 1024

def content (receipt : Receipt F) : List Char := dumps floats receipt.asdict ++ ['\n']

/-- `read_receipt`, where its own file operations succeed. -/
def readReceipt (stored : Option File) : Except String (Receipt F) :=
  match stored with
  | none => .error "cannot read a valid owned receipt"
  | some file => do
    require (!file.linked) "state file is not a private singly linked owned regular file"
    require (file.content.length ≤ maxReceipt) "receipt is too large"
    match loads floats file.content with
    | none => .error "cannot read a valid owned receipt"
    | some data => decodeReceipt data

inductive Outcome
  | done
  | failed
  | died
  deriving DecidableEq

/-- How the file operations of a call end: those that check and read, those that prepare the temporary
file (`open`, `fchmod`, `write`, `fsync`), the publication, the removal of the temporary name, the
directory's `fsync`, and `_unlink_if_same`. -/
structure Faults where
  checking : Outcome
  preparing : Outcome
  publishing : Outcome
  unlinking : Outcome
  syncing : Outcome
  cleaning : Outcome
  deriving DecidableEq

inductive Result
  | returned
  | raised
  | died
  deriving DecidableEq

def Outcome.result : Outcome → Result
  | .done => .returned
  | .failed => .raised
  | .died => .died

def Outcome.then (first second : Outcome) : Outcome :=
  match first with
  | .done => second
  | _ => first

/-- What `write_receipt` checks before it writes; the text to write. -/
def checkWrite (stored : Option File) (receipt : Receipt F) (expected : Option (Receipt F)) :
    Except String (List Char) := do
  let _ ← decodeReceipt receipt.asdict
  require ((content floats receipt).length ≤ maxReceipt) "receipt is too large"
  match expected with
  | none => pure (content floats receipt)
  | some expected => do
    let _ ← decodeReceipt expected.asdict
    validateReceipt receipt expected.bootId expected.attemptId
    let current ← readReceipt floats stored
    require (dumps floats current.asdict = dumps floats expected.asdict)
      "receipt changed or belongs to another attempt"
    pure (content floats receipt)

/-- The temporary file is complete: a link that replaces nothing, or a rename over the receipt. -/
def publish (stored : Option File) (text : List Char) (birth : Bool) (f : Faults) : Option File × Result :=
  match f.publishing with
  | .failed => (stored, .raised)
  | .died => (stored, .died)
  | .done =>
    if birth then
      match stored with
      | some _ => (stored, .raised)
      | none =>
        match f.unlinking with
        | .done => (some ⟨text, false⟩, (f.syncing.then f.cleaning).result)
        | .failed => (some ⟨text, f.cleaning ≠ .done⟩, if f.cleaning = .died then .died else .raised)
        | .died => (some ⟨text, true⟩, .died)
    else (some ⟨text, false⟩, (f.syncing.then f.cleaning).result)

/-- A call of `write_receipt`, with strings that print faithfully. -/
structure Call (F : Type) where
  receipt : Receipt F
  expected : Option (Receipt F)
  faults : Faults

/-- `write_receipt`. -/
def writeReceipt (stored : Option File) (call : Call F) : Option File × Result :=
  match call.faults.checking, checkWrite floats stored call.receipt call.expected with
  | .died, _ => (stored, .died)
  | .failed, _ | .done, .error _ => (stored, .raised)
  | .done, .ok text =>
    match call.faults.preparing with
    | .failed => (stored, .raised)
    | .died => (stored, .died)
    | .done => publish stored text call.expected.isNone call.faults

def next (stored : Option File) (call : Call F) : Option File := (writeReceipt floats stored call).1

/-! ## The check returns what it is given -/

theorem ok_bind_iff {A B : Type} {m : Except String A} {f : A → Except String B} {b : B} :
    (m >>= f) = .ok b ↔ ∃ a, m = .ok a ∧ f a = .ok b := by
  cases m with
  | error e => exact ⟨fun is => (nomatch is), fun ⟨_, is, _⟩ => (nomatch is)⟩
  | ok a => exact ⟨fun is => ⟨a, rfl, is⟩, fun ⟨_, is, rest⟩ => by cases is; exact rest⟩

theorem require_ok_iff {condition : Bool} {text : String} {u : Unit} :
    require condition text = .ok u ↔ condition = true := by
  cases condition <;> simp [require]

theorem fields_zip {keys : List Str} {values : List (Value F)} (lengths : keys.length = values.length) :
    fields keys (.dict (keys.zip values)) = some values := by
  rw [fields, if_pos (List.map_fst_zip lengths.le), List.map_snd_zip lengths.ge]

theorem mapM_asdict {A : Type} {asdict : A → Value F} {decode : Value F → Except String A}
    (same : ∀ a b, decode (asdict a) = .ok b → b = a) {items decoded : List A}
    (is : (items.map asdict).mapM decode = .ok decoded) :
    decoded = items ∧ ∀ a ∈ items, decode (asdict a) = .ok a := by
  induction items generalizing decoded with
  | nil =>
    cases is
    exact ⟨rfl, nofun⟩
  | cons a items ih =>
    simp only [List.map_cons, List.mapM_cons, ok_bind_iff] at is
    obtain ⟨b, first, others, rest, is⟩ := is
    cases is
    obtain ⟨rfl, each⟩ := ih rest
    obtain rfl := same a b first
    exact ⟨rfl, List.forall_mem_cons.mpr ⟨first, each⟩⟩

theorem eq_of_ite_ok {A : Type} {condition : Prop} [Decidable condition] {a b : A} {text : String}
    (is : (if condition then .ok a else .error text : Except String A) = .ok b) : b = a := by
  split_ifs at is
  exact (Except.ok.inj is).symm

theorem inventory_ok {items decoded : List (Value F)} (is : inventory (.tuple items) = some decoded) :
    decoded = items := by
  simp only [inventory] at is
  split_ifs at is
  exact (Option.some.inj is).symm

theorem decodeFile_asdict (f g : FileIdentity) (is : decodeFile (F := F) f.asdict = .ok g) : g = f := by
  unfold decodeFile FileIdentity.asdict at is
  rw [fields_zip rfl] at is
  simp only [ok_bind_iff] at is
  obtain ⟨name, named, device, isDevice, inode, isInode, ctime, isCtime, size, isSize, owner,
    isOwner, mode, isMode, -, -, sha, isSha, is⟩ := is
  cases is
  rw [eq_of_ite_ok named, eq_of_ite_ok isDevice, eq_of_ite_ok isInode, eq_of_ite_ok isCtime,
    eq_of_ite_ok isSize, eq_of_ite_ok isOwner, eq_of_ite_ok isMode, eq_of_ite_ok isSha]

theorem decodeResource_asdict (r q : ResourceIdentity F) (is : decodeResource r.asdict = .ok q) : q = r := by
  obtain ⟨kind, name, identity⟩ := r
  unfold decodeResource ResourceIdentity.asdict at is
  rw [fields_zip rfl] at is
  cases identity with
  | dict entries =>
    simp only [ok_bind_iff] at is
    obtain ⟨-, -, -, -, is⟩ := is
    cases is
    rfl
  | _ => cases is

theorem decodeReceipt_asdictWith (sequence : List (Value F) → Value F) (r : Receipt F) :
    decodeReceipt (r.asdictWith sequence) =
      if r.schemaVersion = 1 then
        decodeParts (.str r.attemptId) (.str r.bootId)
          (inventory (sequence (r.files.map FileIdentity.asdict)))
          (inventory (sequence (r.resources.map ResourceIdentity.asdict)))
      else .error "unsupported receipt schema" := by
  unfold decodeReceipt Receipt.asdictWith
  rw [fields_zip rfl]
  split
  · rename_i values
    simp only [Option.some.injEq, List.cons.injEq, Document.int.injEq, and_true] at values
    obtain ⟨rfl, rfl, rfl, rfl, one⟩ := values
    rw [if_pos one]
  · rename_i other
    rw [if_neg fun one => other _ _ _ _ (by rw [one])]

/-- Whatever the inventories are kept in, the check returns the receipt. -/
theorem decodeReceipt_asdict {r q : Receipt F} (is : decodeReceipt r.asdict = .ok q) :
    q = r ∧ decodeReceipt (r.asdictWith .list) = .ok r ∧
    ∀ res ∈ r.resources, decodeResource res.asdict = .ok res := by
  have same : decodeReceipt (r.asdictWith .list) = decodeReceipt r.asdict := by
    rw [Receipt.asdict, decodeReceipt_asdictWith, decodeReceipt_asdictWith]
    rfl
  rw [same]
  suffices q = r ∧ ∀ res ∈ r.resources, decodeResource res.asdict = .ok res from ⟨this.1, this.1 ▸ is, this.2⟩
  obtain ⟨schema, attempt, boot, files, resources⟩ := r
  rw [Receipt.asdict, decodeReceipt_asdictWith] at is
  split_ifs at is with one
  simp only [decodeParts, ok_bind_iff] at is
  obtain ⟨attempt', isAttempt, boot', isBoot, is⟩ := is
  split at is
  · rename_i items items' isItems isItems'
    simp only [ok_bind_iff] at is
    obtain ⟨files', isFiles, resources', isResources, -, -, is⟩ := is
    cases is
    rw [inventory_ok isItems] at isFiles
    rw [inventory_ok isItems'] at isResources
    obtain ⟨rfl, -⟩ := mapM_asdict decodeFile_asdict isFiles
    obtain ⟨rfl, each⟩ := mapM_asdict decodeResource_asdict isResources
    rw [eq_of_ite_ok isAttempt, eq_of_ite_ok isBoot, show schema = 1 from one]
    exact ⟨rfl, each⟩
  · cases is

/-! ## Printed receipts -/

def FileIdentity.Plain (f : FileIdentity) : Prop := Single f.name ∧ Single f.sha256

def ResourceIdentity.Plain (r : ResourceIdentity F) : Prop :=
  Single r.kind ∧ Single r.name ∧ Json.Plain r.identity

/-- No string of the receipt holds a high surrogate, and its dictionaries are in order. -/
structure Receipt.Plain (r : Receipt F) : Prop where
  attemptId : Single r.attemptId
  bootId : Single r.bootId
  files : ∀ f ∈ r.files, f.Plain
  resources : ∀ q ∈ r.resources, q.Plain

theorem plainItems_of {items : List (Value F)} (all : ∀ item ∈ items, Json.Plain item) :
    PlainItems items := by
  induction items with
  | nil => trivial
  | cons item items ih =>
    exact ⟨all item List.mem_cons_self, ih fun other mem => all other (List.mem_cons_of_mem _ mem)⟩

theorem plainEntries_zip {keys : List Str} {values : List (Value F)} (single : ∀ key ∈ keys, Single key)
    (plain : ∀ value ∈ values, Json.Plain value) : PlainEntries (keys.zip values) := by
  induction keys generalizing values with
  | nil => trivial
  | cons key keys ih =>
    cases values with
    | nil => trivial
    | cons value values =>
      refine ⟨single key List.mem_cons_self, plain value List.mem_cons_self, ih ?_ ?_⟩
      · exact fun other mem => single other (List.mem_cons_of_mem _ mem)
      · exact fun other mem => plain other (List.mem_cons_of_mem _ mem)

/-- A dictionary with the keys of a class of the source. -/
theorem plain_dict {keys : List Str} {values : List (Value F)} (lengths : keys.length = values.length)
    (single : ∀ key ∈ keys, ∀ c ∈ key, isHigh c = false) (ascending : keys.Pairwise keyLT)
    (plain : ∀ value ∈ values, Json.Plain value) : Json.Plain (.dict (keys.zip values)) :=
  ⟨plainEntries_zip single plain, by rwa [List.map_fst_zip lengths.le]⟩

theorem FileIdentity.Plain.asdict {f : FileIdentity} (plain : f.Plain) : Json.Plain (F := F) f.asdict := by
  refine plain_dict rfl (by decide) (by decide) ?_
  simp only [List.forall_mem_cons]
  exact ⟨trivial, trivial, trivial, trivial, plain.1, trivial, plain.2, trivial, nofun⟩

theorem ResourceIdentity.Plain.asdict {r : ResourceIdentity F} (plain : r.Plain) : Json.Plain r.asdict := by
  refine plain_dict rfl (by decide) (by decide) ?_
  simp only [List.forall_mem_cons]
  exact ⟨plain.2.2, plain.1, plain.2.1, nofun⟩

theorem Receipt.Plain.listed {r : Receipt F} (plain : r.Plain) : Json.Plain (r.asdictWith .list) := by
  refine plain_dict rfl (by decide) (by decide) ?_
  simp only [List.forall_mem_cons]
  refine ⟨plain.attemptId, plain.bootId, plainItems_of ?_, plainItems_of ?_, trivial, nofun⟩
  · rintro _ mem
    obtain ⟨f, isFile, rfl⟩ := List.mem_map.mp mem
    exact (plain.files f isFile).asdict
  · rintro _ mem
    obtain ⟨q, isResource, rfl⟩ := List.mem_map.mp mem
    exact (plain.resources q isResource).asdict

/-- A tuple is printed as a list. -/
theorem dumps_asdict (r : Receipt F) : dumps floats r.asdict = dumps floats (r.asdictWith .list) := by
  have same (items : List (Value F)) : dumps floats (.tuple items) = dumps floats (.list items) := by
    cases items <;> simp only [dumps]
  simp only [Receipt.asdict, Receipt.asdictWith, receiptKeys, List.map_cons, List.map_nil, List.zip_cons_cons,
    List.zip_nil_right, dumps, dumpsEntries, same]

/-- The receipt passes the check, and its text the limit. -/
def Accepted (r : Receipt F) : Prop :=
  decodeReceipt r.asdict = .ok r ∧ (content floats r).length ≤ maxReceipt

theorem readReceipt_content {r : Receipt F} (plain : r.Plain) (accepted : Accepted floats r) :
    readReceipt floats (some ⟨content floats r, false⟩) = .ok r := by
  have stops : Stops ['\n'] := by
    rintro _ ⟨⟩
    decide
  have parsed : loads floats (content floats r) = some (r.asdictWith .list) := by
    rw [content, dumps_asdict]
    exact loads_dumps floats plain.listed stops rfl
  simp only [readReceipt, ok_bind_iff, require_ok_iff, parsed]
  exact ⟨(), rfl, (), decide_eq_true accepted.2, (decodeReceipt_asdict accepted.1).2.1⟩

/-- Receipts that print alike are the same. -/
theorem eq_of_text {r q : Receipt F} (plain : r.Plain) (plain' : q.Plain)
    (accepted : decodeReceipt r.asdict = .ok r)
    (accepted' : decodeReceipt q.asdict = .ok q)
    (same : dumps floats r.asdict = dumps floats q.asdict) : r = q := by
  rw [dumps_asdict, dumps_asdict floats q] at same
  have listed := dumps_inj floats plain.listed plain'.listed same
  have decoded := (decodeReceipt_asdict accepted).2.1
  rw [listed, (decodeReceipt_asdict accepted').2.1] at decoded
  exact (Except.ok.inj decoded).symm

/-! ## The cell -/

theorem checkWrite_ok {stored : Option File} {r : Receipt F} {expected : Option (Receipt F)}
    {text : List Char} (is : checkWrite floats stored r expected = .ok text) :
    text = content floats r ∧ Accepted floats r ∧ ∀ e, expected = some e →
      decodeReceipt e.asdict = .ok e ∧ r.bootId = e.bootId ∧ r.attemptId = e.attemptId ∧
        ∃ current, readReceipt floats stored = .ok current ∧
        dumps floats current.asdict = dumps floats e.asdict := by
  simp only [checkWrite, ok_bind_iff, require_ok_iff, decide_eq_true_eq] at is
  obtain ⟨q, decoded, -, short, is⟩ := is
  have accepted : Accepted floats r := ⟨(decodeReceipt_asdict decoded).1 ▸ decoded, short⟩
  cases expected with
  | none => exact ⟨(Except.ok.inj is).symm, accepted, nofun⟩
  | some e =>
    simp only [ok_bind_iff, require_ok_iff, decide_eq_true_eq] at is
    obtain ⟨e', decoded', ⟨⟩, valid, current, read, -, same, is⟩ := is
    simp only [validateReceipt, ok_bind_iff, require_ok_iff, Bool.and_eq_true, decide_eq_true_eq] at valid
    obtain ⟨-, -, boot, isBoot, attempt, isAttempt, sameBoot, sameAttempt⟩ := valid
    refine ⟨(Except.ok.inj is).symm, accepted, ?_⟩
    rintro _ ⟨⟩
    rw [eq_of_ite_ok isBoot] at sameBoot
    rw [eq_of_ite_ok isAttempt] at sameAttempt
    exact ⟨(decodeReceipt_asdict decoded').1 ▸ decoded', sameBoot, sameAttempt, current, read, same⟩

/-- A publication leaves the receipt as it was, or puts the whole text in its place; a birth only where
there was none. -/
theorem publish_cases (stored : Option File) (text : List Char) (birth : Bool) (f : Faults) :
    ((publish stored text birth f).1 = stored ∧ (publish stored text birth f).2 ≠ .returned) ∨
      ((birth = true → stored = none) ∧ ∃ linked, (publish stored text birth f).1 = some ⟨text, linked⟩ ∧
        ((publish stored text birth f).2 = .returned → linked = false)) := by
  unfold publish
  cases f.publishing with
  | failed => exact .inl ⟨rfl, nofun⟩
  | died => exact .inl ⟨rfl, nofun⟩
  | done =>
    cases birth with
    | false => exact .inr ⟨nofun, false, rfl, fun _ => rfl⟩
    | true =>
      cases stored with
      | some file => exact .inl ⟨rfl, nofun⟩
      | none =>
        refine .inr ⟨fun _ => rfl, ?_⟩
        cases f.unlinking with
        | done => exact ⟨false, rfl, fun _ => rfl⟩
        | failed =>
          refine ⟨_, rfl, ?_⟩
          cases f.cleaning <;> exact nofun
        | died => exact ⟨true, rfl, nofun⟩

/-- What a call leaves: the receipt as it was, or, once its checks have passed, its own. -/
theorem writeReceipt_cases (stored : Option File) (call : Call F) :
    (next floats stored call = stored ∧ (writeReceipt floats stored call).2 ≠ .returned) ∨
      (checkWrite floats stored call.receipt call.expected = .ok (content floats call.receipt) ∧
        (call.expected = none → stored = none) ∧
        ∃ linked, next floats stored call = some ⟨content floats call.receipt, linked⟩ ∧
          ((writeReceipt floats stored call).2 = .returned → linked = false)) := by
  unfold next writeReceipt
  split
  · exact .inl ⟨rfl, nofun⟩
  · exact .inl ⟨rfl, nofun⟩
  · exact .inl ⟨rfl, nofun⟩
  · rename_i text _ checked
    obtain rfl := (checkWrite_ok floats checked).1
    cases call.faults.preparing with
    | failed => exact .inl ⟨rfl, nofun⟩
    | died => exact .inl ⟨rfl, nofun⟩
    | done =>
      rcases publish_cases stored (content floats call.receipt) call.expected.isNone
        call.faults with same | ⟨birth, own⟩
      · exact .inl same
      · exact .inr ⟨checked, fun none => birth (by rw [none]; rfl), own⟩

/-- The strings of a call print faithfully. -/
def Call.Plain (call : Call F) : Prop := call.receipt.Plain ∧ ∀ e, call.expected = some e → e.Plain

/-- One call on the cell. -/
structure Exact (stored : Option File) (call : Call F) : Prop where
  /-- what it accepted is read back -/
  readBack : (writeReceipt floats stored call).2 = .returned →
    readReceipt floats (next floats stored call) = .ok call.receipt
  /-- what it replaces was expected, and of the same boot and attempt -/
  replaces : next floats stored call ≠ stored →
    (next floats stored call).map (·.content) = some (content floats call.receipt) ∧
      match call.expected with
      | none => stored = none
      | some e => readReceipt floats stored = .ok e ∧ call.receipt.bootId = e.bootId ∧
          call.receipt.attemptId = e.attemptId

/-- The stored text is that of an accepted receipt. -/
def Whole (stored : Option File) : Prop :=
  ∀ file, stored = some file → ∃ r : Receipt F, r.Plain ∧ Accepted floats r ∧ file.content = content floats r

theorem next_whole {stored : Option File} {call : Call F} (whole : Whole floats stored) (plain : call.Plain) :
    Whole floats (next floats stored call) := by
  rcases writeReceipt_cases floats stored call with ⟨same, -⟩ | ⟨checked, -, linked, own, -⟩
  · rwa [same]
  · rw [own]
    rintro _ ⟨⟩
    exact ⟨call.receipt, plain.1, (checkWrite_ok floats checked).2.1, rfl⟩

/-- The receipt that is stored is the one that is read. -/
theorem Whole.read {stored : Option File} (whole : Whole floats stored) {current : Receipt F}
    (read : readReceipt floats stored = .ok current) :
    current.Plain ∧ decodeReceipt current.asdict = .ok current := by
  cases stored with
  | none => cases read
  | some file =>
    obtain ⟨text, linked⟩ := file
    obtain ⟨r, plain, accepted, rfl⟩ := whole _ rfl
    cases linked with
    | true => cases read
    | false =>
      rw [readReceipt_content floats plain accepted] at read
      cases read
      exact ⟨plain, accepted.1⟩

theorem exact_of_whole {stored : Option File} {call : Call F} (whole : Whole floats stored)
    (plain : call.Plain) :
    Exact floats stored call := by
  rcases writeReceipt_cases floats stored call with ⟨same, raised⟩ | ⟨checked, birth, linked, own, single⟩
  · exact ⟨fun returned => absurd returned raised, fun other => absurd same other⟩
  · obtain ⟨-, accepted, swap⟩ := checkWrite_ok floats checked
    constructor
    · intro returned
      rw [own, single returned]
      exact readReceipt_content floats plain.1 accepted
    · intro _
      refine ⟨by rw [own]; rfl, ?_⟩
      split
      · rename_i none
        exact birth none
      · rename_i e isExpected
        obtain ⟨known, boot, attempt, current, read, same⟩ := swap e isExpected
        obtain ⟨plain', known'⟩ := whole.read floats read
        obtain rfl := eq_of_text floats plain' (plain.2 e isExpected) known' known same
        exact ⟨read, boot, attempt⟩

/-- The text that is stored is the whole text of some call's receipt. -/
theorem stored_of_calls (calls : List (Call F)) (stored : Option File) :
    calls.foldl (next floats) stored = stored ∨
      ∃ call ∈ calls, (calls.foldl (next floats) stored).map (·.content) =
        some (content floats call.receipt) := by
  induction calls generalizing stored with
  | nil => exact .inl rfl
  | cons call calls ih =>
    rw [List.foldl_cons]
    rcases ih (next floats stored call) with same | ⟨later, mem, is⟩
    · rw [same]
      rcases writeReceipt_cases floats stored call with ⟨kept, -⟩ | ⟨-, -, linked, own, -⟩
      · exact .inl kept
      · exact .inr ⟨call, List.mem_cons_self, by rw [own]; rfl⟩
    · exact .inr ⟨later, List.mem_cons_of_mem _ mem, is⟩

/-! ## Live resources -/

/-- What is recorded is a dictionary that passes the check of live ones. -/
theorem decodeResource_identity {r : ResourceIdentity F} (is : decodeResource r.asdict = .ok r) :
    ∃ entry entries, r.identity = .dict (entry :: entries) ∧ jsonIdentity 0 r.identity = .ok () := by
  obtain ⟨kind, name, identity⟩ := r
  unfold decodeResource ResourceIdentity.asdict at is
  rw [fields_zip rfl] at is
  cases identity with
  | dict entries =>
    simp only [ok_bind_iff, require_ok_iff, Bool.and_eq_true] at is
    obtain ⟨-, ⟨-, nonempty⟩, ⟨⟩, checked, -⟩ := is
    cases entries with
    | nil => cases nonempty
    | cons entry entries => exact ⟨entry, entries, rfl, checked⟩
  | _ => cases is

/-- A live identity is accepted exactly if it is the recorded one. -/
theorem verifyResource_iff {receipt : Receipt F} {kind name bootId attemptId : Str} {live : Value F}
    (plain : receipt.Plain) (plainLive : Json.Plain live)
    (valid : validateReceipt receipt bootId attemptId = .ok ()) :
    verifyResource floats receipt kind name live bootId attemptId = .ok () ↔
      ∃ r ∈ receipt.resources, r.kind = kind ∧ r.name = name ∧ r.identity = live := by
  have found : (receipt.resources.any fun r =>
      r.kind = kind && r.name = name && dumps floats r.identity = dumps floats live) = true ↔
        ∃ r ∈ receipt.resources, r.kind = kind ∧ r.name = name ∧ r.identity = live := by
    simp only [List.any_eq_true, Bool.and_eq_true, decide_eq_true_eq]
    constructor
    · rintro ⟨r, mem, ⟨isKind, isName⟩, same⟩
      exact ⟨r, mem, isKind, isName, dumps_inj floats (plain.resources r mem).2.2 plainLive same⟩
    · rintro ⟨r, mem, isKind, isName, same⟩
      exact ⟨r, mem, ⟨isKind, isName⟩, by rw [same]⟩
  rw [← found]
  simp only [verifyResource, valid, ok_bind_iff]
  constructor
  · rintro ⟨-, -, is⟩
    split at is
    · simp only [ok_bind_iff, require_ok_iff] at is
      obtain ⟨-, -, any⟩ := is
      exact any
    · cases is
  · intro any
    obtain ⟨r, mem, -, -, rfl⟩ := found.mp any
    simp only [validateReceipt, ok_bind_iff] at valid
    obtain ⟨q, decoded, -⟩ := valid
    obtain ⟨entry, entries, is, checked⟩ := decodeResource_identity ((decodeReceipt_asdict decoded).2.2 r mem)
    refine ⟨(), trivial, ?_⟩
    rw [is] at checked any ⊢
    simp only [ok_bind_iff, require_ok_iff]
    exact ⟨(), checked, any⟩

/-- **Receipts are a compare-and-swap cell.** For every sequence of calls that begins without a receipt
and may fail or die in any file operation: what is stored is the whole text of some call's receipt, each
call is `Exact` in the state it meets, and a live identity is verified exactly if it is recorded. -/
theorem receipts_exact :
    (∀ calls : List (Call F), (∀ call ∈ calls, call.Plain) →
      (calls.foldl (next floats) none = none ∨
        ∃ call ∈ calls, (calls.foldl (next floats) none).map (·.content) =
          some (content floats call.receipt)) ∧
      Each (next floats) (Exact floats) none calls) ∧
    ∀ (receipt : Receipt F) (kind name bootId attemptId : Str) (live : Value F), receipt.Plain →
    Json.Plain live →
      validateReceipt receipt bootId attemptId = .ok () →
      (verifyResource floats receipt kind name live bootId attemptId = .ok () ↔
        ∃ r ∈ receipt.resources, r.kind = kind ∧ r.name = name ∧ r.identity = live) := by
  refine ⟨fun calls plain => ⟨stored_of_calls floats calls none, ?_⟩, ?_⟩
  · refine each_imp (Whole floats) (fun _ _ => next_whole floats) (fun _ _ => exact_of_whole floats) calls ?_
      (each_of_forall plain none)
    exact nofun
  · exact fun _ _ _ _ _ _ plain plainLive valid => verifyResource_iff floats plain plainLive valid

end Model

/-! ## Poles -/

def boot : Str := ofString "11111111-2222-3333-4444-555555555555"

/-- A receipt of interfaces that are up. -/
def interfaces (names : List String) : Receipt Unit where
  schemaVersion := 1
  attemptId := boot
  bootId := boot
  files := []
  resources := names.map fun name => ⟨ofString "interface", ofString name,
    .dict [(ofString "up", .bool true)]⟩

/-- A call that replaces what it expects and is cut off, or not, when it publishes. -/
def recording (names : List String) (expected : Option (List String)) (publishing : Outcome) : Call Unit :=
  ⟨interfaces names, expected.map interfaces, ⟨.done, .done, publishing, .done, .done, .done⟩⟩

/-- A first receipt, a larger one whose writer dies, the same once more, and one that expects the first. -/
def recordings : List (Call Unit) :=
  [recording ["wgps0"] none .done, recording ["wgps0", "wgps1"] (some ["wgps0"]) .died,
    recording ["wgps0", "wgps1"] (some ["wgps0"]) .done, recording ["wgps2"] (some ["wgps0"]) .done]

theorem texts_single : Single boot ∧
    ∀ text ∈ ["interface", "up", "wgps0", "wgps1", "wgps2"], Single (ofString text) := by
  unfold Single
  decide

theorem interfaces_plain {names : List String} (within : names ⊆ ["wgps0", "wgps1", "wgps2"]) :
    (interfaces names).Plain := by
  obtain ⟨boot, texts⟩ := texts_single
  refine ⟨boot, boot, nofun, fun r mem => ?_⟩
  obtain ⟨name, inNames, rfl⟩ := List.mem_map.mp mem
  have isText : name ∈ ["interface", "up", "wgps0", "wgps1", "wgps2"] :=
    List.mem_cons_of_mem _ (List.mem_cons_of_mem _ (within inNames))
  exact ⟨texts _ (by simp), texts name isText, ⟨texts _ (by simp), trivial, trivial⟩,
    List.pairwise_singleton _ _⟩

theorem recording_plain {names : List String} {expected : Option (List String)} {publishing : Outcome}
    (within : ∀ list ∈ names :: expected.toList, list ⊆ ["wgps0", "wgps1", "wgps2"]) :
    (recording names expected publishing).Plain := by
  refine ⟨interfaces_plain (within names List.mem_cons_self), fun e is => ?_⟩
  obtain ⟨others, isExpected, rfl⟩ := Option.map_eq_some_iff.mp is
  exact interfaces_plain (within others (by simp [isExpected]))

theorem recordings_plain : ∀ call ∈ recordings, call.Plain := by
  simp only [recordings, List.forall_mem_cons]
  refine ⟨?_, ?_, ?_, ?_, List.forall_mem_nil _⟩ <;> exact recording_plain (by decide)

/-- The third call's receipt is read back, and the last call, which expects another, leaves it. Of a
recorded identity `true` is verified, and `1` is not. -/
theorem receipts_exact_sample :
    readReceipt .alike ((recordings.take 3).foldl (next .alike) none) = .ok (interfaces ["wgps0", "wgps1"]) ∧
      recordings.foldl (next .alike) none = (recordings.take 3).foldl (next .alike) none ∧
      verifyResource .alike (interfaces ["wgps0"]) (ofString "interface") (ofString "wgps0")
        (.dict [(ofString "up", .bool true)]) boot boot = .ok () ∧
      verifyResource .alike (interfaces ["wgps0"]) (ofString "interface") (ofString "wgps0")
        (.dict [(ofString "up", .int 1)]) boot boot ≠ .ok () := by
  obtain ⟨cell, verified⟩ := receipts_exact .alike
  obtain ⟨-, -, -, third, last, -⟩ := cell recordings recordings_plain
  have read := third.readBack (by decide +kernel)
  have valid : validateReceipt (interfaces ["wgps0"]) boot boot = .ok () := by decide +kernel
  have plain (v : Value Unit) (scalar : Json.Plain v) : Json.Plain (.dict [(ofString "up", v)]) :=
    ⟨⟨texts_single.2 _ (by simp), scalar, trivial⟩, List.pairwise_singleton _ _⟩
  have verified := fun v scalar => verified (interfaces ["wgps0"]) (ofString "interface")
    (ofString "wgps0") boot boot
    _ (interfaces_plain (by decide)) (plain v scalar) valid
  simp only [recordings, List.take, List.foldl_cons, List.foldl_nil]
  refine ⟨read, ?_, (verified (.bool true) trivial).mpr ⟨_, List.mem_cons_self, rfl, rfl, rfl⟩,
    fun accepted => ?_⟩
  · by_contra replaced
    have others := congrArg (fun r => r.toOption.map (·.resources.length))
      (read.symm.trans (last.replaces replaced).2.1)
    cases others
  · obtain ⟨r, mem, -, -, is⟩ := (verified (.int 1) trivial).mp accepted
    rw [List.mem_singleton.mp mem] at is
    cases is

end ProgramSplit.Linux.Receipts
