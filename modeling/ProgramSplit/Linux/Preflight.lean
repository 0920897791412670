/-
# Linux.Preflight — the inventory, the allocation and the later conflict check

`inspect` of `network.py` reads every listing before anything is acquired and adds up the
mark bits, tables, priorities and zones in use; `allocate` takes free ones; and
`_allocation_conflict` later walks the same listings again, with the owned objects left
out, and says whether a foreign object has come to use what was allocated.

* `allocate_error_iff` — `allocate` refuses exactly if something has run out: two bits, a
  priority below every foreign one, a table, a zone;
* `allocate_spec` — what it returns is a valid allocation of unused resources;
* `allocationConflict_acquired` — over the inspected listings with the owned objects
  added, the second walk accepts all it reads and finds no conflict.
-/
import ProgramSplit.Linux.FreeMarks
import ProgramSplit.Linux.IptablesText

namespace ProgramSplit.Linux

open Lib

set_option autoImplicit false

/-! ## Adding up what is in use -/

/-- Nothing in use. -/
def Inventory.empty : Inventory := ⟨0, [], [], []⟩

def Inventory.join (c d : Inventory) : Inventory :=
  ⟨c.usedMask ||| d.usedMask, c.tables ++ d.tables, c.priorities ++ d.priorities, c.zones ++ d.zones⟩

/-- What the first uses the second uses too. -/
@[mk_iff] structure Inventory.Within (c d : Inventory) : Prop where
  usedMask : Lib.Within c.usedMask d.usedMask
  tables : c.tables ⊆ d.tables
  priorities : c.priorities ⊆ d.priorities
  zones : c.zones ⊆ d.zones

theorem Inventory.Within.refl (c : Inventory) : c.Within c :=
  ⟨.refl _, List.Subset.refl _, List.Subset.refl _, List.Subset.refl _⟩

theorem Inventory.Within.trans {c d e : Inventory} (first : c.Within d) (second : d.Within e) :
    c.Within e :=
  ⟨first.usedMask.trans second.usedMask, List.Subset.trans first.tables second.tables,
    List.Subset.trans first.priorities second.priorities, List.Subset.trans first.zones second.zones⟩

theorem Inventory.empty_within (c : Inventory) : Inventory.empty.Within c :=
  ⟨fun _ h => by simp [Inventory.empty] at h, by simp [Inventory.empty], by simp [Inventory.empty],
    by simp [Inventory.empty]⟩

theorem Inventory.join_within {c d e : Inventory} : (c.join d).Within e ↔ c.Within e ∧ d.Within e := by
  simp only [Inventory.within_iff, Inventory.join, or_within, List.append_subset]
  tauto

theorem bind_eq_ok {α β : Type} {x : Except Failure α} {f : α → Except Failure β} {b : β} :
    (x >>= f) = .ok b ↔ ∃ a, x = .ok a ∧ f a = .ok b := by
  cases x with
  | error e => simp [bind, Except.bind]
  | ok a => simp [bind, Except.bind]

/-- The loops `used |= …` and `zones |= …` over a listing. -/
def gather {α : Type} (uses : α → Except Failure Inventory) : List α → Except Failure Inventory
  | [] => .ok .empty
  | item :: rest => do
      let here ← uses item
      let others ← gather uses rest
      .ok (here.join others)

/-- Every item was read, and its uses are counted. -/
theorem gather_mem {α : Type} {uses : α → Except Failure Inventory} : ∀ {items : List α} {c : Inventory},
    gather uses items = .ok c → ∀ item ∈ items, ∃ d, uses item = .ok d ∧ d.Within c
  | [], _, _, _, mem => by cases mem
  | head :: rest, c, done, item, mem => by
    obtain ⟨here, first, done⟩ := bind_eq_ok.mp done
    obtain ⟨others, more, done⟩ := bind_eq_ok.mp done
    cases done
    obtain ⟨left, right⟩ := Inventory.join_within.mp (.refl (here.join others))
    obtain rfl | mem := List.mem_cons.mp mem
    · exact ⟨here, first, left⟩
    · obtain ⟨d, read, within⟩ := gather_mem more item mem
      exact ⟨d, read, within.trans right⟩

/-- A listing of which every item is read, within bounds, is read within them. -/
theorem gather_within {α : Type} {uses : α → Except Failure Inventory} {c : Inventory} :
    ∀ {items : List α}, (∀ item ∈ items, ∃ d, uses item = .ok d ∧ d.Within c) →
      ∃ d, gather uses items = .ok d ∧ d.Within c
  | [], _ => ⟨.empty, rfl, Inventory.empty_within c⟩
  | head :: rest, each => by
    obtain ⟨here, first, fits⟩ := each head (by simp)
    obtain ⟨others, more, fit⟩ := gather_within fun item mem => each item (List.mem_cons_of_mem _ mem)
    refine ⟨here.join others, ?_, Inventory.join_within.mpr ⟨fits, fit⟩⟩
    simp only [gather, first, more]
    rfl

/-! ## The parts of the listings -/

/-- `value.get(key, default)`. -/
def Json.getD (value : Json) (key : String) (default : Json) : Except Failure Json := do
  .ok ((← value.get key).getD default)

/-- `value[key]`. -/
def Json.item (key : String) : Json → Except Failure Json
  | .dict fields =>
    match Fields.get fields key with
    | some value => .ok value
    | none => .error (.python "KeyError")
  | _ => .error (.python "TypeError")

/-- `key in value`: a key of a dictionary, a member of a list, a part of a text. -/
def Json.contains (key : String) : Json → Except Failure Bool
  | .dict fields => .ok (Fields.get fields key).isSome
  | .list items => .ok (items.any fun | .str s => s == key | _ => false)
  | .str s => .ok (s.toList.tails.any key.toList.isPrefixOf)
  | _ => .error (.python "TypeError")

/-- `value.get(key) == text`. -/
def isText (text : String) : Option Json → Bool
  | some (.str s) => s == text
  | _ => false

/-- `rule.get('priority') == 0`; `False` equals 0 too. -/
def isZero : Option Json → Bool
  | some (.int n) => n == 0
  | some (.bool b) => !b
  | _ => false

/-- `None`, numbers and texts can be members of a set. -/
def hashable : Option Json → Except Failure Unit
  | some (.list _) | some (.dict _) => .error (.python "TypeError")
  | _ => .ok ()

/-- Equality of set members; `True` equals 1 and `False` equals 0. -/
def sameName (a b : Option Json) : Bool :=
  match a.getD .null, b.getD .null with
  | .null, .null => true
  | .str s, .str t => s == t
  | .int n, .int m => n == m
  | .bool b, .bool c => b == c
  | .int n, .bool b | .bool b, .int n => n == b.toNat
  | _, _ => false

/-- Raise if the test holds. -/
def refuse (bad : Bool) (text : String) : Except Failure Unit :=
  if bad then .error (.network text) else .ok ()

theorem refuse_ok {bad : Bool} {text : String} {u : Unit} : refuse bad text = .ok u ↔ bad = false := by
  cases bad <;> simp [refuse]

def interface : String := "wgps0"
def nftTable : String := "wg_program_split"

def isHexDigit (c : Char) : Bool := c.isDigit || ('a' ≤ c && c ≤ 'f') || ('A' ≤ c && c ≤ 'F')

/-- `0x[0-9a-fA-F]{1,8}|[0-9]{1,10}`. -/
def isNumeral (text : String) : Bool :=
  match text.toList with
  | '0' :: 'x' :: digits => digits.all isHexDigit && 1 ≤ digits.length && digits.length ≤ 8
  | digits => digits.all Char.isDigit && 1 ≤ digits.length && digits.length ≤ 10

def builtinTables : List (String × Nat) := [("local", 255), ("main", 254), ("default", 253), ("unspec", 0)]

section Walks

-- Python's int(value, 0) and int(value, 10), the administrator's named routing tables
variable (int0 int10 : String → Option Int) (named : String → Option Nat)

/-- `TableNames`. -/
def tableNumber (value : Json) : Except Failure Nat :=
  let number := (u32 int0 value).map BitVec.toNat
  match value with
  | .str name =>
    match builtinTables.lookup name with
    | some n => .ok n
    | none =>
      if isNumeral name then number
      else
        match named name with
        | some n => .ok n
        | none => .error (.network "unknown named routing table")
  | _ => number

/-- `rule.get('priority') == 0 and table(rule.get('table', 0)) == 255`. -/
def isLocal (rule : Json) : Except Failure Bool := do
  if isZero (← rule.get "priority") then
    let table ← tableNumber int0 named (← rule.getD "table" (.int 0))
    .ok (table == 255)
  else .ok false

/-- `any(…)`, which stops at the first hit. -/
def anyOf {α : Type} (test : α → Except Failure Bool) : List α → Except Failure Bool
  | [] => .ok false
  | item :: rest => do
      if ← test item then .ok true else anyOf test rest

/-- `sum(…)` of a test. -/
def countOf {α : Type} (test : α → Except Failure Bool) : List α → Except Failure Nat
  | [] => .ok 0
  | item :: rest => do
      let here ← test item
      let others ← countOf test rest
      .ok (here.toNat + others)

/-- `_u32(rule.get('fwmask', 0xffffffff))` of a rule with a mark. -/
def ruleMask (rule : Json) : Except Failure Inventory := do
  if ← rule.contains "fwmark" then
    .ok { Inventory.empty with usedMask := ← u32 int0 (← rule.getD "fwmask" (.int 0xffffffff)) }
  else .ok .empty

/-- One line of `wg show all fwmark`, cut into words. -/
def wgMark (mine : String → Bool) (words : List String) : Except Failure Inventory :=
  match words with
  | [name, mark] =>
    if mine name || mark == "off" then .ok .empty
    else (u32Text int0 mark).map fun bits => { Inventory.empty with usedMask := bits }
  | _ => .error (.network "unparseable WireGuard mark inventory")

/-- One textual dump. -/
def dumpUse (dump : String × String) : Except Failure Inventory := do
  let bits ← legacyMask int0 int10 dump.2
  let zones ← legacyZones int0 dump.2
  .ok { Inventory.empty with usedMask := bits, zones := zones }

/-! ### `_opaque_marks` -/

def opaqueMarkExtensions : List String :=
  ["MARK", "CONNMARK", "CT", "TPROXY", "HMARK", "IPMARK", "SET", "socket", "mark", "connmark"]

/-- The test of one dictionary: an extension whose marks `nft -j` hides. -/
def opaqueExtension (fields : Fields) : Except Failure Bool :=
  match fields.get "xt" with
  | some (.dict xt) =>
    let isTarget := isText "target" (Fields.get xt "type")
    match Fields.get xt "name" with
    | some (.list _) | some (.dict _) => .error (.python "TypeError")
    | some (.str name) =>
      .ok (name ∈ opaqueMarkExtensions || (isTarget && !(name ∈ nonMarkTargets)))
    | _ => .ok isTarget
  | _ => .ok false

mutual

/-- `_opaque_marks`. -/
def opaqueMarks : Json → Except Failure Bool
  | .list items => opaqueMarksAll items
  | .dict fields =>
    match opaqueExtension fields with
    | .ok false => opaqueMarksFields fields
    | found => found
  | _ => .ok false
termination_by structural j => j

def opaqueMarksAll : List Json → Except Failure Bool
  | [] => .ok false
  | item :: rest =>
    match opaqueMarks item with
    | .ok false => opaqueMarksAll rest
    | found => found
termination_by structural l => l

def opaqueMarksFields : List (String × Json) → Except Failure Bool
  | [] => .ok false
  | (_, item) :: rest =>
    match opaqueMarks item with
    | .ok false => opaqueMarksFields rest
    | found => found
termination_by structural l => l

end

/-- `_require_mark_visibility`: both iptables-nft dumps are needed to read hidden marks. -/
def requireMarkVisibility (hidden : Bool) (dumps : List (String × String)) : Except Failure Unit :=
  refuse (hidden && !(["iptables-nft-save", "ip6tables-nft-save"].all fun tool =>
    (dumps.map Prod.fst).contains tool))
    "iptables-nft mark or conntrack rules need iptables-nft-save to be inventoried"

/-! ## `inspect` -/

/-- What the commands print: JSON values, the words of every line of `wg`, the text of
every installed iptables dump, the zones of the listed flows, and what `_underlay` makes
of the routes to the endpoint. A command that fails raises. -/
structure Listings where
  links : Except Failure Json
  rules : Except Failure Json
  rules6 : Except Failure Json
  routes : Except Failure Json
  nft : Except Failure Json
  wg : Except Failure (List (List String))
  dumps : Except Failure (List (String × String))
  conntrack : Except Failure (List Nat)
  underlay : Except Failure (String × Nat)

/-- `isinstance(value, list)`. -/
def asList (text : String) : Json → Except Failure (List Json)
  | .list items => .ok items
  | _ => .error (.network text)

/-- The list under `nftables`. -/
def nftEntries (text : String) : Json → Except Failure (List Json)
  | .dict fields =>
    match Fields.get fields "nftables" with
    | some (.list entries) => .ok entries
    | _ => .error (.network text)
  | _ => .error (.network text)

def isOwnLink (link : Json) : Except Failure Bool := do
  .ok (isText interface (← link.get "ifname"))

/-- The table with the reserved name. -/
def isOwnTable (entry : Json) : Except Failure Bool := do
  let table ← entry.getD "table" (.dict [])
  if isText nftTable (← table.get "name") then
    .ok (isText "inet" (← (← entry.item "table").get "family"))
  else .ok false

def tunnelKinds : List String := ["wireguard", "tun", "ipip", "gre", "sit", "vti", "ip6tnl", "xfrm"]

/-- The names of the tunnel links. -/
def tunnelNames : List Json → Except Failure (List (Option Json))
  | [] => .ok []
  | link :: rest => do
      let kind ← (← link.getD "linkinfo" (.dict [])).get "info_kind"
      if tunnelKinds.any fun name => isText name kind then
        let name ← link.get "ifname"
        hashable name
        .ok (name :: (← tunnelNames rest))
      else tunnelNames rest

/-- A default route, or half of one, over a tunnel. -/
def isFullTunnel (tunnels : List (Option Json)) (route : Json) : Except Failure Bool := do
  let dev ← route.get "dev"
  hashable dev
  if tunnels.any (sameName dev) then
    let dst ← route.get "dst"
    .ok (["default", "0.0.0.0/0", "0.0.0.0/1", "128.0.0.0/1"].any fun range => isText range dst)
  else .ok false

def routeUse (route : Json) : Except Failure Inventory := do
  let table ← tableNumber int0 named (← route.getD "table" (.int 254))
  .ok { Inventory.empty with tables := [table] }

/-- `_u32(rule['fwmark'])` of a rule with a mark. -/
def ruleMark (rule : Json) : Except Failure Unit := do
  if ← rule.contains "fwmark" then (u32 int0 (← rule.item "fwmark")).map fun _ => () else .ok ()

def ruleTable (rule : Json) : Except Failure Inventory := do
  if ← rule.contains "table" then
    .ok { Inventory.empty with tables := [← tableNumber int0 named (← rule.item "table")] }
  else .ok .empty

/-- The mask and the table of a rule of either family. -/
def ruleUse (rule : Json) : Except Failure Inventory := do
  ruleMark int0 rule
  let mask ← ruleMask int0 rule
  let table ← ruleTable int0 named rule
  .ok (mask.join table)

def priorityUse (rule : Json) : Except Failure Inventory := do
  let priority ← u32 int0 (← rule.getD "priority" .null)
  .ok { Inventory.empty with priorities := [priority.toNat] }

/-- Whether the name of the link or of the table is taken. -/
def isReserved (links entries : List Json) : Except Failure Bool := do
  if ← anyOf isOwnLink links then .ok true else anyOf isOwnTable entries

/-- The refusals of `_inspect`. -/
def refusals (links rules routes entries : List Json) : Except Failure Unit := do
  refuse (← isReserved links entries) "reserved network name already exists; ownership is not established"
  refuse (!(← anyOf (isLocal int0 named) rules)) "required host local routing rule is absent"
  let zeros ← countOf (fun rule => do .ok (isZero (← rule.get "priority"))) rules
  refuse (zeros != 1) "foreign routing at priority zero prevents an earlier owned policy"
  let tunnels ← tunnelNames links
  refuse (← anyOf (isFullTunnel tunnels) routes)
    "foreign full-tunnel routing must be retired by its owner"

/-- What `_nft_usage` returns. -/
def nftUse (value : Json) : Except Failure Inventory :=
  (nftUsage int0 value).map fun usage =>
    { Inventory.empty with usedMask := usage.used, zones := usage.zones }

/-- The listings added up. -/
def uses (l : Listings) (rules rules6 routes entries : List Json) (nft : Json) :
    Except Failure Inventory := do
  let ofNft ← nftUse int0 nft
  let ofRoutes ← gather (routeUse int0 named) routes
  let ofRules ← gather (ruleUse int0 named) (rules ++ rules6)
  let priorities ← gather (priorityUse int0) rules
  let ofWg ← gather (wgMark int0 fun _ => false) (← l.wg)
  let dumps ← l.dumps
  requireMarkVisibility (← opaqueMarks (.list entries)) dumps
  let ofDumps ← gather (dumpUse int0 int10) dumps
  let flows ← l.conntrack
  .ok (ofNft.join (ofRoutes.join (ofRules.join (priorities.join (ofWg.join (ofDumps.join
    { Inventory.empty with zones := flows }))))))

/-- `_inspect`; the underlay and its MTU beside the inventory. -/
def inspectListings (l : Listings) (requireUnderlay : Bool) :
    Except Failure (Inventory × String × Nat) := do
  let links ← l.links
  let rules ← l.rules
  let rules6 ← l.rules6
  let routes ← l.routes
  let nft ← l.nft
  let incomplete := "incomplete network inventory"
  let links ← asList incomplete links
  let rules ← asList incomplete rules
  let rules6 ← asList incomplete rules6
  let routes ← asList incomplete routes
  let entries ← nftEntries incomplete nft
  refusals int0 named links rules routes entries
  let inventory ← uses int0 int10 named l rules rules6 routes entries nft
  if requireUnderlay then
    let (underlay, mtu) ← l.underlay
    .ok (inventory, underlay, mtu)
  else .ok (inventory, "", 0)

/-- `inspect`: any other exception becomes a `NetworkError`. -/
def inspectNetwork (l : Listings) (requireUnderlay : Bool) : Except Failure (Inventory × String × Nat) :=
  match inspectListings int0 int10 named l requireUnderlay with
  | .error (.python _) => .error (.network "network inventory contains unsupported values")
  | result => result

/-! ## `_allocation_conflict` -/

/-- An item of the owned table: the table itself, or an object in it. -/
def isOwnItem (kind : String) : Json → Bool
  | .dict item =>
    isText "inet" (Fields.get item "family") &&
      ((kind == "table" && isText nftTable (Fields.get item "name")) ||
        isText nftTable (Fields.get item "table"))
  | _ => false

def isOwnEntry (entry : Fields) : Bool := entry.any fun (kind, item) => isOwnItem kind item

/-- The entries outside the owned table. -/
def foreignEntries : List Json → Except Failure (List Json)
  | [] => .ok []
  | .dict entry :: rest => do
      let others ← foreignEntries rest
      .ok (if isOwnEntry entry then others else .dict entry :: others)
  | _ :: _ => .error (.python "AttributeError")

/-- `_foreign_nft`. -/
def foreignNft (nft : Json) : Except Failure (Inventory × Bool) := do
  let foreign ← foreignEntries (← nftEntries "incomplete live network inventory" nft)
  let use ← nftUse int0 (.list foreign)
  .ok (use, ← opaqueMarks (.list foreign))

/-- Whether a foreign rule comes before the owned one. -/
def ruleInTheWay (a : Allocation) (rule : Json) : Except Failure Bool := do
  let priority ← u32 int0 (← rule.getD "priority" .null)
  if 0 < priority.toNat ∧ priority.toNat ≤ a.priority then .ok true
  else if priority.toNat = 0 then
    .ok ((← tableNumber int0 named (← rule.getD "table" (.int 0))) != 255)
  else .ok false

-- _canonical, json.dumps with sorted keys
variable (canonical : Json → String)

/-- The loop over the IPv4 rules; none where it returns True. -/
def foreignRules (own : List String) (a : Allocation) : List Json → Except Failure (Option Inventory)
  | [] => .ok (some .empty)
  | rule :: rest =>
    if canonical rule ∈ own then foreignRules own a rest
    else do
      if ← ruleInTheWay int0 named a rule then .ok none
      else
        let mask ← ruleMask int0 rule
        .ok ((← foreignRules own a rest).map mask.join)

/-- `_allocation_conflict`, with the canonical states of the rules in the receipt. -/
def allocationConflict (own : List String) (a : Allocation) (l : Listings) : Except Failure Bool := do
  let incomplete := "incomplete live network inventory"
  let rules ← asList incomplete (← l.rules)
  let rules6 ← asList incomplete (← l.rules6)
  let (ofNft, hidden) ← foreignNft int0 (← l.nft)
  match ← foreignRules int0 named canonical own a rules with
  | none => .ok true
  | some ofRules =>
    if (← countOf (isLocal int0 named) rules) != 1 then .ok true
    else
      let ofRules6 ← gather (ruleMask int0) rules6
      let ofWg ← gather (wgMark int0 (· == interface)) (← l.wg)
      let dumps ← l.dumps
      requireMarkVisibility hidden dumps
      let ofDumps ← gather (dumpUse int0 int10) dumps
      let found := ofNft.join (ofRules.join (ofRules6.join (ofWg.join ofDumps)))
      .ok (found.usedMask &&& a.mask != 0 || a.zone ∈ found.zones)

end Walks

/-! ## What `allocate` returns -/

theorem firstFree_none {start count : Nat} {taken : List Nat} :
    firstFree start count taken = none ↔ ∀ n, start ≤ n → n < start + count → n ∈ taken := by
  simp only [firstFree, List.find?_eq_none, List.mem_range'_1, decide_eq_true_eq, not_not]
  exact ⟨fun all n low high => all n ⟨low, high⟩, fun all n range => all n range.1 range.2⟩

theorem firstFree_some {start count n : Nat} {taken : List Nat}
    (found : firstFree start count taken = some n) : start ≤ n ∧ n < start + count ∧ n ∉ taken := by
  have mem := List.mem_of_find?_eq_some found
  have free := List.find?_some found
  rw [List.mem_range'_1] at mem
  exact ⟨mem.1, mem.2, by simpa using free⟩

/-- The lowest nonzero priority in use. -/
theorem firstForeign_le {priorities : List Nat} {p : Nat} (used : p ∈ priorities) (nonzero : p ≠ 0) :
    (priorities.filter (· ≠ 0)).min?.getD 1001 ≤ p := by
  have mem : p ∈ priorities.filter (· ≠ 0) := by simp [used, nonzero]
  exact List.min?_getD_le_of_mem mem

/-- Only priority 1 is ever taken: a lower bound of the priorities in use is free exactly
if 1 is. -/
theorem freePriority_eq (priorities : List Nat) :
    freePriority priorities = if 1 ∈ priorities then none else some 1 := by
  unfold freePriority
  dsimp only
  split_ifs with taken
  · have low := firstForeign_le taken one_ne_zero
    rw [firstFree_none]
    intro n above below
    omega
  · have high : 2 ≤ (priorities.filter (· ≠ 0)).min?.getD 1001 := by
      cases least : (priorities.filter (· ≠ 0)).min? with
      | none => decide
      | some p =>
        obtain ⟨used, nonzero⟩ := List.mem_filter.mp (List.min?_mem least)
        have notOne : p ≠ 1 := fun one => taken (one ▸ used)
        have notZero : p ≠ 0 := by simpa using nonzero
        change 2 ≤ p
        omega
    obtain ⟨k, count⟩ : ∃ k, min 1001 ((priorities.filter (· ≠ 0)).min?.getD 1001) - 1 = k + 1 :=
      ⟨min 1001 ((priorities.filter (· ≠ 0)).min?.getD 1001) - 2, by omega⟩
    rw [count, firstFree, List.range'_succ, List.find?_cons_of_pos (by simpa using taken)]

/-! ### The two bits -/

theorem and_bit_eq_zero (used : Mark) {i : Nat} (bound : i < 32) :
    used &&& (1 : Mark) <<< i = 0 ↔ used.getLsbD i = false := by
  have shifted : (1 : Mark) <<< i = BitVec.twoPow 32 i := rfl
  rw [shifted, BitVec.and_twoPow]
  cases used.getLsbD i with
  | false => simp
  | true =>
    simp only [if_true, Bool.true_eq_false, iff_false]
    intro zero
    have bit := congrArg (·.getLsbD i) zero
    simp [bound] at bit

theorem freeBits_eq (used : Mark) :
    freeBits used = ((List.range 32).filter (~~~used).getLsbD).map fun bit => (1 : Mark) <<< bit := by
  unfold freeBits
  rw [List.filter_map]
  congr 1
  apply List.filter_congr
  intro i mem
  have bound := List.mem_range.mp mem
  rw [Function.comp_apply, BitVec.getLsbD_not, decide_eq_true bound, Bool.true_and]
  simp only [and_bit_eq_zero used bound]
  cases used.getLsbD i <;> rfl

theorem freeBits_length (used : Mark) : (freeBits used).length = bitCount (~~~used) := by
  rw [freeBits_eq, List.length_map, bitCount, List.countP_eq_length_filter]

/-- Two different bits make a mask that `Allocation.__post_init__` accepts. -/
def TwoBits (mask : Mark) : Prop :=
  0 < mask ∧ bitCount mask = 2 ∧ bitCount (mask &&& -mask) = 1 ∧
    bitCount (mask ^^^ (mask &&& -mask)) = 1 ∧ mask &&& -mask ≠ mask ^^^ (mask &&& -mask) ∧
    (mask &&& -mask) ||| (mask ^^^ (mask &&& -mask)) = mask

instance (mask : Mark) : Decidable (TwoBits mask) := inferInstanceAs (Decidable (_ ∧ _))

theorem countP_or {α : Type} {p q : α → Bool} : ∀ {items : List α},
    (∀ item ∈ items, (p item && q item) = false) →
      items.countP (fun item => p item || q item) = items.countP p + items.countP q
  | [], _ => rfl
  | head :: rest, apart => by
    have here := apart head (by simp)
    have more := countP_or fun item mem => apart item (List.mem_cons_of_mem _ mem)
    rw [List.countP_cons, List.countP_cons, List.countP_cons, more]
    cases pHead : p head <;> cases qHead : q head <;> simp [pHead, qHead] at here ⊢ <;> omega

theorem bitCount_or {x y : Mark} (apart : x &&& y = 0) : bitCount (x ||| y) = bitCount x + bitCount y := by
  have bits : (x ||| y).getLsbD = fun i => x.getLsbD i || y.getLsbD i :=
    funext fun i => BitVec.getLsbD_or
  unfold bitCount
  rw [bits, countP_or]
  intro i _
  rw [← BitVec.getLsbD_and, apart]
  simp

theorem bitCount_bit : ∀ i : Fin 32, bitCount ((1 : Mark) <<< i.val) = 1 := by
  decide +kernel

theorem lowest_bit : ∀ j : Fin 32, ∀ i : Fin 32, i < j →
    let x := (1 : Mark) <<< i.val
    let y := (1 : Mark) <<< j.val
    0 < x ||| y ∧ x &&& y = 0 ∧ x ≠ y ∧ (x ||| y) &&& -(x ||| y) = x ∧ (x ||| y) ^^^ x = y := by
  decide +kernel

theorem twoBits_pair {i j : Fin 32} (less : i < j) :
    TwoBits ((1 : Mark) <<< i.val ||| (1 : Mark) <<< j.val) := by
  obtain ⟨positive, apart, distinct, low, high⟩ := lowest_bit j i less
  unfold TwoBits
  rw [low, high, bitCount_or apart, bitCount_bit, bitCount_bit]
  exact ⟨positive, rfl, rfl, rfl, distinct, rfl⟩

theorem freeMask_twoBits {used mask : Mark} (found : freeMask used = some mask) : TwoBits mask := by
  unfold freeMask at found
  split at found
  · rename_i first second rest free
    split_ifs at found with preferred
    · cases found
      exact twoBits_pair (show (24 : Fin 32) < 25 by decide)
    · cases found
      -- the free bits are listed in rising order
      rw [freeBits_eq, List.map_eq_cons_iff] at free
      obtain ⟨i, tail, list, rfl, free⟩ := free
      rw [List.map_eq_cons_iff] at free
      obtain ⟨j, tail', rfl, rfl, -⟩ := free
      have sorted := (List.pairwise_lt_range (n := 32)).filter (~~~used).getLsbD
      have mem : ∀ k ∈ i :: j :: tail', k < 32 := by
        rw [← list]
        intro k inside
        exact List.mem_range.mp (List.mem_of_mem_filter inside)
      rw [list, List.pairwise_cons] at sorted
      have less : (⟨i, mem i (by simp)⟩ : Fin 32) < ⟨j, mem j (by simp)⟩ := sorted.1 j (by simp)
      exact twoBits_pair less
  · cases found

theorem freeMask_none {used : Mark} : freeMask used = none ↔ bitCount (~~~used) < 2 := by
  rw [← freeBits_length]
  unfold freeMask
  split
  · rename_i free
    simp [free]
  · rename_i short
    match h : freeBits used, short with
    | [], _ => simp
    | [_], _ => simp
    | a :: b :: c, short => exact absurd rfl (short a b c)

/-! ### The allocation -/

/-- `allocate` written as its outcome. -/
theorem allocate_eq (inventory : Inventory) :
    (∃ mask table zone, freeMask inventory.usedMask = some mask ∧ 1 ∉ inventory.priorities ∧
      firstFree 57000 1000 inventory.tables = some table ∧
      firstFree 1 65535 inventory.zones = some zone ∧
      allocate inventory = .ok ⟨mask, mask &&& -mask, mask ^^^ (mask &&& -mask), table, 1, zone⟩ ∧
      Allocation.valid ⟨mask, mask &&& -mask, mask ^^^ (mask &&& -mask), table, 1, zone⟩ = true) ∨
    ((freeMask inventory.usedMask = none ∨ 1 ∈ inventory.priorities ∨
      firstFree 57000 1000 inventory.tables = none ∨ firstFree 1 65535 inventory.zones = none) ∧
      ∃ e, allocate inventory = .error e) := by
  unfold allocate
  rw [freePriority_eq]
  cases bits : freeMask inventory.usedMask with
  | none => exact .inr ⟨.inl rfl, _, rfl⟩
  | some mask =>
    by_cases taken : 1 ∈ inventory.priorities
    · rw [if_pos taken]
      exact .inr ⟨.inr (.inl taken), _, rfl⟩
    rw [if_neg taken]
    cases tables : firstFree 57000 1000 inventory.tables with
    | none => exact .inr ⟨.inr (.inr (.inl rfl)), _, rfl⟩
    | some table =>
      cases zones : firstFree 1 65535 inventory.zones with
      | none => exact .inr ⟨.inr (.inr (.inr rfl)), _, rfl⟩
      | some zone =>
        obtain ⟨positive, two, one, other, distinct, both⟩ := freeMask_twoBits bits
        obtain ⟨fromTable, toTable, -⟩ := firstFree_some tables
        obtain ⟨fromZone, toZone, -⟩ := firstFree_some zones
        have valid : Allocation.valid
            ⟨mask, mask &&& -mask, mask ^^^ (mask &&& -mask), table, 1, zone⟩ = true := by
          simp only [Allocation.valid, decide_eq_true_eq]
          exact ⟨positive, two, one, other, distinct, both, fromTable, by omega, le_rfl,
            by decide, fromZone, by omega⟩
        exact .inl ⟨mask, table, zone, rfl, taken, rfl, rfl, if_pos valid, valid⟩

/-- What has run out when `allocate` raises. -/
theorem allocate_error_iff (inventory : Inventory) :
    (∃ e, allocate inventory = .error e) ↔
      bitCount (~~~inventory.usedMask) < 2 ∨ 1 ∈ inventory.priorities ∨
      (∀ t, 57000 ≤ t → t ≤ 57999 → t ∈ inventory.tables) ∨
      (∀ z, 1 ≤ z → z ≤ 65535 → z ∈ inventory.zones) := by
  have tables : firstFree 57000 1000 inventory.tables = none ↔
      ∀ t, 57000 ≤ t → t ≤ 57999 → t ∈ inventory.tables := by
    rw [firstFree_none]
    exact forall_congr' fun t => ⟨fun h low high => h low (by omega), fun h low high => h low (by omega)⟩
  have zones : firstFree 1 65535 inventory.zones = none ↔
      ∀ z, 1 ≤ z → z ≤ 65535 → z ∈ inventory.zones := by
    rw [firstFree_none]
    exact forall_congr' fun z => ⟨fun h low high => h low (by omega), fun h low high => h low (by omega)⟩
  rw [← freeMask_none, ← tables, ← zones]
  obtain ⟨mask, table, zone, bits, free, table_, zone_, done, -⟩ | ⟨out, failed⟩ := allocate_eq inventory
  · rw [done, bits, table_, zone_]
    simp [free]
  · exact ⟨fun _ => out, fun _ => failed⟩

variable {inventory : Inventory} {a : Allocation}

/-- What `allocate` returns is valid and free. -/
theorem allocate_spec (done : allocate inventory = .ok a) :
    a.valid = true ∧ inventory.usedMask &&& a.mask = 0 ∧ a.routingTable ∉ inventory.tables ∧
      a.zone ∉ inventory.zones ∧ ∀ p ∈ inventory.priorities, p ≠ 0 → a.priority < p := by
  obtain ⟨mask, table, zone, bits, free, table_, zone_, is, valid⟩ | ⟨-, e, failed⟩ := allocate_eq inventory
  · rw [is] at done
    cases done
    refine ⟨valid, freeMask_free bits, (firstFree_some table_).2.2, (firstFree_some zone_).2.2, ?_⟩
    intro p used nonzero
    have notOne : p ≠ 1 := fun one => free (one ▸ used)
    change 1 < p
    omega
  · rw [failed] at done
    cases done

/-! ## The listings before and after -/

/-- A listing with owned items added to it, anywhere. -/
inductive Added {α : Type} (owned : α → Prop) : List α → List α → Prop
  | nil : Added owned [] []
  | keep (x : α) {l m : List α} (rest : Added owned l m) : Added owned (x :: l) (x :: m)
  | add (x : α) (own : owned x) {l m : List α} (rest : Added owned l m) : Added owned l (x :: m)

theorem Added.mem {α : Type} {owned : α → Prop} {l m : List α} (added : Added owned l m) :
    ∀ x ∈ m, x ∈ l ∨ owned x := by
  induction added with
  | nil => simp
  | keep x _ ih =>
    intro y mem
    rw [List.mem_cons] at mem ⊢
    obtain rfl | mem := mem
    · exact .inl (.inl rfl)
    · exact (ih y mem).imp_left .inr
  | add x own _ ih =>
    intro y mem
    obtain rfl | mem := List.mem_cons.mp mem
    · exact .inr own
    · exact ih y mem

/-- Owned items are left out of a count, or of a selection. -/
theorem Added.filter_eq {α : Type} {owned : α → Prop} {l m : List α} (added : Added owned l m)
    {p : α → Bool} (apart : ∀ x, owned x → p x = false) : m.filter p = l.filter p := by
  induction added with
  | nil => rfl
  | keep x _ ih => simp [List.filter_cons, ih]
  | add x own _ ih => simp [apart x own, ih]

/-- A rule as `ip -j rule show` prints it: its priority is a number. -/
structure IpRule where
  priority : Nat
  others : Fields

def IpRule.json (rule : IpRule) : Json := .dict (("priority", .int rule.priority) :: rule.others)

/-- A ruleset as `nft -j list ruleset` prints it: dictionaries, and of every object in an
`inet` table the table too. -/
structure Ruleset where
  entries : List Fields
  keys : ∀ entry ∈ entries, (entry.map Prod.fst).Nodup
  tabled : ∀ entry ∈ entries, ∀ kind item, (kind, Json.Document.dict item) ∈ entry →
    isText "inet" (Fields.get item "family") = true → isText nftTable (Fields.get item "table") = true →
      ∃ other ∈ entries, ∃ table, Fields.get other "table" = some (.dict table) ∧
        isText nftTable (Fields.get table "name") = true ∧
        isText "inet" (Fields.get table "family") = true

def rulesetJson (entries : List Fields) : Json := .dict [("nftables", .list (entries.map .dict))]

/-- The owned resources of an allocation are added and all else stays. Links, routes and
flows are not read again. -/
structure Acquired (canonical : Json → String) (own : List String) (a : Allocation)
    (before after : Listings) : Prop where
  rules : ∃ l m : List IpRule, before.rules = .ok (.list (l.map IpRule.json)) ∧
    after.rules = .ok (.list (m.map IpRule.json)) ∧
    Added (fun rule => rule.priority = a.priority ∧ canonical rule.json ∈ own) l m
  rules6 : after.rules6 = before.rules6
  nft : ∃ (l : Ruleset) (m : List Fields), before.nft = .ok (rulesetJson l.entries) ∧
    after.nft = .ok (rulesetJson m) ∧ Added (fun entry => isOwnEntry entry = true) l.entries m
  wg : ∃ l m, before.wg = .ok l ∧ after.wg = .ok m ∧
    Added (fun words => ∃ mark, words = [interface, mark]) l m
  dumps : after.dumps = before.dumps

/-! ### Tests over a listing -/

section Tests

variable {α β : Type} {test : α → Except Failure Bool}

theorem anyOf_false : ∀ {items : List α}, anyOf test items = .ok false →
    ∀ item ∈ items, test item = .ok false
  | [], _, _, mem => by cases mem
  | head :: rest, none_, item, mem => by
    obtain ⟨hit, here, more⟩ := bind_eq_ok.mp none_
    cases hit with
    | true => cases more
    | false =>
      obtain rfl | mem := List.mem_cons.mp mem
      · exact here
      · exact anyOf_false more item mem

theorem anyOf_true : ∀ {items : List α}, anyOf test items = .ok true →
    ∃ item ∈ items, test item = .ok true
  | [], found => by cases found
  | head :: rest, found => by
    obtain ⟨hit, here, more⟩ := bind_eq_ok.mp found
    cases hit with
    | true => exact ⟨head, by simp, here⟩
    | false =>
      obtain ⟨item, mem, holds⟩ := anyOf_true more
      exact ⟨item, List.mem_cons_of_mem _ mem, holds⟩

theorem countOf_map {f : β → α} {p : β → Bool} : ∀ {items : List β},
    (∀ item ∈ items, test (f item) = .ok (p item)) →
      countOf test (items.map f) = .ok (items.countP p)
  | [], _ => rfl
  | head :: rest, each => by
    have here := each head (by simp)
    have more := countOf_map fun item mem => each item (List.mem_cons_of_mem _ mem)
    simp only [List.map_cons, countOf, here, more]
    cases hit : p head with
    | true => simp [hit, bind, Except.bind, Nat.add_comm]
    | false => simp [hit, bind, Except.bind]

end Tests

/-! ### What a successful inspection has seen -/

section Walks

variable {int0 int10 : String → Option Int} {named : String → Option Nat} {canonical : Json → String}

theorem ruleUse_mask {rule : Json} {d : Inventory} (done : ruleUse int0 named rule = .ok d) :
    ∃ mask, ruleMask int0 rule = .ok mask ∧ mask.Within d := by
  obtain ⟨_, -, done⟩ := bind_eq_ok.mp done
  obtain ⟨mask, read, done⟩ := bind_eq_ok.mp done
  obtain ⟨table, -, done⟩ := bind_eq_ok.mp done
  cases done
  exact ⟨mask, read, (Inventory.join_within.mp (.refl _)).1⟩

theorem priorityUse_mem {rule : Json} {d : Inventory} (done : priorityUse int0 rule = .ok d) :
    ∃ value priority, rule.getD "priority" .null = .ok value ∧ u32 int0 value = .ok priority ∧
      priority.toNat ∈ d.priorities := by
  obtain ⟨value, got, done⟩ := bind_eq_ok.mp done
  obtain ⟨priority, read, done⟩ := bind_eq_ok.mp done
  cases done
  exact ⟨value, priority, got, read, by simp⟩

/-- What the inspection read is within its inventory. -/
structure Seen (int0 int10 : String → Option Int) (l : Listings) (rules rules6 entries : List Json)
    (nft : Json) (inventory : Inventory) : Prop where
  nft : ∃ c, nftUse int0 nft = .ok c ∧ c.Within inventory
  masks : ∀ rule ∈ rules ++ rules6, ∃ c, ruleMask int0 rule = .ok c ∧ c.Within inventory
  priorities : ∀ rule ∈ rules, ∃ value priority, rule.getD "priority" .null = .ok value ∧
    u32 int0 value = .ok priority ∧ priority.toNat ∈ inventory.priorities
  wg : ∃ lines, l.wg = .ok lines ∧ ∀ words ∈ lines, ∃ c,
    wgMark int0 (fun _ => false) words = .ok c ∧ c.Within inventory
  visible : ∃ dumps hidden, l.dumps = .ok dumps ∧ opaqueMarks (.list entries) = .ok hidden ∧
    requireMarkVisibility hidden dumps = .ok ()
  dumps : ∃ dumps c, l.dumps = .ok dumps ∧ gather (dumpUse int0 int10) dumps = .ok c ∧ c.Within inventory

theorem uses_seen {l : Listings} {rules rules6 routes entries : List Json} {nft : Json}
    (done : uses int0 int10 named l rules rules6 routes entries nft = .ok inventory) :
    Seen int0 int10 l rules rules6 entries nft inventory := by
  obtain ⟨ofNft, readNft, done⟩ := bind_eq_ok.mp done
  obtain ⟨ofRoutes, -, done⟩ := bind_eq_ok.mp done
  obtain ⟨ofRules, readRules, done⟩ := bind_eq_ok.mp done
  obtain ⟨priorities, readPriorities, done⟩ := bind_eq_ok.mp done
  obtain ⟨lines, isWg, done⟩ := bind_eq_ok.mp done
  obtain ⟨ofWg, readWg, done⟩ := bind_eq_ok.mp done
  obtain ⟨dumps, isDumps, done⟩ := bind_eq_ok.mp done
  obtain ⟨hidden, isHidden, done⟩ := bind_eq_ok.mp done
  obtain ⟨_, visible, done⟩ := bind_eq_ok.mp done
  obtain ⟨ofDumps, readDumps, done⟩ := bind_eq_ok.mp done
  obtain ⟨flows, -, done⟩ := bind_eq_ok.mp done
  cases done
  have parts := Inventory.Within.refl (ofNft.join (ofRoutes.join (ofRules.join (priorities.join
    (ofWg.join (ofDumps.join { Inventory.empty with zones := flows }))))))
  simp only [Inventory.join_within] at parts
  obtain ⟨inNft, -, inRules, inPriorities, inWg, inDumps, -⟩ := parts
  constructor
  · exact ⟨ofNft, readNft, inNft⟩
  · intro rule mem
    obtain ⟨d, read, within⟩ := gather_mem readRules rule mem
    obtain ⟨mask, isMask, part⟩ := ruleUse_mask read
    exact ⟨mask, isMask, part.trans (within.trans inRules)⟩
  · intro rule mem
    obtain ⟨d, read, within⟩ := gather_mem readPriorities rule mem
    obtain ⟨value, priority, got, isPriority, inside⟩ := priorityUse_mem read
    exact ⟨value, priority, got, isPriority, (within.trans inPriorities).priorities inside⟩
  · refine ⟨lines, isWg, fun words mem => ?_⟩
    obtain ⟨d, read, within⟩ := gather_mem readWg words mem
    exact ⟨d, read, within.trans inWg⟩
  · exact ⟨dumps, hidden, isDumps, isHidden, visible⟩
  · exact ⟨dumps, ofDumps, isDumps, readDumps, inDumps⟩

/-- What a successful inspection has ruled out. -/
structure Ruled (int0 : String → Option Int) (named : String → Option Nat) (rules entries : List Json) :
    Prop where
  fresh : ∀ entry ∈ entries, isOwnTable entry = .ok false
  localRule : ∃ rule ∈ rules, isLocal int0 named rule = .ok true
  single : countOf (fun rule => do .ok (isZero (← rule.get "priority"))) rules = .ok 1

theorem refusals_ruled {links rules routes entries : List Json} {u : Unit}
    (done : refusals int0 named links rules routes entries = .ok u) :
    Ruled int0 named rules entries := by
  obtain ⟨reserved, taken, done⟩ := bind_eq_ok.mp done
  obtain ⟨_, unreserved, done⟩ := bind_eq_ok.mp done
  obtain ⟨hit, isHit, done⟩ := bind_eq_ok.mp done
  obtain ⟨_, present, done⟩ := bind_eq_ok.mp done
  obtain ⟨zeros, isZeros, done⟩ := bind_eq_ok.mp done
  obtain ⟨_, one, -⟩ := bind_eq_ok.mp done
  rw [refuse_ok] at unreserved present one
  obtain ⟨ownLink, -, taken⟩ := bind_eq_ok.mp taken
  subst unreserved
  constructor
  · cases ownLink with
    | true => cases taken
    | false => exact anyOf_false taken
  · have found : hit = true := by simpa using present
    exact anyOf_true (found ▸ isHit)
  · have isOne : zeros = 1 := by simpa using one
    exact isOne ▸ isZeros

/-- A successful `inspect`, taken apart. -/
theorem inspectNetwork_ok {l : Listings} {requireUnderlay : Bool}
    {underlay : String} {mtu : Nat}
    (done : inspectNetwork int0 int10 named l requireUnderlay = .ok (inventory, underlay, mtu)) :
    ∃ rules rules6 entries nft, l.rules = .ok (.list rules) ∧ l.rules6 = .ok (.list rules6) ∧
      l.nft = .ok nft ∧ nftEntries "incomplete network inventory" nft = .ok entries ∧
      Ruled int0 named rules entries ∧ Seen int0 int10 l rules rules6 entries nft inventory := by
  have raw : inspectListings int0 int10 named l requireUnderlay = .ok (inventory, underlay, mtu) := by
    unfold inspectNetwork at done
    split at done
    · cases done
    · exact done
  have listed : ∀ {text : String} {value : Json} {items : List Json},
      asList text value = .ok items → value = .list items := by
    intro text value items isList
    cases value <;> simp_all [asList]
  obtain ⟨links, -, raw⟩ := bind_eq_ok.mp raw
  obtain ⟨rules, isRules, raw⟩ := bind_eq_ok.mp raw
  obtain ⟨rules6, isRules6, raw⟩ := bind_eq_ok.mp raw
  obtain ⟨routes, -, raw⟩ := bind_eq_ok.mp raw
  obtain ⟨nft, isNft, raw⟩ := bind_eq_ok.mp raw
  obtain ⟨linkList, -, raw⟩ := bind_eq_ok.mp raw
  obtain ⟨ruleList, listRules, raw⟩ := bind_eq_ok.mp raw
  obtain ⟨rule6List, listRules6, raw⟩ := bind_eq_ok.mp raw
  obtain ⟨routeList, -, raw⟩ := bind_eq_ok.mp raw
  obtain ⟨entries, isEntries, raw⟩ := bind_eq_ok.mp raw
  obtain ⟨_, ruled, raw⟩ := bind_eq_ok.mp raw
  obtain ⟨found, seen, raw⟩ := bind_eq_ok.mp raw
  have isFound : found = inventory := by
    split_ifs at raw
    · obtain ⟨path, -, raw⟩ := bind_eq_ok.mp raw
      cases raw
      rfl
    · cases raw
      rfl
  subst isFound
  exact ⟨ruleList, rule6List, entries, nft, listed listRules ▸ isRules, listed listRules6 ▸ isRules6,
    isNft, isEntries, refusals_ruled ruled, uses_seen seen⟩

/-! ### The ruleset -/

theorem foreignEntries_map : ∀ entries : List Fields,
    foreignEntries (entries.map .dict) = .ok ((entries.filter fun entry => !isOwnEntry entry).map .dict)
  | [] => rfl
  | entry :: rest => by
    rw [List.map_cons, foreignEntries, foreignEntries_map rest]
    cases own : isOwnEntry entry <;> simp [own, bind, Except.bind]

theorem lookup_of_mem {key : String} {value : Json} : ∀ {fields : Fields},
    (fields.map Prod.fst).Nodup → (key, value) ∈ fields → Fields.get fields key = some value
  | [], _, mem => by cases mem
  | (k, v) :: rest, keys, mem => by
    rw [List.map_cons, List.nodup_cons] at keys
    obtain same | inside := List.mem_cons.mp mem
    · cases same
      simp [Fields.get]
    · have other : key ≠ k := by
        rintro rfl
        exact keys.1 (List.mem_map.mpr ⟨_, inside, rfl⟩)
      simpa [Fields.get, List.lookup_cons, beq_false_of_ne other] using lookup_of_mem keys.2 inside

theorem isOwnTable_table {entry table : Fields} (found : Fields.get entry "table" = some (.dict table))
    (name : isText nftTable (Fields.get table "name") = true)
    (family : isText "inet" (Fields.get table "family") = true) :
    isOwnTable (.dict entry) = .ok true := by
  simp [isOwnTable, Json.getD, Json.get, Json.item, found, name, family, bind, Except.bind]

/-- An inspected ruleset has no object under the reserved name: it would list its table. -/
theorem Ruleset.foreign (l : Ruleset)
    (fresh : ∀ entry ∈ l.entries.map Json.Document.dict, isOwnTable entry = .ok false) :
    ∀ entry ∈ l.entries, isOwnEntry entry = false := by
  have noTable : ∀ entry ∈ l.entries, isOwnTable (.dict entry) ≠ .ok true := by
    intro entry mem is
    rw [fresh _ (List.mem_map_of_mem mem)] at is
    cases is
  intro entry mem
  by_contra own
  have some_ : isOwnEntry entry = true := by simpa using own
  obtain ⟨⟨kind, item⟩, inside, isOwn⟩ := List.any_eq_true.mp some_
  cases item with
  | dict sub =>
    simp only [isOwnItem, Bool.and_eq_true, Bool.or_eq_true] at isOwn
    obtain ⟨family, ⟨isTable, name⟩ | table⟩ := isOwn
    · have isTable : kind = "table" := by simpa using isTable
      subst isTable
      exact noTable entry mem (isOwnTable_table (lookup_of_mem (l.keys entry mem) inside) name family)
    · obtain ⟨other, listed, sub, found, name, family⟩ := l.tabled entry mem kind sub inside family table
      exact noTable other listed (isOwnTable_table found name family)
  | _ => cases isOwn

theorem nftUse_ruleset (entries : List Fields) :
    nftUse int0 (rulesetJson entries) = nftUse int0 (.list (entries.map .dict)) := by
  have enters : inspect int0 [("nftables", Json.Document.list (entries.map .dict))] = .ok .enter := by
    simp [inspect, opaqueXt, claimed, markAssignment, markComparison, payloadWrite, diversion,
      zoneAssignment, zoneMatch, stray, Fields.hasKey, Fields.get, List.lookup_cons]
  simp only [nftUse, nftUsage, rulesetJson, walk, enters, walkFields]

/-- The second walk over the ruleset reads the inspected one. -/
theorem foreignNft_added {l : Ruleset} {m : List Fields} {c : Inventory} {hidden : Bool}
    (added : Added (fun entry => isOwnEntry entry = true) l.entries m)
    (fresh : ∀ entry ∈ l.entries.map Json.Document.dict, isOwnTable entry = .ok false)
    (used : nftUse int0 (rulesetJson l.entries) = .ok c)
    (marks : opaqueMarks (.list (l.entries.map .dict)) = .ok hidden) :
    foreignNft int0 (rulesetJson m) = .ok (c, hidden) := by
  have entries : nftEntries "incomplete live network inventory" (rulesetJson m) = .ok (m.map .dict) := rfl
  have same : (m.filter fun entry => !isOwnEntry entry) = l.entries := by
    rw [added.filter_eq fun entry own => by simp [own], List.filter_eq_self]
    intro entry mem
    simp [l.foreign fresh entry mem]
  rw [nftUse_ruleset] at used
  simp only [foreignNft, entries, bind, Except.bind]
  rw [foreignEntries_map, same]
  simp only [used, marks]

/-! ### The rules -/

theorem IpRule.get_priority (rule : IpRule) : rule.json.get "priority" = .ok (some (.int rule.priority)) := by
  simp [IpRule.json, Json.get, Fields.get]

theorem IpRule.isZero_eq (rule : IpRule) :
    (do .ok (isZero (← rule.json.get "priority")) : Except Failure Bool) = .ok (rule.priority == 0) := by
  rw [rule.get_priority]
  simp [bind, Except.bind, isZero]

theorem u32_nat {n : Nat} {priority : Mark} (read : u32 int0 (.int n) = .ok priority) :
    priority.toNat = n := by
  simp only [u32, inRange] at read
  split_ifs at read with range
  cases read
  have bound : n < 4294967296 := by omega
  simpa using bound

/-- The rules of an inspected listing: a priority in the inventory, and at priority zero
only the rule for the local table. -/
structure Regular (int0 : String → Option Int) (named : String → Option Nat) (inventory : Inventory)
    (rule : IpRule) : Prop where
  reads : ∃ priority, u32 int0 (.int rule.priority) = .ok priority
  listed : rule.priority ∈ inventory.priorities
  zero : rule.priority = 0 → isLocal int0 named rule.json = .ok true
  mask : ∃ c, ruleMask int0 rule.json = .ok c ∧ c.Within inventory

theorem isLocal_nonzero {rule : IpRule} (nonzero : rule.priority ≠ 0) :
    isLocal int0 named rule.json = .ok false := by
  simp [isLocal, rule.get_priority, bind, Except.bind, isZero, nonzero]

/-- A zero-priority rule that is the local one sends to table 255. -/
theorem isLocal_table {rule : IpRule} (isZero_ : rule.priority = 0)
    (isLocal_ : isLocal int0 named rule.json = .ok true) :
    (do tableNumber int0 named (← rule.json.getD "table" (.int 0))) = .ok 255 := by
  obtain ⟨value, got, isLocal_⟩ := bind_eq_ok.mp isLocal_
  rw [rule.get_priority] at got
  cases got
  rw [if_pos (by simp [isZero, isZero_])] at isLocal_
  obtain ⟨value, got, isLocal_⟩ := bind_eq_ok.mp isLocal_
  obtain ⟨table, read, isLocal_⟩ := bind_eq_ok.mp isLocal_
  have is255 : table = 255 := by simpa using isLocal_
  rw [got]
  exact is255 ▸ read

/-- Exactly one rule at priority zero, so any of them is the local one. -/
theorem eq_of_countP_one {α : Type} {p : α → Bool} {items : List α} (single : items.countP p = 1)
    {x y : α} (memX : x ∈ items) (memY : y ∈ items) (holdsX : p x = true) (holdsY : p y = true) : x = y := by
  rw [List.countP_eq_length_filter, List.length_eq_one_iff] at single
  obtain ⟨z, only⟩ := single
  grind [only ▸ List.mem_filter.mpr ⟨memX, holdsX⟩, only ▸ List.mem_filter.mpr ⟨memY, holdsY⟩]

/-- Every rule of an inspected listing is regular. -/
theorem regular_of_inspected {l : Listings} {rules : List IpRule} {rules6 entries : List Json} {nft : Json}
    (ruled : Ruled int0 named (rules.map IpRule.json) entries)
    (seen : Seen int0 int10 l (rules.map IpRule.json) rules6 entries nft inventory) :
    rules.countP (fun rule => rule.priority == 0) = 1 ∧
      ∀ rule ∈ rules, Regular int0 named inventory rule := by
  have single : rules.countP (fun rule => rule.priority == 0) = 1 := by
    have count := ruled.single
    rw [countOf_map fun rule _ => rule.isZero_eq] at count
    exact Except.ok.inj count
  refine ⟨single, fun rule mem => ?_⟩
  have listed : rule.json ∈ rules.map IpRule.json := List.mem_map_of_mem mem
  obtain ⟨value, priority, got, read, inside⟩ := seen.priorities _ listed
  have isValue : value = .int rule.priority := by
    exact (Except.ok.inj got).symm
  subst isValue
  constructor
  · exact ⟨priority, read⟩
  · exact u32_nat read ▸ inside
  · intro zero
    obtain ⟨json, memLocal, isLocal_⟩ := ruled.localRule
    obtain ⟨first, memFirst, rfl⟩ := List.mem_map.mp memLocal
    have firstZero : first.priority = 0 := by
      by_contra nonzero
      rw [isLocal_nonzero nonzero] at isLocal_
      cases isLocal_
    obtain rfl := eq_of_countP_one single mem memFirst (by simp [zero]) (by simp [firstZero])
    exact isLocal_
  · exact seen.masks _ (List.mem_append_left _ listed)

/-- A regular rule is not in the way of an allocation from its inventory. -/
theorem ruleInTheWay_regular {rule : IpRule}
    (below : ∀ p ∈ inventory.priorities, p ≠ 0 → a.priority < p)
    (regular : Regular int0 named inventory rule) :
    ruleInTheWay int0 named a rule.json = .ok false := by
  obtain ⟨priority, read⟩ := regular.reads
  have value := u32_nat read
  have got : rule.json.getD "priority" .null = .ok (.int rule.priority) := by
    simp [Json.getD, rule.get_priority, bind, Except.bind]
  by_cases zero : rule.priority = 0
  · have table := isLocal_table zero (regular.zero zero)
    obtain ⟨json, gotTable, isTable⟩ := bind_eq_ok.mp table
    simp [ruleInTheWay, got, read, value.trans zero, gotTable, isTable, bind, Except.bind]
  · have above := below _ regular.listed zero
    have notBetween : ¬ (0 < rule.priority ∧ rule.priority ≤ a.priority) := by omega
    simp [ruleInTheWay, got, read, value, notBetween, zero, bind, Except.bind]

/-- The loop over the rules passes the owned ones and the regular ones. -/
theorem foreignRules_within {own : List String}
    (below : ∀ p ∈ inventory.priorities, p ≠ 0 → a.priority < p) : ∀ {rules : List IpRule},
    (∀ rule ∈ rules, canonical rule.json ∈ own ∨ Regular int0 named inventory rule) →
      ∃ c, foreignRules int0 named canonical own a (rules.map IpRule.json) = .ok (some c) ∧
        c.Within inventory
  | [], _ => ⟨.empty, rfl, Inventory.empty_within _⟩
  | rule :: rest, each => by
    obtain ⟨c, more, within⟩ := foreignRules_within below
      fun r mem => each r (List.mem_cons_of_mem _ mem)
    rw [List.map_cons, foreignRules]
    split_ifs with owned
    · exact ⟨c, more, within⟩
    · have regular := (each rule (by simp)).resolve_left owned
      obtain ⟨mask, isMask, fits⟩ := regular.mask
      refine ⟨mask.join c, ?_, Inventory.join_within.mpr ⟨fits, within⟩⟩
      simp [ruleInTheWay_regular below regular, isMask, more, bind, Except.bind]

/-! ### WireGuard marks -/

theorem wgMark_skip (mine : String → Bool) {words : List String} {c : Inventory}
    (read : wgMark int0 (fun _ => false) words = .ok c) :
    ∃ d, wgMark int0 mine words = .ok d ∧ d.Within c := by
  unfold wgMark at read ⊢
  split at read
  · rename_i name mark
    cases own : mine name with
    | true => exact ⟨.empty, by simp, Inventory.empty_within c⟩
    | false =>
      refine ⟨c, ?_, .refl c⟩
      simpa [own] using read
  · cases read

/-! ### The check -/

/-- Over the inspected listings with the owned resources added there is no conflict. -/
theorem allocationConflict_acquired {before after : Listings} {requireUnderlay : Bool} {underlay : String}
    {mtu : Nat} {own : List String}
    (inspected : inspectNetwork int0 int10 named before requireUnderlay = .ok (inventory, underlay, mtu))
    (allocated : allocate inventory = .ok a) (acquired : Acquired canonical own a before after) :
    allocationConflict int0 int10 named canonical own a after = .ok false := by
  obtain ⟨valid, freeBits, -, freeZone, below⟩ := allocate_spec allocated
  obtain ⟨l, m, rulesBefore, rulesAfter, addedRules⟩ := acquired.rules
  obtain ⟨ruleset, entries', nftBefore, nftAfter, addedNft⟩ := acquired.nft
  obtain ⟨lines, lines', wgBefore, wgAfter, addedWg⟩ := acquired.wg
  obtain ⟨rules, rules6, entries, nft, isRules, isRules6, isNft, isEntries, ruled, seen⟩ :=
    inspectNetwork_ok inspected
  rw [rulesBefore] at isRules
  cases isRules
  rw [nftBefore] at isNft
  cases isNft
  cases isEntries
  obtain ⟨single, regular⟩ := regular_of_inspected ruled seen
  -- an owned rule stands at the priority of the allocation, which is not zero
  have positive : a.priority ≠ 0 := by
    simp only [Allocation.valid, decide_eq_true_eq] at valid
    omega
  have eachRule : ∀ rule ∈ m, canonical rule.json ∈ own ∨ Regular int0 named inventory rule := by
    intro rule mem
    obtain old | owned := addedRules.mem rule mem
    · exact .inr (regular rule old)
    · exact .inl owned.2
  have locals : countOf (isLocal int0 named) (m.map IpRule.json) = .ok 1 := by
    have isCount : countOf (isLocal int0 named) (m.map IpRule.json) =
        .ok (m.countP fun rule => rule.priority == 0) := by
      apply countOf_map
      intro rule mem
      by_cases zero : rule.priority = 0
      · obtain old | owned := addedRules.mem rule mem
        · simp [(regular rule old).zero zero, zero]
        · exact absurd (owned.1.symm.trans zero) positive
      · simp [isLocal_nonzero zero, zero]
    have same : (m.countP fun rule => rule.priority == 0) = l.countP fun rule => rule.priority == 0 := by
      rw [List.countP_eq_length_filter, List.countP_eq_length_filter,
        addedRules.filter_eq fun rule owned => by simp [owned.1, positive]]
    rw [isCount, same, single]
  obtain ⟨ofRules, readRules, inRules⟩ : ∃ c, foreignRules int0 named canonical own a
      (m.map IpRule.json) = .ok (some c) ∧ c.Within inventory :=
    foreignRules_within below eachRule
  obtain ⟨ofNft, readNft, inNft⟩ := seen.nft
  obtain ⟨dumps, hidden, isDumps, isHidden, visible⟩ := seen.visible
  obtain ⟨dumps', ofDumps, isDumps', readDumps, inDumps⟩ := seen.dumps
  rw [isDumps] at isDumps'
  cases isDumps'
  have foreign := foreignNft_added addedNft ruled.fresh readNft isHidden
  obtain ⟨ofRules6, readRules6, inRules6⟩ : ∃ c, gather (ruleMask int0) rules6 = .ok c ∧
      c.Within inventory :=
    gather_within fun rule mem => seen.masks rule (List.mem_append_right _ mem)
  obtain ⟨ofWg, readWg, inWg⟩ : ∃ c, gather (wgMark int0 (· == interface)) lines' = .ok c ∧
      c.Within inventory := by
    obtain ⟨lines₀, isLines, each⟩ := seen.wg
    rw [wgBefore] at isLines
    cases isLines
    apply gather_within
    intro words mem
    obtain old | ⟨mark, rfl⟩ := addedWg.mem words mem
    · obtain ⟨c, read, within⟩ := each words old
      obtain ⟨d, skipped, part⟩ := wgMark_skip (· == interface) read
      exact ⟨d, skipped, part.trans within⟩
    · exact ⟨.empty, by simp [wgMark], Inventory.empty_within _⟩
  have found : (ofNft.join (ofRules.join (ofRules6.join (ofWg.join ofDumps)))).Within inventory := by
    simp only [Inventory.join_within, inNft, inRules, inRules6, inWg, inDumps, and_self]
  have noBits : (ofNft.join (ofRules.join (ofRules6.join (ofWg.join ofDumps)))).usedMask &&& a.mask = 0 :=
    found.usedMask.and_eq_zero freeBits
  have noZone : a.zone ∉ (ofNft.join (ofRules.join (ofRules6.join (ofWg.join ofDumps)))).zones :=
    fun mem => freeZone (found.zones mem)
  simp only [allocationConflict, rulesAfter, acquired.rules6, isRules6, nftAfter, asList, foreign, readRules,
    locals, readRules6, wgAfter, readWg, acquired.dumps, isDumps, visible, readDumps, bind, Except.bind,
    noBits, noZone]
  rfl

end Walks

/-- **Allocation is complete and stands.** `allocate` raises exactly if fewer than two bits
are free, priority 1 is taken, or the tables or zones have run out, and else returns a
valid allocation of unused resources; and over the listings it was made from, with its
owned resources added, the later check finds no conflict. -/
theorem allocation_stands (int0 int10 : String → Option Int) (named : String → Option Nat)
    (canonical : Json → String) :
    (∀ inventory : Inventory,
      ((∃ e, allocate inventory = .error e) ↔
        bitCount (~~~inventory.usedMask) < 2 ∨ 1 ∈ inventory.priorities ∨
        (∀ t, 57000 ≤ t → t ≤ 57999 → t ∈ inventory.tables) ∨
        (∀ z, 1 ≤ z → z ≤ 65535 → z ∈ inventory.zones)) ∧
      ∀ a, allocate inventory = .ok a →
        a.valid = true ∧ inventory.usedMask &&& a.mask = 0 ∧ a.routingTable ∉ inventory.tables ∧
        a.zone ∉ inventory.zones ∧ ∀ p ∈ inventory.priorities, p ≠ 0 → a.priority < p) ∧
    ∀ (before after : Listings) (requireUnderlay : Bool) (inventory : Inventory) (underlay : String)
      (mtu : Nat) (own : List String) (a : Allocation),
      inspectNetwork int0 int10 named before requireUnderlay = .ok (inventory, underlay, mtu) →
      allocate inventory = .ok a → Acquired canonical own a before after →
        allocationConflict int0 int10 named canonical own a after = .ok false :=
  ⟨fun inventory => ⟨allocate_error_iff inventory, fun _ done => allocate_spec done⟩,
    fun _ _ _ _ _ _ _ _ inspected allocated acquired =>
      allocationConflict_acquired inspected allocated acquired⟩

/-! ## Poles -/

/-- A host with the three standard rules, a foreign table and a foreign tunnel. -/
def sampleRules : List IpRule :=
  [⟨0, [("table", .str "local")]⟩, ⟨32766, [("table", .str "main")]⟩, ⟨32767, [("table", .str "default")]⟩]

def sampleRuleset : Ruleset where
  entries := [[("table", .dict [("family", .str "inet"), ("name", .str "filter")])]]
  keys := by simp
  tabled := by
    intro entry mem kind item inside _ table
    simp only [List.mem_singleton] at mem
    subst mem
    simp only [List.mem_singleton, Prod.mk.injEq, Json.Document.dict.injEq] at inside
    obtain ⟨-, rfl⟩ := inside
    simp [Fields.get, List.lookup_cons, isText] at table

def sampleBefore : Listings where
  links := .ok (.list [])
  rules := .ok (.list (sampleRules.map IpRule.json))
  rules6 := .ok (.list [])
  routes := .ok (.list [])
  nft := .ok (rulesetJson sampleRuleset.entries)
  wg := .ok [["wg1", "1"]]
  dumps := .ok []
  conntrack := .ok [0]
  underlay := .ok ("eth0", 1500)

def sampleOwnRule : IpRule := ⟨1, [("table", .int 57000), ("fwmark", .str "0x1000000")]⟩

/-- The same host with the rule, the nft table and the interface of the allocation. -/
def sampleAfter : Listings :=
  { sampleBefore with
    rules := .ok (.list ((sampleRules.take 1 ++ sampleOwnRule :: sampleRules.drop 1).map IpRule.json))
    nft := .ok (rulesetJson (sampleRuleset.entries ++
      [[("table", .dict [("family", .str "inet"), ("name", .str nftTable)])]]))
    wg := .ok [["wg1", "1"], [interface, "0x2000000"]] }

/-- `_canonical` of a rule, whose fields are texts and numbers. -/
def ruleText : Json → String
  | .dict entries =>
    let fields := entries.map fun (key, value) => (Json.ofString key, match value with
      | .str text => .str (Json.ofString text)
      | .int n => .int n
      | _ => .null)
    String.ofList (((Json.pairs fields).map (Json.dumps .alike)).getD [])
  | _ => ""

def ownRuleText : String := "\x7b\"fwmark\":\"0x1000000\",\"priority\":1,\"table\":57000\x7d"

def sampleInventory : Inventory := ⟨1, [255, 254, 253], [0, 32766, 32767], [0]⟩

def sampleAllocation : Allocation := ⟨0x3000000, 0x1000000, 0x2000000, 57000, 1, 1⟩

/-- The one numeral of the listings that is read. -/
def sampleInt (text : String) : Option Int := if text = "1" then some 1 else none

theorem allocation_stands_sample :
    inspectNetwork sampleInt sampleInt (fun _ => none) sampleBefore true =
        .ok (sampleInventory, "eth0", 1500) ∧
      allocate sampleInventory = .ok sampleAllocation ∧
      allocationConflict sampleInt sampleInt (fun _ => none) ruleText [ownRuleText]
        sampleAllocation sampleAfter = .ok false := by
  have inspected : inspectNetwork sampleInt sampleInt (fun _ => none) sampleBefore true =
      .ok (sampleInventory, "eth0", 1500) := by rfl
  have allocated : allocate sampleInventory = .ok sampleAllocation := by decide +kernel
  refine ⟨inspected, allocated, (allocation_stands _ _ _ _).2 _ _ _ _ _ _ _ _ inspected allocated ?_⟩
  constructor
  · refine ⟨sampleRules, _, rfl, rfl, .keep _ (.add _ ⟨rfl, by decide +kernel⟩ (.keep _ (.keep _ .nil)))⟩
  · rfl
  · exact ⟨sampleRuleset, _, rfl, rfl, .keep _ (.add _ (by decide +kernel) .nil)⟩
  · exact ⟨_, _, rfl, rfl, .keep _ (.add _ ⟨_, rfl⟩ .nil)⟩
  · rfl

end ProgramSplit.Linux
