/-
# Lib.Nft — rulesets of nftables: their texts and what they do to a packet

The part of the language that filters and translates by headers, marks, interfaces and connection tracking.  A
conntrack expression reads the connection that is attached to the packet and does not match without one; only
`ct state` has an answer for every packet.

* `Expr`, `Statement`, `Rule`, `Chain`, `Table` — the syntax, each with its `text`.
* `Expr.holds`, `Table.run` — the meaning: the chains of a hook in the order of their priorities.
* `runRules_skip`, `runRules_take` — a rule that does not match is passed, one that does decides.
* `runRules_of_none`, `runRules_drops` — no rule matches; one of the first rules drops.
-/
import Mathlib.Algebra.Group.Nat.Defs
import Mathlib.Data.List.Sort

namespace ProgramSplit.Lib.Nft

set_option autoImplicit false

abbrev Text := List Char

def chars (literal : String) : Text :=
  literal.toList

/-! ## Packets -/

inductive Direction
  | original
  | reply
  deriving DecidableEq

inductive Progress
  | new
  | established
  | related
  deriving DecidableEq

/-- A connection as the packet sees it. -/
structure Connection where
  direction : Direction
  progress : Progress
  /-- The destination port of the original direction, before any translation. -/
  originalDport : UInt16
  sourceTranslated : Bool
  /-- The translation of this hook has not been decided yet. -/
  fresh : Bool
  /-- The kernel finds a free mapping. -/
  mappable : Bool

/-- What connection tracking has attached to a packet. -/
inductive Tracking
  | invalid
  | untracked
  | tracked (connection : Connection)

inductive Header
  | ipv4 (saddr daddr : UInt32)
  | ipv6 (saddr daddr : BitVec 128)

structure Packet where
  header : Header
  mark : UInt32
  l4proto : UInt8
  /-- The ports of the transport header, if the packet has one. -/
  ports : Option (UInt16 × UInt16)
  /-- Empty where the packet has no such interface. -/
  iifname : Text
  oifname : Text
  /-- The routing type of the destination is `local`. -/
  localDestination : Bool
  tracking : Tracking
  zone : UInt16

/-! ## Syntax -/

inductive Family
  | ipv4
  | ipv6
  deriving DecidableEq

inductive Protocol
  | tcp
  | udp
  deriving DecidableEq

def Protocol.number : Protocol → UInt8
  | .tcp => 6
  | .udp => 17

inductive CtState
  | invalid
  | established
  | related
  | new
  | untracked
  deriving DecidableEq

inductive Expr
  | nfproto (family : Family)
  | mark (mask value : UInt32)
  | l4proto (protocols : List Protocol)
  | thDport (port : UInt16)
  | dport (protocol : Protocol) (port : UInt16)
  | sport (protocol : Protocol) (port : UInt16)
  | ctDirection (direction : Direction)
  | ctState (state : CtState)
  | ctStatusSnat
  | ctOriginalDport (port : UInt16)
  | daddrNot (address : UInt32)
  | daddrIn (network : UInt32) (length : Nat)
  | saddr (address : UInt32)
  | iifname (name : Text)
  | oifname (name : Text)
  | fibLocal
  | fibNotLocal

inductive Statement
  | counter
  | accept
  | drop
  | zone (zone : UInt16)
  | dnat (address : UInt32) (port : UInt16)
  | snat (address : UInt32)

structure Rule where
  exprs : List Expr
  statements : List Statement

inductive Kind
  | filter
  | nat
  deriving DecidableEq

inductive Hook
  | prerouting
  | input
  | output
  | postrouting
  deriving DecidableEq

inductive Priority
  | raw
  | dstnat
  | filter
  | srcnat
  deriving DecidableEq

def Priority.value : Priority → Int
  | .raw => -300
  | .dstnat => -100
  | .filter => 0
  | .srcnat => 100

inductive Verdict
  | accept
  | drop
  deriving DecidableEq

/-- A base chain. -/
structure Chain where
  name : Text
  kind : Kind
  hook : Hook
  priority : Priority
  policy : Verdict
  rules : List Rule

/-- A table of the family `inet`. -/
structure Table where
  name : Text
  chains : List Chain

/-! ## Texts -/

def decimal (n : Nat) : Text :=
  Nat.toDigits 10 n

def hexadecimal (n : Nat) : Text :=
  '0' :: 'x' :: Nat.toDigits 16 n

def addressText (address : UInt32) : Text :=
  decimal (address.toNat / 2 ^ 24) ++ '.' :: (decimal (address.toNat / 2 ^ 16 % 256) ++
    '.' :: (decimal (address.toNat / 2 ^ 8 % 256) ++ '.' :: decimal (address.toNat % 256)))

def quoted (name : Text) : Text :=
  '"' :: (name ++ ['"'])

def Family.text : Family → Text
  | .ipv4 => chars "ipv4"
  | .ipv6 => chars "ipv6"

def Protocol.text : Protocol → Text
  | .tcp => chars "tcp"
  | .udp => chars "udp"

def Direction.text : Direction → Text
  | .original => chars "original"
  | .reply => chars "reply"

def CtState.text : CtState → Text
  | .invalid => chars "invalid"
  | .established => chars "established"
  | .related => chars "related"
  | .new => chars "new"
  | .untracked => chars "untracked"

def Expr.text : Expr → Text
  | .nfproto family => chars "meta nfproto " ++ family.text
  | .mark mask value => chars "meta mark & " ++ hexadecimal mask.toNat ++ chars " == " ++
      hexadecimal value.toNat
  | .l4proto protocols => chars "meta l4proto \x7b " ++
      (chars ", ").intercalate (protocols.map Protocol.text) ++ chars " \x7d"
  | .thDport port => chars "th dport " ++ decimal port.toNat
  | .dport protocol port => protocol.text ++ chars " dport " ++ decimal port.toNat
  | .sport protocol port => protocol.text ++ chars " sport " ++ decimal port.toNat
  | .ctDirection direction => chars "ct direction " ++ direction.text
  | .ctState state => chars "ct state " ++ state.text
  | .ctStatusSnat => chars "ct status snat"
  | .ctOriginalDport port => chars "ct original proto-dst " ++ decimal port.toNat
  | .daddrNot address => chars "ip daddr != " ++ addressText address
  | .daddrIn network length => chars "ip daddr " ++ addressText network ++ '/' :: decimal length
  | .saddr address => chars "ip saddr " ++ addressText address
  | .iifname name => chars "iifname " ++ quoted name
  | .oifname name => chars "oifname " ++ quoted name
  | .fibLocal => chars "fib daddr type local"
  | .fibNotLocal => chars "fib daddr type != local"

def Statement.text : Statement → Text
  | .counter => chars "counter"
  | .accept => chars "accept"
  | .drop => chars "drop"
  | .zone number => chars "ct zone set " ++ decimal number.toNat
  | .dnat address port => chars "dnat ip to " ++ addressText address ++ ':' :: decimal port.toNat
  | .snat address => chars "snat ip to " ++ addressText address

def Rule.text (rule : Rule) : Text :=
  chars "  " ++ [' '].intercalate (rule.exprs.map Expr.text ++ rule.statements.map Statement.text) ++ ['\n']

def Kind.text : Kind → Text
  | .filter => chars "filter"
  | .nat => chars "nat"

def Hook.text : Hook → Text
  | .prerouting => chars "prerouting"
  | .input => chars "input"
  | .output => chars "output"
  | .postrouting => chars "postrouting"

def Priority.text : Priority → Text
  | .raw => chars "raw"
  | .dstnat => chars "dstnat"
  | .filter => chars "filter"
  | .srcnat => chars "srcnat"

def Verdict.text : Verdict → Text
  | .accept => chars "accept"
  | .drop => chars "drop"

/-- The line that opens a chain. -/
def chainHead (name : Text) (kind : Kind) (hook : Hook) (priority : Priority) (policy : Verdict) : Text :=
  chars " chain " ++ name ++ chars " \x7b type " ++ kind.text ++ chars " hook " ++ hook.text ++
    chars " priority " ++
    priority.text ++ chars "; policy " ++ policy.text ++ chars ";\n"

def Chain.text (chain : Chain) : Text :=
  chainHead chain.name chain.kind chain.hook chain.priority chain.policy ++
    chain.rules.flatMap Rule.text ++ chars " \x7d\n"

def Table.text (table : Table) : Text :=
  chars "table inet " ++ table.name ++ chars " \x7b\n" ++ table.chains.flatMap Chain.text ++ chars "\x7d\n"

/-! ## Meaning -/

def Tracking.state : Tracking → CtState
  | .invalid => .invalid
  | .untracked => .untracked
  | .tracked connection =>
    match connection.progress with
    | .new => .new
    | .established => .established
    | .related => .related

def Tracking.connection : Tracking → Option Connection
  | .tracked connection => some connection
  | _ => none

def Header.family : Header → Family
  | .ipv4 .. => .ipv4
  | .ipv6 .. => .ipv6

/-- The addresses of an IPv4 header. -/
def Header.addresses : Header → Option (UInt32 × UInt32)
  | .ipv4 saddr daddr => some (saddr, daddr)
  | .ipv6 .. => none

/-- A field that is absent matches nothing. -/
def present {A : Type} (field : Option A) (test : A → Bool) : Bool :=
  match field with
  | some value => test value
  | none => false

def Expr.holds (packet : Packet) : Expr → Bool
  | .nfproto family => packet.header.family == family
  | .mark mask value => packet.mark &&& mask == value
  | .l4proto protocols => protocols.any (·.number == packet.l4proto)
  | .thDport port => present packet.ports (·.2 == port)
  | .dport protocol port => protocol.number == packet.l4proto && present packet.ports (·.2 == port)
  | .sport protocol port => protocol.number == packet.l4proto && present packet.ports (·.1 == port)
  | .ctDirection direction => present packet.tracking.connection (·.direction == direction)
  | .ctState state => packet.tracking.state == state
  | .ctStatusSnat => present packet.tracking.connection (·.sourceTranslated)
  | .ctOriginalDport port => present packet.tracking.connection (·.originalDport == port)
  | .daddrNot address => present packet.header.addresses (·.2 != address)
  | .daddrIn network length => present packet.header.addresses
      (fun addresses => addresses.2.toNat / 2 ^ (32 - length) == network.toNat / 2 ^ (32 - length))
  | .saddr address => present packet.header.addresses (·.1 == address)
  | .iifname name => packet.iifname == name
  | .oifname name => packet.oifname == name
  | .fibLocal => packet.localDestination
  | .fibNotLocal => !packet.localDestination

def Rule.matches (rule : Rule) (packet : Packet) : Bool :=
  rule.exprs.all (·.holds packet)

/-- The connection's mapping is set, or the packet is dropped for want of a free one. -/
def mapped (packet : Packet) : Verdict :=
  if present packet.tracking.connection (·.mappable) then .accept else .drop

def Header.to (header : Header) (address : UInt32) : Header :=
  match header with
  | .ipv4 saddr _ => .ipv4 saddr address
  | .ipv6 .. => header

def Header.from (header : Header) (address : UInt32) : Header :=
  match header with
  | .ipv4 _ daddr => .ipv4 address daddr
  | .ipv6 .. => header

/-- A statement changes the packet, and may decide it. -/
def Statement.run (packet : Packet) : Statement → Packet × Option Verdict
  | .counter => (packet, none)
  | .accept => (packet, some .accept)
  | .drop => (packet, some .drop)
  | .zone number => ({ packet with zone := number }, none)
  | .dnat address port =>
    ({ packet with header := packet.header.to address, ports := packet.ports.map fun ports =>
      (ports.1, port) }, some (mapped packet))
  | .snat address => ({ packet with header := packet.header.from address }, some (mapped packet))

def runStatements : List Statement → Packet → Packet × Option Verdict
  | [], packet => (packet, none)
  | statement :: statements, packet =>
    match statement.run packet with
    | (packet, some verdict) => (packet, some verdict)
    | (packet, none) => runStatements statements packet

/-- The rules in their order, until one decides. -/
def runRules : List Rule → Packet → Packet × Option Verdict
  | [], packet => (packet, none)
  | rule :: rules, packet =>
    if rule.matches packet then
      match runStatements rule.statements packet with
      | (packet, some verdict) => (packet, some verdict)
      | (packet, none) => runRules rules packet
    else runRules rules packet

/-- A chain that translates is consulted for a connection that has no mapping yet. -/
def Chain.consulted (chain : Chain) (packet : Packet) : Bool :=
  match chain.kind with
  | .filter => true
  | .nat => present packet.tracking.connection (·.fresh)

def Chain.run (chain : Chain) (packet : Packet) : Packet × Verdict :=
  if chain.consulted packet then
    match runRules chain.rules packet with
    | (packet, some verdict) => (packet, verdict)
    | (packet, none) => (packet, chain.policy)
  else (packet, .accept)

/-- One chain after the other; a drop is final. -/
def runChains : List Chain → Packet → Packet × Verdict
  | [], packet => (packet, .accept)
  | chain :: chains, packet =>
    match chain.run packet with
    | (packet, .drop) => (packet, .drop)
    | (packet, .accept) => runChains chains packet

/-- The chains of the hook, in the order of their priorities. -/
def Table.hooked (table : Table) (hook : Hook) : List Chain :=
  (table.chains.filter (·.hook == hook)).insertionSort fun first second => first.priority.value ≤
    second.priority.value

def Table.run (table : Table) (hook : Hook) (packet : Packet) : Packet × Verdict :=
  runChains (table.hooked hook) packet

/-! ## Rules that only decide -/

/-- The rule, when it matches, leaves the packet as it is and decides it. -/
def Rule.Decides (rule : Rule) (verdict : Verdict) : Prop :=
  runStatements rule.statements = fun packet => (packet, some verdict)

theorem Rule.matches_of_not_holds {rule : Rule} {packet : Packet} {expr : Expr} (member : expr ∈ rule.exprs)
    (fails : expr.holds packet = false) : rule.matches packet = false := by
  rw [Rule.matches, List.all_eq_false]
  exact ⟨expr, member, by simp [fails]⟩

section Rules

variable {rule : Rule} {rules : List Rule} {packet : Packet}

/-- A rule that does not match is passed. -/
theorem runRules_skip (passed : rule.matches packet = false) :
    runRules (rule :: rules) packet = runRules rules packet := by
  rw [runRules, passed]
  rfl

/-- A rule that matches and decides is the last one. -/
theorem runRules_take {verdict : Verdict} (taken : rule.matches packet = true)
    (decides : rule.Decides verdict) :
    runRules (rule :: rules) packet = (packet, some verdict) := by
  rw [runRules, taken, decides]
  rfl

/-- The packet reaches the policy when no rule matches. -/
theorem runRules_of_none (passed : ∀ rule ∈ rules, rule.matches packet = false) :
    runRules rules packet = (packet, none) := by
  induction rules with
  | nil => rfl
  | cons rule rules ih =>
    rw [runRules_skip (passed rule List.mem_cons_self)]
    exact ih fun rule member => passed rule (List.mem_cons_of_mem _ member)

/-- Among first rules that all drop, one that matches is enough. -/
theorem runRules_drops {first : List Rule} (drops : ∀ rule ∈ first, rule.Decides .drop) :
    runRules (first ++ rules) packet =
      if first.any (·.matches packet) then (packet, some .drop) else runRules rules packet := by
  induction first with
  | nil => rfl
  | cons rule first ih =>
    have later := ih fun rule member => drops rule (List.mem_cons_of_mem _ member)
    cases found : rule.matches packet with
    | true => simp [runRules_take found (drops rule List.mem_cons_self), found]
    | false => simp [runRules_skip found, later, found]

end Rules

end ProgramSplit.Lib.Nft
