/-
# Linux.Firewall — the rules that keep selected traffic in the tunnel

`Firewall` of `firewall.py`: its checks, the text that `render` writes, and the ruleset that the
text spells.  The split is enforced by the chains at postrouting, after every destination
translation: `egress` first, then `vpn_source`.

* `render_eq` — the text is the text of `ruleset`.
* `egress_run` — what `egress` does to a packet, as one decision.
* `egress_enforces` — **unselected packets pass, selected ones leave through the tunnel or stay on
  the host, and selected DNS goes to the tunnel's resolver.**
* `invalid_passes` — a packet without a connection that is not untracked is not checked for DNS.
-/
import ProgramSplit.Lib.Nft

namespace ProgramSplit.Linux.Egress

set_option autoImplicit false

open Lib.Nft

/-! ## The checks -/

structure Fields where
  address : Text
  resolver : Text
  interface : Text := chars "wgps0"
  table : Text := chars "wg_program_split"
  mask : Int := 0x00ff0000
  mark : Int := 0x00010000
  zone : Int := 57001
  deriving DecidableEq

def isLetter (c : Char) : Bool :=
  ('a' ≤ c && c ≤ 'z') || ('A' ≤ c && c ≤ 'Z')

/-- `re.fullmatch(r'[a-zA-Z][a-zA-Z0-9_]*', name)` -/
def isName : Text → Bool
  | [] => false
  | first :: others => isLetter first && others.all fun c => isLetter c || ('0' ≤ c && c ≤ '9') || c == '_'

/-- An octet of a dotted address: decimal, at most 255, without leading zeros. -/
def octet (part : Text) : Option Nat :=
  let value := Nat.ofDigitChars 10 part 0
  if value ≤ 255 ∧ decimal value = part then some value else none

/-- `IPv4Address(value)` of a string. -/
def ipv4Address (text : Text) : Option UInt32 :=
  match text.splitOn '.' with
  | [a, b, c, d] =>
    match octet a, octet b, octet c, octet d with
    | some a, some b, some c, some d => some (UInt32.ofNat (a * 2 ^ 24 + b * 2 ^ 16 + c * 2 ^ 8 + d))
    | _, _, _, _ => none
  | _ => none

def isUnspecified (address : UInt32) : Bool :=
  address == 0

def isLoopback (address : UInt32) : Bool :=
  address.toNat / 2 ^ 24 == 127

def isMulticast (address : UInt32) : Bool :=
  address.toNat / 2 ^ 28 == 14

def checkName (name : Text) (limit : Nat) : Except String Unit :=
  if ¬ isName name ∨ limit < name.length then .error "invalid owned interface/table name" else .ok ()

def checkAddress (value : Text) : Except String Unit :=
  match ipv4Address value with
  | none => .error "AddressValueError"
  | some address =>
    if isUnspecified address ∨ isLoopback address ∨ isMulticast address ∨ address = 0xffffffff then
      .error "address must be unicast non-loopback IPv4"
    else .ok ()

def checkMark (mask mark : Int) : Except String Unit :=
  if ¬ ((0 < mask ∧ mask ≤ 0xffffffff) ∧ (0 < mark ∧ mark ≤ 0xffffffff)) ∨
      UInt32.ofNat mark.toNat &&& ~~~ UInt32.ofNat mask.toNat ≠ 0 then
    .error "nonzero mark must fit owned mask"
  else .ok ()

def checkZone (zone : Int) : Except String Unit :=
  if ¬ (0 < zone ∧ zone ≤ 65535) then .error "conntrack zone must be a nonzero u16" else .ok ()

/-- `__post_init__` -/
def Fields.postInit (fields : Fields) : Except String Unit := do
  checkName fields.interface 15
  checkName fields.table 32
  checkAddress fields.address
  checkAddress fields.resolver
  checkMark fields.mask fields.mark
  checkZone fields.zone

/-- A firewall that was constructed. -/
structure Firewall extends Fields where
  valid : toFields.postInit = .ok ()

/-! ## The text -/

section Script

variable (fw : Firewall)

def Firewall.selected : Text :=
  chars "meta mark & " ++ hexadecimal fw.mask.toNat ++ chars " == " ++ hexadecimal fw.mark.toNat

def Firewall.zoneText : Text :=
  decimal fw.zone.toNat

/-- A line of the text: its parts, with a space between them. -/
def line (parts : List Text) : Text :=
  chars "  " ++ [' '].intercalate parts ++ ['\n']

def Firewall.zoneOutputText : Text :=
  chars " chain vpn_zone_output \x7b type filter hook output priority raw; policy accept;\n" ++ List.flatten [
    line [chars "meta nfproto ipv4", fw.selected, chars "fib daddr type != local",
      chars "ct zone set " ++ fw.zoneText],
    line [chars "meta nfproto ipv4", fw.selected, chars "udp dport 53", chars "ct zone set " ++ fw.zoneText],
    line [chars "meta nfproto ipv4", fw.selected, chars "tcp dport 53", chars "ct zone set " ++
      fw.zoneText]] ++
  chars " \x7d\n"

def Firewall.zoneInputText : Text :=
  chars " chain vpn_zone_input \x7b type filter hook prerouting priority raw; policy accept;\n" ++
    List.flatten [
    line [chars "iifname \"" ++ fw.interface ++ ['"'], chars "ct zone set " ++ fw.zoneText]] ++
  chars " \x7d\n"

def Firewall.dnsOutputText : Text :=
  chars " chain dns_output \x7b type nat hook output priority dstnat; policy accept;\n" ++ List.flatten [
    line [chars "meta nfproto ipv4", fw.selected, chars "udp dport 53", chars "counter",
      chars "dnat ip to " ++ fw.resolver ++ chars ":53"],
    line [chars "meta nfproto ipv4", fw.selected, chars "tcp dport 53", chars "counter",
      chars "dnat ip to " ++ fw.resolver ++ chars ":53"]] ++
  chars " \x7d\n"

def Firewall.sourceText : Text :=
  chars " chain vpn_source \x7b type nat hook postrouting priority srcnat; policy accept;\n" ++ List.flatten [
    line [chars "meta nfproto ipv4", fw.selected, chars "oifname \"" ++ fw.interface ++ ['"'],
      chars "counter", chars "snat ip to " ++ fw.address]] ++
  chars " \x7d\n"

def Firewall.egressText : Text :=
  chars " chain egress \x7b type filter hook postrouting priority filter; policy accept;\n" ++ List.flatten [
    line [chars "meta nfproto ipv6", fw.selected, chars "counter", chars "drop"],
    line [chars "meta nfproto ipv4", fw.selected, chars "meta l4proto \x7b tcp, udp \x7d",
      chars "th dport 53",
      chars "ct direction original", chars "ip daddr != " ++ fw.resolver, chars "counter", chars "drop"],
    line [chars "meta nfproto ipv4", fw.selected, chars "meta l4proto \x7b tcp, udp \x7d",
      chars "th dport 53",
      chars "ct state untracked", chars "ip daddr != " ++ fw.resolver, chars "counter", chars "drop"],
    line [chars "meta nfproto ipv4", fw.selected, chars "meta l4proto \x7b tcp, udp \x7d",
      chars "ct direction original",
      chars "ct original proto-dst 53", chars "ip daddr != " ++ fw.resolver, chars "counter", chars "drop"],
    line [fw.selected, chars "oifname \"" ++ fw.interface ++ ['"'], chars "accept"],
    line [fw.selected, chars "oifname \"lo\"", chars "fib daddr type local", chars "accept"],
    line [fw.selected, chars "counter", chars "drop"]] ++
  chars " \x7d\n"

def Firewall.loopbackInputText : Text :=
  chars " chain loopback_input \x7b type filter hook input priority filter; policy accept;\n" ++
    List.flatten [
    line [chars "iifname \"" ++ fw.interface ++ ['"'], chars "ip daddr 127.0.0.0/8",
      chars "ct state established",
      chars "ct status snat", chars "ip saddr " ++ fw.resolver, chars "udp sport 53", chars "accept"],
    line [chars "iifname \"" ++ fw.interface ++ ['"'], chars "ip daddr 127.0.0.0/8",
      chars "ct state established",
      chars "ct status snat", chars "ip saddr " ++ fw.resolver, chars "tcp sport 53", chars "accept"],
    line [chars "iifname \"" ++ fw.interface ++ ['"'], chars "ip daddr 127.0.0.0/8",
      chars "counter", chars "drop"]] ++
  chars " \x7d\n"

/-- The one text of the source, chain by chain. -/
def Firewall.render : Text :=
  chars "table inet " ++ fw.table ++ chars " \x7b\n" ++ fw.zoneOutputText ++ fw.zoneInputText ++
    fw.dnsOutputText ++
    fw.sourceText ++ fw.egressText ++ fw.loopbackInputText ++ chars "\x7d\n"

/-! ## The ruleset it spells -/

def Firewall.addressValue : UInt32 :=
  (ipv4Address fw.address).getD 0

def Firewall.resolverValue : UInt32 :=
  (ipv4Address fw.resolver).getD 0

def Firewall.maskValue : UInt32 :=
  UInt32.ofNat fw.mask.toNat

def Firewall.markValue : UInt32 :=
  UInt32.ofNat fw.mark.toNat

def Firewall.zoneValue : UInt16 :=
  UInt16.ofNat fw.zone.toNat

def Firewall.isSelected : Expr :=
  .mark fw.maskValue fw.markValue

def vpnZoneOutput : Chain where
  name := chars "vpn_zone_output"
  kind := .filter
  hook := .output
  priority := .raw
  policy := .accept
  rules := [
    ⟨[.nfproto .ipv4, fw.isSelected, .fibNotLocal], [.zone fw.zoneValue]⟩,
    ⟨[.nfproto .ipv4, fw.isSelected, .dport .udp 53], [.zone fw.zoneValue]⟩,
    ⟨[.nfproto .ipv4, fw.isSelected, .dport .tcp 53], [.zone fw.zoneValue]⟩]

def vpnZoneInput : Chain where
  name := chars "vpn_zone_input"
  kind := .filter
  hook := .prerouting
  priority := .raw
  policy := .accept
  rules := [⟨[.iifname fw.interface], [.zone fw.zoneValue]⟩]

def dnsOutput : Chain where
  name := chars "dns_output"
  kind := .nat
  hook := .output
  priority := .dstnat
  policy := .accept
  rules := [
    ⟨[.nfproto .ipv4, fw.isSelected, .dport .udp 53], [.counter, .dnat fw.resolverValue 53]⟩,
    ⟨[.nfproto .ipv4, fw.isSelected, .dport .tcp 53], [.counter, .dnat fw.resolverValue 53]⟩]

def vpnSource : Chain where
  name := chars "vpn_source"
  kind := .nat
  hook := .postrouting
  priority := .srcnat
  policy := .accept
  rules := [⟨[.nfproto .ipv4, fw.isSelected, .oifname fw.interface], [.counter, .snat fw.addressValue]⟩]

/-- The rules of `egress` that drop before anything is accepted. -/
def egressDrops : List Rule := [
  ⟨[.nfproto .ipv6, fw.isSelected], [.counter, .drop]⟩,
  ⟨[.nfproto .ipv4, fw.isSelected, .l4proto [.tcp, .udp], .thDport 53, .ctDirection .original,
    .daddrNot fw.resolverValue], [.counter, .drop]⟩,
  ⟨[.nfproto .ipv4, fw.isSelected, .l4proto [.tcp, .udp], .thDport 53, .ctState .untracked,
    .daddrNot fw.resolverValue], [.counter, .drop]⟩,
  ⟨[.nfproto .ipv4, fw.isSelected, .l4proto [.tcp, .udp], .ctDirection .original, .ctOriginalDport 53,
    .daddrNot fw.resolverValue], [.counter, .drop]⟩]

def egressRest : List Rule := [
  ⟨[fw.isSelected, .oifname fw.interface], [.accept]⟩,
  ⟨[fw.isSelected, .oifname (chars "lo"), .fibLocal], [.accept]⟩,
  ⟨[fw.isSelected], [.counter, .drop]⟩]

def egress : Chain where
  name := chars "egress"
  kind := .filter
  hook := .postrouting
  priority := .filter
  policy := .accept
  rules := egressDrops fw ++ egressRest fw

def loopbackInput : Chain where
  name := chars "loopback_input"
  kind := .filter
  hook := .input
  priority := .filter
  policy := .accept
  rules := [
    ⟨[.iifname fw.interface, .daddrIn 0x7f000000 8, .ctState .established, .ctStatusSnat,
      .saddr fw.resolverValue, .sport .udp 53], [.accept]⟩,
    ⟨[.iifname fw.interface, .daddrIn 0x7f000000 8, .ctState .established, .ctStatusSnat,
      .saddr fw.resolverValue, .sport .tcp 53], [.accept]⟩,
    ⟨[.iifname fw.interface, .daddrIn 0x7f000000 8], [.counter, .drop]⟩]

def Firewall.ruleset : Table where
  name := fw.table
  chains := [vpnZoneOutput fw, vpnZoneInput fw, dnsOutput fw, vpnSource fw, egress fw, loopbackInput fw]

end Script

/-! ## The text is the ruleset's -/

theorem octet_text {part : Text} {value : Nat} (read : octet part = some value) :
    value ≤ 255 ∧ decimal value = part := by
  unfold octet at read
  dsimp only at read
  split at read
  next good =>
    obtain rfl := Option.some.inj read
    exact good
  next => cases read

/-- An address that was read is printed as it was written. -/
theorem addressText_ipv4Address {text : Text} {address : UInt32} (read : ipv4Address text = some address) :
    addressText address = text := by
  unfold ipv4Address at read
  split at read
  next a b c d pieces =>
    split at read
    next a' b' c' d' first second third fourth =>
      obtain ⟨boundA, rfl⟩ := octet_text first
      obtain ⟨boundB, rfl⟩ := octet_text second
      obtain ⟨boundC, rfl⟩ := octet_text third
      obtain ⟨boundD, rfl⟩ := octet_text fourth
      obtain rfl := Option.some.inj read
      have value : (UInt32.ofNat (a' * 2 ^ 24 + b' * 2 ^ 16 + c' * 2 ^ 8 + d')).toNat =
          a' * 2 ^ 24 + b' * 2 ^ 16 + c' * 2 ^ 8 + d' := by
        rw [UInt32.toNat_ofNat', Nat.mod_eq_of_lt (by omega)]
      have whole : ['.'].intercalate (text.splitOn '.') = text := List.intercalate_splitOn '.'
      rw [pieces] at whole
      rw [← whole, addressText, value]
      have first : (a' * 2 ^ 24 + b' * 2 ^ 16 + c' * 2 ^ 8 + d') / 2 ^ 24 = a' := by omega
      have second : (a' * 2 ^ 24 + b' * 2 ^ 16 + c' * 2 ^ 8 + d') / 2 ^ 16 % 256 = b' := by omega
      have third : (a' * 2 ^ 24 + b' * 2 ^ 16 + c' * 2 ^ 8 + d') / 2 ^ 8 % 256 = c' := by omega
      have fourth : (a' * 2 ^ 24 + b' * 2 ^ 16 + c' * 2 ^ 8 + d') % 256 = d' := by omega
      rw [first, second, third, fourth]
      simp [List.intercalate]
    next => cases read
  next => cases read

/-- What the checks leave for the text. -/
structure Checked (fields : Fields) : Prop where
  address : ∃ value, ipv4Address fields.address = some value
  resolver : ∃ value, ipv4Address fields.resolver = some value
  mask : 0 < fields.mask ∧ fields.mask ≤ 0xffffffff
  mark : 0 < fields.mark ∧ fields.mark ≤ 0xffffffff
  zone : 0 < fields.zone ∧ fields.zone ≤ 65535

theorem bind_ok {first : Except String Unit} {second : Unit → Except String Unit}
    (done : (first >>= second) = .ok ()) : first = .ok () ∧ second () = .ok () := by
  cases first with
  | error _ => cases done
  | ok value => exact ⟨rfl, done⟩

theorem checkAddress_ok {value : Text} (done : checkAddress value = .ok ()) :
    ∃ address, ipv4Address value = some address := by
  unfold checkAddress at done
  cases read : ipv4Address value with
  | none =>
    rw [read] at done
    cases done
  | some address => exact ⟨address, rfl⟩

theorem checkMark_ok {mask mark : Int} (done : checkMark mask mark = .ok ()) :
    (0 < mask ∧ mask ≤ 0xffffffff) ∧ (0 < mark ∧ mark ≤ 0xffffffff) := by
  unfold checkMark at done
  split at done
  next => cases done
  next good => exact not_not.mp (not_or.mp good).1

theorem checkZone_ok {zone : Int} (done : checkZone zone = .ok ()) : 0 < zone ∧ zone ≤ 65535 := by
  unfold checkZone at done
  split at done
  next => cases done
  next good => exact not_not.mp good

theorem Firewall.checked (fw : Firewall) : Checked fw.toFields := by
  obtain ⟨-, rest⟩ := bind_ok fw.valid
  obtain ⟨-, rest⟩ := bind_ok rest
  obtain ⟨address, rest⟩ := bind_ok rest
  obtain ⟨resolver, rest⟩ := bind_ok rest
  obtain ⟨marks, zone⟩ := bind_ok rest
  exact ⟨checkAddress_ok address, checkAddress_ok resolver, (checkMark_ok marks).1,
    (checkMark_ok marks).2, checkZone_ok zone⟩

section Texts

variable (fw : Firewall)

theorem addressValue_text : addressText fw.addressValue = fw.address := by
  obtain ⟨value, read⟩ := fw.checked.address
  rw [Firewall.addressValue, read]
  exact addressText_ipv4Address read

theorem resolverValue_text : addressText fw.resolverValue = fw.resolver := by
  obtain ⟨value, read⟩ := fw.checked.resolver
  rw [Firewall.resolverValue, read]
  exact addressText_ipv4Address read

theorem isSelected_text : fw.isSelected.text = fw.selected := by
  obtain ⟨-, mask⟩ := fw.checked.mask
  obtain ⟨-, mark⟩ := fw.checked.mark
  have maskValue : fw.maskValue.toNat = fw.mask.toNat := by
    rw [Firewall.maskValue, UInt32.toNat_ofNat', Nat.mod_eq_of_lt (by omega)]
  have markValue : fw.markValue.toNat = fw.mark.toNat := by
    rw [Firewall.markValue, UInt32.toNat_ofNat', Nat.mod_eq_of_lt (by omega)]
  rw [Firewall.isSelected, Expr.text, maskValue, markValue]
  rfl

theorem zoneValue_text : decimal fw.zoneValue.toNat = fw.zoneText := by
  obtain ⟨-, zone⟩ := fw.checked.zone
  rw [Firewall.zoneValue, UInt16.toNat_ofNat', Nat.mod_eq_of_lt (by omega)]
  rfl

theorem rule_text (exprs : List Expr) (statements : List Statement) :
    (Rule.mk exprs statements).text = line (exprs.map Expr.text ++ statements.map Statement.text) :=
  rfl

/-- The parts of a line that are literal. -/
theorem literal_parts :
    (Expr.nfproto .ipv4).text = chars "meta nfproto ipv4" ∧
    (Expr.nfproto .ipv6).text = chars "meta nfproto ipv6" ∧
      (Expr.l4proto [.tcp, .udp]).text = chars "meta l4proto \x7b tcp, udp \x7d" ∧
      (Expr.thDport 53).text = chars "th dport 53" ∧ (Expr.dport .udp 53).text = chars "udp dport 53" ∧
      (Expr.dport .tcp 53).text = chars "tcp dport 53" ∧ (Expr.sport .udp 53).text = chars "udp sport 53" ∧
      (Expr.sport .tcp 53).text = chars "tcp sport 53" ∧
      (Expr.ctDirection .original).text = chars "ct direction original" ∧
      (Expr.ctState .untracked).text = chars "ct state untracked" ∧
      (Expr.ctState .established).text = chars "ct state established" ∧
      (Expr.ctOriginalDport 53).text = chars "ct original proto-dst 53" ∧
      (Expr.oifname (chars "lo")).text = chars "oifname \"lo\"" ∧
      (Expr.daddrIn 0x7f000000 8).text = chars "ip daddr 127.0.0.0/8" := by
  decide +kernel

/-- The lines that open the chains. -/
theorem chain_heads :
    chainHead (chars "vpn_zone_output") .filter .output .raw .accept =
        chars " chain vpn_zone_output \x7b type filter hook output priority raw; policy accept;\n" ∧
      chainHead (chars "vpn_zone_input") .filter .prerouting .raw .accept =
        chars " chain vpn_zone_input \x7b type filter hook prerouting priority raw; policy accept;\n" ∧
      chainHead (chars "dns_output") .nat .output .dstnat .accept =
        chars " chain dns_output \x7b type nat hook output priority dstnat; policy accept;\n" ∧
      chainHead (chars "vpn_source") .nat .postrouting .srcnat .accept =
        chars " chain vpn_source \x7b type nat hook postrouting priority srcnat; policy accept;\n" ∧
      chainHead (chars "egress") .filter .postrouting .filter .accept =
        chars " chain egress \x7b type filter hook postrouting priority filter; policy accept;\n" ∧
      chainHead (chars "loopback_input") .filter .input .filter .accept =
        chars " chain loopback_input \x7b type filter hook input priority filter; policy accept;\n" := by
  decide +kernel

/-- Each chain has its text. -/
theorem chain_texts : (vpnZoneOutput fw).text = fw.zoneOutputText ∧
    (vpnZoneInput fw).text = fw.zoneInputText ∧
    (dnsOutput fw).text = fw.dnsOutputText ∧ (vpnSource fw).text = fw.sourceText ∧
      (egress fw).text = fw.egressText ∧ (loopbackInput fw).text = fw.loopbackInputText := by
  obtain ⟨ipv4, ipv6, protocols, th, udp, tcp, fromUdp, fromTcp, original, untracked, established,
    originally, lo, loopback⟩ := literal_parts
  obtain ⟨head₁, head₂, head₃, head₄, head₅, head₆⟩ := chain_heads
  have out : (Expr.oifname fw.interface).text = chars "oifname \"" ++ fw.interface ++ ['"'] := rfl
  have into : (Expr.iifname fw.interface).text = chars "iifname \"" ++ fw.interface ++ ['"'] := rfl
  have daddr : (Expr.daddrNot fw.resolverValue).text = chars "ip daddr != " ++ fw.resolver := by
    rw [Expr.text, resolverValue_text]
  have saddr : (Expr.saddr fw.resolverValue).text = chars "ip saddr " ++ fw.resolver := by
    rw [Expr.text, resolverValue_text]
  have zone : (Statement.zone fw.zoneValue).text = chars "ct zone set " ++ fw.zoneText := by
    rw [Statement.text, zoneValue_text]
  have dnat : (Statement.dnat fw.resolverValue 53).text = chars "dnat ip to " ++ fw.resolver ++
      chars ":53" := by
    have port : ':' :: decimal (53 : UInt16).toNat = chars ":53" := by decide +kernel
    rw [Statement.text, resolverValue_text, port]
  have snat : (Statement.snat fw.addressValue).text = chars "snat ip to " ++ fw.address := by
    rw [Statement.text, addressValue_text]
  refine ⟨?_, ?_, ?_, ?_, ?_, ?_⟩
  all_goals
    simp only [Chain.text, vpnZoneOutput, vpnZoneInput, dnsOutput, vpnSource, egress, egressDrops, egressRest,
      loopbackInput, head₁, head₂, head₃, head₄, head₅, head₆, rule_text, List.flatMap_cons, List.flatMap_nil,
      List.map_cons, List.map_nil, List.cons_append, List.nil_append, isSelected_text, ipv4, ipv6,
      protocols, th, udp,
      tcp, fromUdp, fromTcp, original, untracked, established, originally, lo, loopback, out, into,
      daddr, saddr, zone, dnat, snat]
    rfl

/-- **The text is the ruleset's.** -/
theorem render_eq : fw.render = fw.ruleset.text := by
  obtain ⟨zoneOutput, zoneInput, dns, source, egress, loopback⟩ := chain_texts fw
  simp only [Firewall.render, Table.text, Firewall.ruleset, List.flatMap_cons, List.flatMap_nil,
    zoneOutput, zoneInput, dns, source, egress, loopback, List.append_assoc, List.nil_append]

end Texts

/-! ## What egress does -/

/-- The packet carries the owned mark. -/
def Firewall.Selected (fw : Firewall) (packet : Packet) : Prop :=
  packet.mark &&& fw.maskValue = fw.markValue

/-- A packet of TCP or UDP. -/
def Transport (packet : Packet) : Prop :=
  packet.l4proto = Protocol.tcp.number ∨ packet.l4proto = Protocol.udp.number

/-- The destination port is 53. -/
def ToDns (packet : Packet) : Prop :=
  ∃ ports, packet.ports = some ports ∧ ports.2 = 53

/-- The packet is in the original direction of its connection. -/
def Original (packet : Packet) : Prop :=
  ∃ connection, packet.tracking = .tracked connection ∧ connection.direction = .original

/-- The connection was originally made to port 53. -/
def OriginallyToDns (packet : Packet) : Prop :=
  ∃ connection, packet.tracking = .tracked connection ∧ connection.originalDport = 53

/-- The packet's destination is the resolver. -/
def Firewall.ToResolver (fw : Firewall) (packet : Packet) : Prop :=
  ∃ saddr, packet.header = .ipv4 saddr fw.resolverValue

section Decision

variable (fw : Firewall) (packet : Packet)

theorem isSelected_holds : fw.isSelected.holds packet = true ↔ fw.Selected packet :=
  beq_iff_eq

theorem present_iff {A : Type} {field : Option A} {test : A → Bool} :
    present field test = true ↔ ∃ value, field = some value ∧ test value = true := by
  cases field with
  | none => simp [present]
  | some value => simp [present]

theorem connection_eq_some {tracking : Tracking} {connection : Connection} :
    tracking.connection = some connection ↔ tracking = .tracked connection := by
  cases tracking <;> simp [Tracking.connection]

theorem direction_holds : (Expr.ctDirection .original).holds packet = true ↔ Original packet := by
  simp only [Expr.holds, present_iff, connection_eq_some, beq_iff_eq]
  rfl

theorem originally_holds : (Expr.ctOriginalDport 53).holds packet = true ↔ OriginallyToDns packet := by
  simp only [Expr.holds, present_iff, connection_eq_some, beq_iff_eq]
  rfl

theorem untracked_holds : (Expr.ctState .untracked).holds packet = true ↔ packet.tracking = .untracked := by
  rw [Expr.holds, beq_iff_eq]
  cases packet.tracking with
  | invalid => simp [Tracking.state]
  | untracked => simp [Tracking.state]
  | tracked connection => cases h : connection.progress <;> simp [Tracking.state, h]

theorem th_holds : (Expr.thDport 53).holds packet = true ↔ ToDns packet := by
  simp only [Expr.holds, present_iff, beq_iff_eq]
  rfl

theorem l4proto_holds : (Expr.l4proto [.tcp, .udp]).holds packet = true ↔ Transport packet := by
  simp only [Expr.holds, List.any_cons, List.any_nil, Bool.or_false, Bool.or_eq_true, beq_iff_eq]
  exact or_congr eq_comm eq_comm

theorem family_holds (family : Family) : (Expr.nfproto family).holds packet = true ↔
    packet.header.family = family :=
  beq_iff_eq

theorem daddrNot_holds (ipv4 : packet.header.family = .ipv4) :
    (Expr.daddrNot fw.resolverValue).holds packet = true ↔ ¬ fw.ToResolver packet := by
  cases header : packet.header with
  | ipv4 saddr daddr => simp [Expr.holds, present, Header.addresses, header, Firewall.ToResolver]
  | ipv6 saddr daddr =>
    rw [header] at ipv4
    cases ipv4

/-- The packets of selected DNS that `egress` checks. -/
def Guarded (packet : Packet) : Prop :=
  Transport packet ∧ (ToDns packet ∧ (Original packet ∨ packet.tracking = .untracked) ∨
    Original packet ∧ OriginallyToDns packet)

/-- **Which packets are dropped before anything is accepted.** -/
theorem drops_iff : (egressDrops fw).any (·.matches packet) = true ↔ fw.Selected packet ∧
    (packet.header.family = .ipv6 ∨ packet.header.family = .ipv4 ∧ Guarded packet ∧
      ¬ fw.ToResolver packet) := by
  simp only [egressDrops, List.any_cons, List.any_nil, Bool.or_false, Bool.or_eq_true, Rule.matches,
    List.all_cons,
    List.all_nil, Bool.and_true, Bool.and_eq_true, family_holds, isSelected_holds, l4proto_holds, th_holds,
    direction_holds, untracked_holds, originally_holds]
  cases family : packet.header.family with
  | ipv6 => simp
  | ipv4 =>
    rw [daddrNot_holds fw packet family]
    simp only [Guarded, reduceCtorEq, false_and, false_or, true_and]
    constructor
    · rintro (⟨selected, transport, dns, original, away⟩ | ⟨selected, transport, dns, untracked, away⟩ |
        ⟨selected, transport, original, originally, away⟩)
      · exact ⟨selected, ⟨transport, .inl ⟨dns, .inl original⟩⟩, away⟩
      · exact ⟨selected, ⟨transport, .inl ⟨dns, .inr untracked⟩⟩, away⟩
      · exact ⟨selected, ⟨transport, .inr ⟨original, originally⟩⟩, away⟩
    · rintro ⟨selected, ⟨transport, ⟨dns, original | untracked⟩ | ⟨original, originally⟩⟩, away⟩
      · exact .inl ⟨selected, transport, dns, original, away⟩
      · exact .inr (.inl ⟨selected, transport, dns, untracked, away⟩)
      · exact .inr (.inr ⟨selected, transport, original, originally, away⟩)

theorem egressDrops_decide : ∀ rule ∈ egressDrops fw, rule.Decides .drop := by
  intro rule member
  simp only [egressDrops, List.mem_cons, List.not_mem_nil, or_false] at member
  rcases member with rfl | rfl | rfl | rfl <;> rfl

/-- The packet leaves through the tunnel, or stays on the host. -/
def Firewall.Inside (fw : Firewall) (packet : Packet) : Prop :=
  packet.oifname = fw.interface ∨ packet.oifname = chars "lo" ∧ packet.localDestination = true

theorem oifname_holds (name : Text) : (Expr.oifname name).holds packet = true ↔ packet.oifname = name :=
  beq_iff_eq

instance : Decidable (fw.Inside packet) :=
  inferInstanceAs (Decidable (packet.oifname = fw.interface ∨ packet.oifname = chars "lo" ∧
    packet.localDestination = true))

/-- A selected packet that is not dropped first is accepted inside only. -/
theorem rest_run (selected : fw.Selected packet) :
    runRules (egressRest fw) packet = (packet, some (if fw.Inside packet then .accept else .drop)) := by
  have mark : fw.isSelected.holds packet = true := (isSelected_holds fw packet).mpr selected
  have accepts (exprs : List Expr) : (Rule.mk exprs [.accept]).Decides .accept := rfl
  have drops (exprs : List Expr) : (Rule.mk exprs [.counter, .drop]).Decides .drop := rfl
  unfold egressRest
  by_cases tunnel : packet.oifname = fw.interface
  · have out := (oifname_holds packet fw.interface).mpr tunnel
    have inside : fw.Inside packet := .inl tunnel
    rw [if_pos inside, runRules_take ?_ (accepts _)]
    simp [Rule.matches, mark, out]
  · have out : (Expr.oifname fw.interface).holds packet = false :=
      Bool.eq_false_iff.mpr fun holds => tunnel ((oifname_holds packet _).mp holds)
    rw [runRules_skip (Rule.matches_of_not_holds (by simp) out)]
    by_cases home : packet.oifname = chars "lo" ∧ packet.localDestination = true
    · have lo := (oifname_holds packet (chars "lo")).mpr home.1
      have fib : Expr.fibLocal.holds packet = true := home.2
      have inside : fw.Inside packet := .inr home
      rw [if_pos inside, runRules_take ?_ (accepts _)]
      simp [Rule.matches, mark, lo, fib]
    · have outside : ¬ fw.Inside packet := not_or.mpr ⟨tunnel, home⟩
      rw [if_neg outside, runRules_skip ?_, runRules_take ?_ (drops _)]
      · simp [Rule.matches, mark]
      · refine Bool.eq_false_iff.mpr fun found => home ?_
        simp only [Rule.matches, List.all_cons, List.all_nil, Bool.and_true, Bool.and_eq_true,
          oifname_holds] at found
        exact found.2

/-- **What `egress` does to a packet**, which it never changes. -/
theorem egress_run : ∃ verdict, (egress fw).run packet = (packet, verdict) ∧
    (verdict = .accept ↔ ¬ fw.Selected packet ∨
      packet.header.family = .ipv4 ∧ (Guarded packet → fw.ToResolver packet) ∧ fw.Inside packet) := by
  have rules : runRules (egress fw).rules packet = if (egressDrops fw).any (·.matches packet) then
      (packet, some .drop) else runRules (egressRest fw) packet := runRules_drops (egressDrops_decide fw)
  by_cases selected : fw.Selected packet
  · rw [rest_run fw packet selected] at rules
    by_cases dropped : (egressDrops fw).any (·.matches packet) = true
    · rw [if_pos dropped] at rules
      refine ⟨.drop, by rw [Chain.run, rules]; rfl, iff_of_false (by simp) ?_⟩
      rintro (unselected | ⟨ipv4, resolver, -⟩)
      · exact unselected selected
      · rcases ((drops_iff fw packet).mp dropped).2 with ipv6 | ⟨-, guarded, away⟩
        · rw [ipv6] at ipv4
          cases ipv4
        · exact away (resolver guarded)
    · rw [if_neg dropped] at rules
      refine ⟨if fw.Inside packet then .accept else .drop, by rw [Chain.run, rules]; rfl, ?_⟩
      have ipv4 : packet.header.family = .ipv4 := by
        cases family : packet.header.family with
        | ipv4 => rfl
        | ipv6 => exact absurd ((drops_iff fw packet).mpr ⟨selected, .inl family⟩) dropped
      have resolver : Guarded packet → fw.ToResolver packet := fun guarded => by
        by_contra away
        exact dropped ((drops_iff fw packet).mpr ⟨selected, .inr ⟨ipv4, guarded, away⟩⟩)
      by_cases inside : fw.Inside packet
      · rw [if_pos inside]
        exact iff_of_true rfl (.inr ⟨ipv4, resolver, inside⟩)
      · rw [if_neg inside]
        exact iff_of_false (by simp) fun accepted =>
          accepted.elim (fun unselected => unselected selected) fun facts => inside facts.2.2
  · have unmarked : fw.isSelected.holds packet = false :=
      Bool.eq_false_iff.mpr fun holds => selected ((isSelected_holds fw packet).mp holds)
    have none : runRules (egress fw).rules packet = (packet, none) := by
      refine runRules_of_none fun rule member => Rule.matches_of_not_holds ?_ unmarked
      simp only [egress, egressDrops, egressRest, List.cons_append, List.nil_append, List.mem_cons,
        List.not_mem_nil, or_false] at member
      rcases member with rfl | rfl | rfl | rfl | rfl | rfl | rfl <;> simp
    exact ⟨.accept, by rw [Chain.run, none]; rfl, iff_of_true rfl (.inl selected)⟩

/-- `vpn_source` leaves an unselected packet alone. -/
theorem source_run (unselected : ¬ fw.Selected packet) : (vpnSource fw).run packet = (packet, .accept) := by
  have unmarked : fw.isSelected.holds packet = false :=
    Bool.eq_false_iff.mpr fun holds => unselected ((isSelected_holds fw packet).mp holds)
  have none : runRules (vpnSource fw).rules packet = (packet, none) := by
    refine runRules_of_none fun rule member => Rule.matches_of_not_holds ?_ unmarked
    rw [List.mem_singleton.mp member]
    simp
  rw [Chain.run, none]
  split <;> rfl

theorem hooked_postrouting : fw.ruleset.hooked .postrouting = [egress fw, vpnSource fw] :=
  rfl

/-- What is accepted at postrouting was accepted by `egress`. -/
theorem egress_of_accepted (accepted : (fw.ruleset.run .postrouting packet).2 = .accept) :
    ¬ fw.Selected packet ∨
      packet.header.family = .ipv4 ∧ (Guarded packet → fw.ToResolver packet) ∧ fw.Inside packet := by
  obtain ⟨verdict, run, meaning⟩ := egress_run fw packet
  rw [Table.run, hooked_postrouting, runChains, run] at accepted
  cases verdict with
  | accept => exact meaning.mp rfl
  | drop => cases accepted

end Decision

/-! ## Main result -/

/-- **The rules enforce the split.**  The text that `render` writes is the ruleset's, and at
postrouting, on any packet: an unselected packet is accepted unchanged; a selected IPv6 packet is
dropped; a selected packet is accepted only inside; and selected DNS, in the original direction of
its connection or untracked, is accepted only for the resolver. -/
theorem egress_enforces (fw : Firewall) : fw.render = fw.ruleset.text ∧ ∀ packet : Packet,
    (¬ fw.Selected packet → fw.ruleset.run .postrouting packet = (packet, .accept)) ∧
    (fw.Selected packet → packet.header.family = .ipv6 → (fw.ruleset.run .postrouting packet).2 = .drop) ∧
    (fw.Selected packet → packet.header.family = .ipv4 → (fw.ruleset.run .postrouting packet).2 = .accept →
      packet.oifname = fw.interface ∨ packet.oifname = chars "lo" ∧ packet.localDestination = true) ∧
    (fw.Selected packet → Transport packet → (Original packet ∨ packet.tracking = .untracked) →
      (ToDns packet ∨ OriginallyToDns packet) → (fw.ruleset.run .postrouting packet).2 = .accept →
        fw.ToResolver packet) := by
  refine ⟨render_eq fw, fun packet => ⟨fun unselected => ?_, fun selected ipv6 => ?_,
    fun selected _ accepted => ?_, fun selected transport direction dns accepted => ?_⟩⟩
  · obtain ⟨verdict, run, meaning⟩ := egress_run fw packet
    obtain rfl := meaning.mpr (.inl unselected)
    rw [Table.run, hooked_postrouting, runChains, run]
    dsimp only
    rw [runChains, source_run fw packet unselected]
    rfl
  · cases verdict : (fw.ruleset.run .postrouting packet).2 with
    | drop => rfl
    | accept =>
      rcases egress_of_accepted fw packet verdict with unselected | ⟨ipv4, -⟩
      · exact absurd selected unselected
      · rw [ipv6] at ipv4
        cases ipv4
  · rcases egress_of_accepted fw packet accepted with unselected | ⟨-, -, inside⟩
    · exact absurd selected unselected
    · exact inside
  · rcases egress_of_accepted fw packet accepted with unselected | ⟨-, resolver, -⟩
    · exact absurd selected unselected
    · refine resolver ⟨transport, ?_⟩
      rcases dns with dns | ⟨connection, tracked, originally⟩
      · exact .inl ⟨dns, direction⟩
      · refine .inr ⟨direction.resolve_right fun untracked => ?_, connection, tracked, originally⟩
        rw [tracked] at untracked
        cases untracked

/-! ## Poles -/

/-- A firewall with the default names, mask and mark. -/
def sampleFirewall : Firewall where
  address := chars "10.200.0.1"
  resolver := chars "10.200.0.2"
  valid := by decide +kernel

/-- A selected TCP packet to port 53 of another host, which conntrack has found invalid. -/
def invalidPacket : Packet where
  header := .ipv4 0x0ac80001 0x08080808
  mark := 0x00010000
  l4proto := Protocol.tcp.number
  ports := some (40000, 53)
  iifname := []
  oifname := chars "wgps0"
  localDestination := false
  tracking := .invalid
  zone := 0

/-- **A packet without a connection that is not untracked is not checked**: it is not in the reply
direction of a tracked connection, it goes to port 53 of a host that is not the resolver, and it is
accepted. -/
theorem invalid_passes : sampleFirewall.Selected invalidPacket ∧ Transport invalidPacket ∧
    ToDns invalidPacket ∧
    (∀ connection, invalidPacket.tracking ≠ .tracked connection) ∧ ¬ sampleFirewall.ToResolver invalidPacket ∧
      (sampleFirewall.ruleset.run .postrouting invalidPacket).2 = .accept := by
  refine ⟨by unfold Firewall.Selected; decide +kernel, .inl rfl, ⟨_, rfl, rfl⟩, fun _ bad => (nomatch bad), ?_, ?_⟩
  · rintro ⟨saddr, header⟩
    cases header
  · decide +kernel

end ProgramSplit.Linux.Egress
