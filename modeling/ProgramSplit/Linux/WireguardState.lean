/-
# Linux.WireguardState — an interface dump without its secrets

`_wireguard_state` of `inventory.py`: the dump of an owned interface, a row for the interface and one for each
peer, becomes the record that a receipt keeps. The columns of the private key and of the preshared keys
are dropped first.

* `readPeers_eq_some` — the loop accepts rows that are each well formed and whose keys are distinct;
* `read_alike` — secrets and the order of the peers decide neither acceptance nor what is read;
* `readRows_columns` — which columns of an accepted dump are read;
* `wireguardState_normal` — secrets and order do not decide the record, and a difference in the other columns
  that are kept shows in it.
-/
import Mathlib.Data.Char
import Mathlib.Data.List.Lex
import Mathlib.Data.Nat.Digits.Defs
import ProgramSplit.Lib.Base64
import ProgramSplit.Lib.Digits
import ProgramSplit.Lib.PyText

namespace ProgramSplit.Linux.WireguardState

set_option autoImplicit false

open Lib.PyText

abbrev Row := List Text

/-! ## Fields -/

/-- The value of digits to a base, of digits `0` to `9` and `a` to `f`. -/
def numeral (base : Nat) (digits : Text) : Nat :=
  digits.foldl (fun n c => n * base + if c.isDigit then c.toNat - 48 else c.toNat - 87) 0

/-- `integer`: decimal text up to a maximum. -/
def integer (value : Text) (maximum : Nat) : Bool :=
  value.all Char.isDigit && 1 ≤ value.length && value.length ≤ 20 && numeral 10 value ≤ maximum

def alphabet : Text :=
  "ABCDEFGHIJKLMNOPQRSTUVWXYZabcdefghijklmnopqrstuvwxyz0123456789+/".toList

def symbol (c : Char) : Lib.Base64.Symbol :=
  (List.finRange 64).find? fun d => alphabet.getD d.val '=' == c

def character : Lib.Base64.Symbol → Char
  | none => '='
  | some d => alphabet.getD d.val '='

/-- `key`: 43 characters of the alphabet and a sign, in the one spelling of their bytes. -/
def key (value : Text) : Bool :=
  value.length == 44 && (value.take 43).all (· ∈ alphabet) && value.getLast? == some '=' &&
    (Lib.Base64.bytes (value.map symbol)).map
    (fun bytes => (Lib.Base64.symbols bytes).map character) == some value

/-- The firewall mark: `off`, or up to eight hexadecimal digits. -/
def fwmark (mark : Text) : Option Nat :=
  if mark = "off".toList then some 0
  else
    let digits := mark.drop 2
    if mark.take 2 = "0x".toList ∧ digits.all (fun c => c.isDigit || 'a' ≤ c && c ≤ 'f') = true ∧
      1 ≤ digits.length ∧
        digits.length ≤ 8 then
      some (numeral 16 digits)
    else none

/-! ## Rows -/

structure Peer where
  publicKey : Text
  endpoint : Text
  allowed : List Text
  keepalive : Text
  deriving DecidableEq

/-- A peer's row without its preshared key. -/
def readPeer : Row → Option Peer
  | [publicKey, endpoint, allowed, handshake, received, sent, keepalive] =>
    if key publicKey ∧ [endpoint, allowed].all (fun x => !x.isEmpty && !x.any isSpace) ∧
        [handshake, received, sent].all (integer · 0xffffffffffffffff) ∧
        (keepalive = "off".toList ∨ integer keepalive 65535 = true) ∧
        (allowed.splitOn ',').all (!·.isEmpty) then
      some ⟨publicKey, endpoint, allowed.splitOn ',', keepalive⟩
    else none
  | _ => none

local instance : LawfulBEq Text := inferInstance

/-- The body of the loop, behind the peers seen. -/
def addPeer (peers : List Peer) (row : Row) : Option (List Peer) :=
  match readPeer row with
  | none => none
  | some peer => if peer.publicKey ∈ peers.map Peer.publicKey then none else some (peers ++ [peer])

/-- What an accepted dump says. -/
structure Reading where
  publicKey : Text
  fwmark : Nat
  peers : List Peer

/-- The rows of a dump. -/
def rows (raw : Text) : List Row :=
  (splitLines raw).map (·.splitOn '\t')

/-- The rows once the secret columns are gone; none when a row has not its number of columns. -/
def publicRows : List Row → Option (Row × List Row)
  | [] => none
  | head :: peers =>
    if head.length = 4 ∧ peers.all (fun row => row.length == 8) = true then
      some (head.eraseIdx 0, peers.map (·.eraseIdx 1))
    else none

/-- The interface's row without its private key. -/
def readInterface : Row → Option (Text × Nat)
  | [publicKey, listenPort, mark] =>
    if (publicKey = "(none)".toList ∨ key publicKey = true) ∧ integer listenPort 65535 = true then
      (fwmark mark).map (publicKey, ·)
    else none
  | _ => none

/-- The checks of a dump, each of which raises the same error. -/
def readRows (table : List Row) : Option Reading :=
  match publicRows table with
  | none => none
  | some (head, peers) =>
    match readInterface head, peers.foldlM addPeer [] with
    | some (publicKey, fwmark), some peers => some ⟨publicKey, fwmark, peers⟩
    | _, _ => none

structure State where
  publicKeySha256 : Text
  fwmark : Nat
  peers : List (List Text)
  endpoints : List (List Text)
  allowedIps : List (List Text)
  persistentKeepalive : List (List Text)

def sort (rows : List (List Text)) : List (List Text) :=
  rows.insertionSort (· ≤ ·)

def Reading.state (sha256 : Text → Text) (r : Reading) : State where
  publicKeySha256 := sha256 r.publicKey
  fwmark := r.fwmark
  peers := sort (r.peers.map fun p => [p.publicKey])
  endpoints := sort (r.peers.map fun p => [p.publicKey, p.endpoint])
  allowedIps := sort (r.peers.map fun p => p.publicKey :: p.allowed)
  persistentKeepalive := sort (r.peers.map fun p => [p.publicKey, p.keepalive])

/-- `_wireguard_state`; none stands for the error `malformed owned WireGuard state`. -/
def wireguardState (sha256 : Text → Text) (raw : Text) : Option State :=
  (readRows (rows raw)).map (Reading.state sha256)

/-! ## The loop -/

/-- What a table of rows reads as, row by row. -/
def Reads (table : List Row) (peers : List Peer) : Prop :=
  List.Forall₂ (fun row peer => readPeer row = some peer) table peers

/-- The loop accepts what is well formed row by row and has distinct keys. -/
theorem readPeers_eq_some (table : List Row) : ∀ seen : List Peer, (seen.map Peer.publicKey).Nodup → ∀ result,
    table.foldlM addPeer seen = some result ↔
      ∃ peers, Reads table peers ∧ result = seen ++ peers ∧ (result.map Peer.publicKey).Nodup := by
  induction table with
  | nil =>
    intro seen nodup result
    constructor
    · intro same
      cases same
      exact ⟨[], .nil, (List.append_nil seen).symm, nodup⟩
    · rintro ⟨peers, empty, rfl, -⟩
      cases empty
      rw [List.append_nil]
      rfl
  | cons row table ih =>
    intro seen nodup result
    rw [List.foldlM_cons, addPeer]
    cases read : readPeer row with
    | none =>
      refine ⟨(nomatch ·), ?_⟩
      rintro ⟨_, reads, -⟩
      cases reads with
      | cons first _ => rw [read] at first; cases first
    | some peer =>
      dsimp only
      by_cases known : peer.publicKey ∈ seen.map Peer.publicKey
      · rw [if_pos known]
        refine ⟨(nomatch ·), ?_⟩
        rintro ⟨_, reads, rfl, distinct⟩
        cases reads with
        | cons first _ =>
          rw [read] at first
          cases first
          rw [List.map_append, List.nodup_append] at distinct
          exact absurd rfl (distinct.2.2 peer.publicKey known peer.publicKey (by simp))
      · have fresh : ((seen ++ [peer]).map Peer.publicKey).Nodup := by
          rw [List.map_append, List.map_singleton, ← List.concat_eq_append]
          exact List.Nodup.concat known nodup
        rw [if_neg known]
        show table.foldlM addPeer (seen ++ [peer]) = some result ↔ _
        rw [ih _ fresh]
        constructor
        · rintro ⟨peers, reads, rfl, distinct⟩
          exact ⟨peer :: peers, .cons read reads, by simp, distinct⟩
        · rintro ⟨_, reads, rfl, distinct⟩
          cases reads with
          | cons first others =>
            rw [read] at first
            cases first
            exact ⟨_, others, by simp, distinct⟩

/-- Rows in another order are read as the same peers in another order. -/
theorem readPeers_perm {table table' : List Row} (perm : table.Perm table') {result : List Peer}
    (read : table.foldlM addPeer [] = some result) :
    ∃ result', table'.foldlM addPeer [] = some result' ∧ result.Perm result' := by
  obtain ⟨peers, reads, rfl, distinct⟩ := (readPeers_eq_some table [] List.nodup_nil _).mp read
  obtain ⟨peers', reads', same⟩ := List.perm_comp_forall₂ perm.symm reads
  refine ⟨peers', (readPeers_eq_some table' [] List.nodup_nil _).mpr ⟨peers', reads', rfl, ?_⟩, same.symm⟩
  exact (same.map Peer.publicKey).nodup_iff.mpr distinct

/-! ## Secrets and order -/

/-- Two rows with as many columns that differ in one column at most. -/
def SameBut (column : Nat) (row row' : Row) : Prop :=
  row.length = row'.length ∧ row.eraseIdx column = row'.eraseIdx column

/-- Two dumps that differ in their secrets and in the order of the peers at most. -/
inductive Alike : List Row → List Row → Prop
  | empty : Alike [] []
  | dump {head head' : Row} {peers between peers' : List Row} (interface : SameBut 0 head head')
      (secrets : List.Forall₂ (SameBut 1) peers between) (order : between.Perm peers') :
      Alike (head :: peers) (head' :: peers')

theorem sameBut_rows {table table' : List Row} (same : List.Forall₂ (SameBut 1) table table') :
    table.map (·.eraseIdx 1) = table'.map (·.eraseIdx 1) ∧
      table.all (fun row => row.length == 8) = table'.all fun row => row.length == 8 := by
  induction same with
  | nil => exact ⟨rfl, rfl⟩
  | cons first _ ih => exact ⟨by rw [List.map_cons, List.map_cons, first.2, ih.1], by rw [List.all_cons, List.all_cons, first.1, ih.2]⟩

/-- What is left of such dumps without the secrets differs in the order of the peers at most. -/
theorem publicRows_alike {table table' : List Row} (alike : Alike table table') :
    (publicRows table = none ∧ publicRows table' = none) ∨
    ∃ head peers peers', publicRows table = some (head, peers) ∧ publicRows table' = some (head, peers') ∧
      peers.Perm peers' := by
  cases alike with
  | empty => exact .inl ⟨rfl, rfl⟩
  | @dump head head' peers between peers' interface secrets order =>
    obtain ⟨erased, widths⟩ := sameBut_rows secrets
    rw [order.all_eq] at widths
    simp only [publicRows, interface.1, widths, interface.2]
    split
    · exact .inr ⟨_, _, _, rfl, rfl, erased ▸ order.map _⟩
    · exact .inl ⟨rfl, rfl⟩

/-- Such dumps are refused both, or accepted both with the same peers in some order. -/
theorem read_alike {table table' : List Row} (alike : Alike table table') :
    (readRows table = none ∧ readRows table' = none) ∨
    ∃ publicKey mark peers peers', readRows table = some ⟨publicKey, mark, peers⟩ ∧
      readRows table' = some ⟨publicKey, mark, peers'⟩ ∧ peers.Perm peers' := by
  rcases publicRows_alike alike with ⟨none, none'⟩ | ⟨head, rest, rest', shape, shape', order⟩
  · exact .inl ⟨by rw [readRows, none], by rw [readRows, none']⟩
  · simp only [readRows, shape, shape']
    cases readInterface head with
    | none => exact .inl ⟨rfl, rfl⟩
    | some interface =>
      cases read : rest.foldlM addPeer [] with
      | some peers =>
        obtain ⟨peers', read', perm⟩ := readPeers_perm order read
        exact .inr ⟨interface.1, interface.2, peers, peers', rfl, by rw [read'], perm⟩
      | none =>
        cases read' : rest'.foldlM addPeer [] with
        | none => exact .inl ⟨rfl, rfl⟩
        | some peers' =>
          obtain ⟨peers, other, -⟩ := readPeers_perm order.symm read'
          rw [read] at other
          cases other

theorem sort_eq_of_perm {table table' : List (List Text)} (perm : table.Perm table') :
    sort table = sort table' :=
  Lib.Digits.insertionSort_eq_of_perm (fun _ _ => le_antisymm) perm

theorem perm_of_sort_eq {table table' : List (List Text)} (same : sort table = sort table') :
    table.Perm table' := by
  have front : (sort table).Perm table := List.perm_insertionSort _ table
  rw [same] at front
  exact front.symm.trans (List.perm_insertionSort _ table')

theorem state_perm (sha256 : Text → Text) {publicKey : Text} {mark : Nat} {peers peers' : List Peer}
    (perm : peers.Perm peers') :
    Reading.state sha256 ⟨publicKey, mark, peers⟩ = Reading.state sha256 ⟨publicKey, mark, peers'⟩ := by
  simp only [Reading.state, State.mk.injEq, true_and]
  exact ⟨sort_eq_of_perm (perm.map _), sort_eq_of_perm (perm.map _), sort_eq_of_perm (perm.map _),
    sort_eq_of_perm (perm.map _)⟩

/-! ## What shows in the record -/

/-- A column of a row as the tool prints it: of the interface private key, public key, port and
mark, of a peer public key, preshared key, endpoint, addresses, handshake, received, sent and
keepalive. -/
def column (row : Row) (i : Nat) : Text :=
  row.getD i []

/-- The value of a mark: none at all is zero, and the digits behind `0x` are hexadecimal. -/
def markValue (mark : Text) : Nat :=
  if mark = "off".toList then 0
  else Nat.ofDigits 16 ((mark.drop 2).reverse.map fun c => if c.isDigit then c.toNat - 48 else c.toNat - 87)

/-- Rows of the same peer, up to the order of the allowed addresses. -/
def SamePeer (row row' : Row) : Prop :=
  column row 0 = column row' 0 ∧ column row 2 = column row' 2 ∧
    (∀ a, a ∈ (column row 3).splitOn ',' ↔ a ∈ (column row' 3).splitOn ',') ∧ column row 7 = column row' 7

/-- A peer of the first dump that is no peer of the second. -/
def Lacks (table table' : List Row) : Prop :=
  ∃ row ∈ table.tail, ∀ row' ∈ table'.tail, ¬SamePeer row row'

/-- Two dumps differ in the interface's key, in its mark or in a peer. -/
def Differ (table table' : List Row) : Prop :=
  column (table.headD []) 1 ≠ column (table'.headD []) 1 ∨
    markValue (column (table.headD []) 3) ≠ markValue (column (table'.headD []) 3) ∨ Lacks table table' ∨
    Lacks table' table

theorem numeral_eq_ofDigits (base : Nat) (digits : Text) :
    numeral base digits =
      Nat.ofDigits base (digits.reverse.map fun c => if c.isDigit then c.toNat - 48 else c.toNat - 87) := by
  induction digits using List.reverseRecOn with
  | nil => rfl
  | append_singleton digits c ih =>
    rw [List.reverse_append, List.reverse_singleton, List.singleton_append, List.map_cons,
      Nat.ofDigits_cons, ← ih, numeral, List.foldl_append, Nat.add_comm, Nat.mul_comm]
    rfl

theorem fwmark_eq {mark : Text} {value : Nat} (read : fwmark mark = some value) : value = markValue mark := by
  unfold fwmark at read
  unfold markValue
  dsimp only at read
  split_ifs at read ⊢ with off
  · exact (Option.some.inj read).symm
  · rw [← numeral_eq_ofDigits]
    exact (Option.some.inj read).symm

/-- The peer that a row of all columns stands for. -/
def peerOf (row : Row) : Peer :=
  ⟨column row 0, column row 2, (column row 3).splitOn ',', column row 7⟩

theorem readPeer_columns {row : Row} {peer : Peer} (wide : row.length = 8)
    (read : readPeer (row.eraseIdx 1) = some peer) : peer = peerOf row := by
  match row, wide with
  | [_, _, _, _, _, _, _, _], _ =>
    simp only [List.eraseIdx_cons_succ, List.eraseIdx_cons_zero, readPeer] at read
    split at read
    · exact (Option.some.inj read).symm
    · cases read

theorem reads_columns {table : List Row} {peers : List Peer} (wide : ∀ row ∈ table, row.length = 8)
    (reads : Reads (table.map (·.eraseIdx 1)) peers) : peers = table.map peerOf := by
  induction table generalizing peers with
  | nil => cases reads; rfl
  | cons row table ih =>
    cases reads with
    | cons first others =>
      rw [List.map_cons, ← ih (fun row member => wide row (List.mem_cons_of_mem _ member)) others,
        readPeer_columns (wide row List.mem_cons_self) first]

/-- What is read of an accepted dump, column by column. -/
theorem readRows_columns {table : List Row} {r : Reading} (read : readRows table = some r) :
    r = ⟨column (table.headD []) 1, markValue (column (table.headD []) 3), table.tail.map peerOf⟩ ∧
      (r.peers.map Peer.publicKey).Nodup := by
  unfold readRows publicRows at read
  match table with
  | [] => cases read
  | head :: peers =>
    dsimp only at read
    split_ifs at read with widths
    · obtain ⟨four, eight⟩ := widths
      dsimp only at read
      split at read
      next publicKey mark found interface loop =>
        cases read
        obtain ⟨_, reads, rfl, distinct⟩ := (readPeers_eq_some _ [] List.nodup_nil _).mp loop
        have all := reads_columns (by simpa using eight) reads
        refine ⟨?_, distinct⟩
        match head, four with
        | [_, _, _, _], _ =>
          simp only [List.eraseIdx_cons_zero, readInterface] at interface
          split at interface
          · obtain ⟨value, known, same⟩ := Option.map_eq_some_iff.mp interface
            cases same
            rw [all, fwmark_eq known]
            rfl
          · cases interface
      next => cases read

/-- A peer is known by the parts of it that four lists keep under its key. -/
theorem mem_peers_of_state {sha256 : Text → Text} {r r' : Reading}
    (distinct : (r'.peers.map Peer.publicKey).Nodup)
    (same : r.state sha256 = r'.state sha256) {p : Peer} (member : p ∈ r.peers) : p ∈ r'.peers := by
  simp only [Reading.state, State.mk.injEq] at same
  obtain ⟨-, -, -, endpoints, allowed, keepalive⟩ := same
  have find : ∀ f : Peer → List Text, sort (r.peers.map f) = sort (r'.peers.map f) →
      ∃ q ∈ r'.peers, f q = f p :=
    fun f same => List.mem_map.mp ((perm_of_sort_eq same).subset (List.mem_map_of_mem member))
  obtain ⟨q, inside, endpoint⟩ := find _ endpoints
  obtain ⟨q', inside', addresses⟩ := find _ allowed
  obtain ⟨q'', inside'', alive⟩ := find _ keepalive
  simp only [List.cons.injEq, and_true] at endpoint addresses alive
  have one : q' = q := List.inj_on_of_nodup_map distinct inside' inside (addresses.1.trans endpoint.1.symm)
  have two : q'' = q := List.inj_on_of_nodup_map distinct inside'' inside (alive.1.trans endpoint.1.symm)
  subst one two
  have whole : q'' = p := by
    obtain ⟨_, _, _, _⟩ := q''
    obtain ⟨_, _, _, _⟩ := p
    simp only [Peer.mk.injEq]
    exact ⟨endpoint.1, endpoint.2, addresses.2, alive.2⟩
  rwa [whole] at inside

theorem SamePeer.of_peerOf {row row' : Row} (same : peerOf row = peerOf row') : SamePeer row row' := by
  simp only [peerOf, Peer.mk.injEq] at same
  exact ⟨same.1, same.2.1, fun a => by rw [same.2.2.1], same.2.2.2⟩

/-- Two accepted dumps with the same record lack no peer of one another. -/
theorem not_lacks {sha256 : Text → Text} {table table' : List Row} {r r' : Reading}
    (read : readRows table = some r) (read' : readRows table' = some r')
    (same : r.state sha256 = r'.state sha256) :
    ¬Lacks table table' := by
  rintro ⟨row, member, none⟩
  obtain ⟨shape, -⟩ := readRows_columns read
  obtain ⟨shape', distinct⟩ := readRows_columns read'
  have listed : peerOf row ∈ r.peers := shape ▸ List.mem_map_of_mem member
  have found := mem_peers_of_state distinct same listed
  rw [shape'] at found
  obtain ⟨row', inside, same⟩ := List.mem_map.mp found
  exact none row' inside (.of_peerOf same.symm)

/-- **Normal form.** Dumps that differ in secrets and in the order of the peers are refused alike or
give the same record. Accepted dumps that differ in the interface's key or mark, or in a peer's key,
endpoint, set of addresses or keepalive, give different records, as long as the digest tells keys
apart. -/
theorem wireguardState_normal (sha256 : Text → Text) :
    (∀ raw raw', Alike (rows raw) (rows raw') → wireguardState sha256 raw = wireguardState sha256 raw') ∧
    (Function.Injective sha256 → ∀ raw raw', (wireguardState sha256 raw).isSome = true →
      (wireguardState sha256 raw').isSome = true → Differ (rows raw) (rows raw') →
      wireguardState sha256 raw ≠ wireguardState sha256 raw') := by
  refine ⟨fun raw raw' alike => ?_, fun injective raw raw' accepted accepted' differ same => ?_⟩
  · unfold wireguardState
    rcases read_alike alike with ⟨none, none'⟩ | ⟨publicKey, mark, peers, peers', read, read', perm⟩
    · rw [none, none']
    · rw [read, read', Option.map_some, Option.map_some, state_perm sha256 perm]
  · rw [wireguardState, Option.isSome_map] at accepted accepted'
    obtain ⟨r, read⟩ := Option.isSome_iff_exists.mp accepted
    obtain ⟨r', read'⟩ := Option.isSome_iff_exists.mp accepted'
    rw [wireguardState, wireguardState, read, read', Option.map_some, Option.map_some,
      Option.some.injEq] at same
    rcases differ with key | mark | lacks | lacks
    · have keys := injective (congrArg State.publicKeySha256 same)
      rw [(readRows_columns read).1, (readRows_columns read').1] at keys
      exact key keys
    · have marks := congrArg State.fwmark same
      rw [(readRows_columns read).1, (readRows_columns read').1] at marks
      exact mark marks
    · exact not_lacks read read' same lacks
    · exact not_lacks read' read same.symm lacks

/-! ## Poles -/

def sampleInterface (privateKey : String) : Row :=
  [privateKey, "AAAAAAAAAAAAAAAAAAAAAAAAAAAAAAAAAAAAAAAAAAA=", "51820", "0x51"].map String.toList

def samplePeer (presharedKey addresses : String) : Row :=
  ["BAAAAAAAAAAAAAAAAAAAAAAAAAAAAAAAAAAAAAAAAAA=", presharedKey, "192.0.2.1:51820", addresses, "0", "0", "0",
    "25"].map String.toList

def idlePeer : Row :=
  ["CAAAAAAAAAAAAAAAAAAAAAAAAAAAAAAAAAAAAAAAAAA=", "(none)", "(none)", "10.0.0.2/32", "0", "0", "0",
    "off"].map String.toList

def dumpOf (table : List Row) : Text :=
  table.flatMap fun row => ['\t'].intercalate row ++ ['\n']

def sampleDump : Text := dumpOf [sampleInterface "p", samplePeer "(none)" "0.0.0.0/0", idlePeer]
def rekeyedDump : Text := dumpOf [sampleInterface "q", idlePeer, samplePeer "s" "0.0.0.0/0"]
def narrowedDump : Text := dumpOf [sampleInterface "p", samplePeer "(none)" "10.0.0.0/8,::/0", idlePeer]

/-- Other secrets and another order leave the record of an accepted dump as it is, and other addresses show
in it. -/
theorem wireguardState_normal_sample :
    (wireguardState id sampleDump).isSome = true ∧ (wireguardState id narrowedDump).isSome = true ∧
    wireguardState id sampleDump = wireguardState id rekeyedDump ∧
    wireguardState id sampleDump ≠ wireguardState id narrowedDump := by
  obtain ⟨alike, differ⟩ := wireguardState_normal id
  have accepted : (wireguardState id sampleDump).isSome = true ∧
      (wireguardState id narrowedDump).isSome = true := by
    decide +kernel
  have cut : rows sampleDump = [sampleInterface "p", samplePeer "(none)" "0.0.0.0/0", idlePeer] ∧
      rows rekeyedDump = [sampleInterface "q", idlePeer, samplePeer "s" "0.0.0.0/0"] ∧
      rows narrowedDump = [sampleInterface "p", samplePeer "(none)" "10.0.0.0/8,::/0", idlePeer] := by
    decide +kernel
  refine ⟨accepted.1, accepted.2, alike _ _ ?_, differ (fun _ _ same => same) _ _ accepted.1 accepted.2 ?_⟩
  · have secrets : List.Forall₂ (SameBut 1) [samplePeer "(none)" "0.0.0.0/0", idlePeer]
        [samplePeer "s" "0.0.0.0/0", idlePeer] := .cons ⟨rfl, rfl⟩ (.cons ⟨rfl, rfl⟩ .nil)
    exact .dump ⟨rfl, rfl⟩ secrets (.swap _ _ _)
  · rw [cut.1, cut.2.2]
    refine .inr (.inr (.inl ⟨_, List.mem_cons_self, fun row' member same => ?_⟩))
    rcases List.mem_cons.mp member with rfl | member
    · exact absurd ((same.2.2.1 "0.0.0.0/0".toList).mp (by decide +kernel)) (by decide +kernel)
    · cases List.mem_singleton.mp member
      exact absurd same.1 (by decide +kernel)

end ProgramSplit.Linux.WireguardState
