/-
# Linux.ZoneScan — conntrack zones from a listing that arrives in pieces

`_ZoneScan` of `inventory.py`: the flow listing is fed chunk by chunk, complete lines are searched for
zone tokens at once and one unfinished line is kept.

* `after` — the state after some bytes, computed from the bytes alone;
* `feed_after` — a chunk takes the state after the bytes before it to the state after the bytes with it;
* `scan_eq` — a listing read in any chunks is the listing read whole;
* `chunking_immaterial` — every cutting raises, or every cutting returns the zones of the zone tokens.
-/
import Mathlib.Data.Finset.Insert
import Mathlib.Data.List.Infix
import ProgramSplit.Lib.Digits
import ProgramSplit.Lib.Words

namespace ProgramSplit.Linux.ZoneScan

set_option autoImplicit false

open Lib.Digits (isDigit digitsFrom)
open Lib.Words

abbrev Bytes := List UInt8

def lineMaximum : Nat := 64 * 1024

/-- The whitespace of `bytes.split()`. -/
def isSpace (b : UInt8) : Bool :=
  b == 32 || (9 ≤ b && b ≤ 13)

/-- What `_ZONE_TOKEN` allows before the digits. -/
def zoneHeads : List Bytes :=
  [ascii "zone=", ascii "zone-orig=", ascii "zone-reply="]

/-- `_ZONE_TOKEN.fullmatch(token)`: the digits of the group. -/
def zoneToken (token : Bytes) : Option Bytes :=
  zoneHeads.findSome? fun head =>
    let digits := token.drop head.length
    if head.isPrefixOf token ∧ digits.all isDigit ∧ 1 ≤ digits.length ∧
      digits.length ≤ 5 then some digits else none

/-- The body of the loop of `_line`. -/
def addToken (zones : Finset Nat) (token : Bytes) : Except String (Finset Nat) :=
  if ascii "zone" <:+: token then
    match zoneToken token with
    | none => .error "unparseable conntrack zone inventory"
    | some digits =>
      let number := digitsFrom 10 0 digits
      if 65535 < number then .error "invalid conntrack zone inventory" else .ok (insert number zones)
  else .ok zones

def line (zones : Finset Nat) (text : Bytes) : Except String (Finset Nat) :=
  (words isSpace text).foldlM addToken zones

structure Scan where
  zones : Finset Nat
  partialLine : Bytes

def Scan.init : Scan := ⟨∅, []⟩

def feed (scan : Scan) (chunk : Bytes) : Except String Scan :=
  let lines := (scan.partialLine ++ chunk).splitOn 10
  let rest := lines.getLastD []
  if lineMaximum < rest.length then .error "conntrack flow line exceeds its limit"
  else (lines.dropLast.foldlM line scan.zones).map fun zones => ⟨zones, rest⟩

def finish (scan : Scan) : Except String (Finset Nat) :=
  line scan.zones scan.partialLine

/-- Feed the chunks and finish. -/
def scan (chunks : List Bytes) : Except String (Finset Nat) :=
  chunks.foldlM feed Scan.init >>= finish

/-! ## The state after some bytes -/

def after (text : Bytes) : Except String Scan :=
  ((text.splitOn 10).dropLast.foldlM line ∅).map fun zones => ⟨zones, (text.splitOn 10).getLastD []⟩

/-- Lines short enough for the scan to hold. -/
def Short (text : Bytes) : Prop :=
  ∀ line ∈ text.splitOn 10, line.length ≤ lineMaximum

theorem map_bind_except {A B C : Type} (m : Except String A) (f : A → B) (g : B → Except String C) :
    m.map f >>= g = m >>= fun a => g (f a) := by
  cases m <;> rfl

theorem map_eq_bind {A B : Type} (m : Except String A) (f : A → B) : m.map f = m >>= fun a => .ok (f a) := by
  cases m <;> rfl

theorem getLastD_append {lines : List Bytes} (front : List Bytes) (nonempty : lines ≠ []) :
    (front ++ lines).getLastD [] = lines.getLastD [] := by
  rw [List.getLastD_eq_getLast?, List.getLastD_eq_getLast?, List.getLast?_append_of_ne_nil front nonempty]

/-- **One chunk.** The state after the bytes before a chunk goes to the state after the bytes with it, as long
as the line it leaves open is within the limit. -/
theorem feed_after (text chunk : Bytes)
    (short : (((text ++ chunk).splitOn 10).getLastD []).length ≤ lineMaximum) :
    (after text >>= fun scan => feed scan chunk) = after (text ++ chunk) := by
  have lines := splitOn_append 10 text chunk
  have nonempty := List.splitOn_ne_nil 10 ((text.splitOn 10).getLastD [] ++ chunk)
  rw [lines, getLastD_append _ nonempty] at short
  unfold after
  rw [map_bind_except, lines, getLastD_append _ nonempty, List.dropLast_append_of_ne_nil nonempty,
    List.foldlM_append, map_eq_bind, bind_assoc]
  congr 1
  funext zones
  unfold feed
  rw [if_neg (Nat.not_lt.mpr short), map_eq_bind]

/-- The line left open after a part of a text is the beginning of a line of the text. -/
theorem short_front {front back : Bytes} (short : Short (front ++ back)) :
    ((front.splitOn 10).getLastD []).length ≤ lineMaximum := by
  obtain ⟨line, member, begins⟩ := open_line_of_append 10 front back
  exact Nat.le_trans begins.length_le (short line member)

/-- **All chunks.** Fed chunk by chunk or at once, the state is the one after the bytes. -/
theorem foldlM_feed (chunks : List Bytes) : ∀ text, Short (text ++ chunks.flatten) →
    (after text >>= fun scan => chunks.foldlM feed scan) = after (text ++ chunks.flatten) := by
  induction chunks with
  | nil =>
    intro text _
    rw [List.flatten_nil, List.append_nil]
    cases after text <;> rfl
  | cons chunk chunks ih =>
    intro text short
    rw [List.flatten_cons, ← List.append_assoc] at short ⊢
    rw [← ih (text ++ chunk) short, ← feed_after text chunk (short_front short), bind_assoc]
    rfl

theorem finish_after (text : Bytes) : after text >>= finish = (words isSpace text).foldlM addToken ∅ := by
  have lines := dropLast_append_getLastD (List.splitOn_ne_nil 10 text)
  calc after text >>= finish
      = ((text.splitOn 10).dropLast ++ [(text.splitOn 10).getLastD []]).foldlM line ∅ := by
        rw [after, map_bind_except, List.foldlM_append]
        congr 1
        funext zones
        show line zones _ = (line zones _ >>= fun zones => .ok zones)
        cases line zones ((text.splitOn 10).getLastD []) <;> rfl
    _ = (words isSpace text).foldlM addToken ∅ := by
        have feeds : isSpace 10 = true := rfl
        rw [lines, ← flatMap_words_splitOn feeds text, foldlM_flatMap]
        rfl

/-- A listing read in any chunks is its words read one after another. -/
theorem scan_eq (chunks : List Bytes) (short : Short chunks.flatten) :
    scan chunks = (words isSpace chunks.flatten).foldlM addToken ∅ := by
  rw [← finish_after, ← List.nil_append chunks.flatten, ← foldlM_feed chunks [] short]
  rfl

/-! ## The zones of the zone tokens -/

/-- What `_ZONE_TOKEN` allows for the digits. -/
def Group (digits : Bytes) : Prop :=
  digits.all isDigit = true ∧ 1 ≤ digits.length ∧ digits.length ≤ 5

/-- A zone token and its number. -/
def Names (token : Bytes) (number : Nat) : Prop :=
  ∃ head ∈ zoneHeads, ∃ digits, Group digits ∧ token = head ++ digits ∧ digitsFrom 10 0 digits = number

theorem zoneHeads_eq : zoneHeads = [[122, 111, 110, 101, 61],
    [122, 111, 110, 101, 45, 111, 114, 105, 103, 61],
    [122, 111, 110, 101, 45, 114, 101, 112, 108, 121, 61]] := by
  decide

/-- The heads exclude one another, so the search finds the one there is. -/
theorem zoneToken_eq_some {token digits : Bytes} :
    zoneToken token = some digits ↔ Group digits ∧ ∃ head ∈ zoneHeads, token = head ++ digits := by
  constructor
  · intro found
    obtain ⟨head, member, taken⟩ := List.exists_of_findSome?_eq_some found
    dsimp only at taken
    split at taken
    next shape =>
      cases taken
      obtain ⟨rest, rfl⟩ := List.isPrefixOf_iff_prefix.mp shape.1
      exact ⟨shape.2, head, member, by rw [List.drop_left]⟩
    next => cases taken
  · rintro ⟨group, head, member, isToken⟩
    rw [zoneHeads_eq] at member
    simp only [List.mem_cons, List.not_mem_nil, or_false] at member
    rw [zoneToken, zoneHeads_eq, List.findSome?_eq_some_iff]
    -- no head begins with another, so the earlier ones are passed by
    have passed {head : Bytes} {p : Prop} [Decidable p] (apart : head.isPrefixOf token = false) :
        (if head.isPrefixOf token ∧ p then some (token.drop head.length) else none) = none :=
      if_neg fun both => nomatch both.1.symm.trans apart
    rcases member with rfl | rfl | rfl <;> subst isToken
    · exact ⟨[], _, _, rfl, if_pos ⟨rfl, group⟩, nofun⟩
    · exact ⟨[_], _, _, rfl, if_pos ⟨rfl, group⟩, List.forall_mem_singleton.mpr (passed rfl)⟩
    · exact ⟨[_, _], _, _, rfl, if_pos ⟨rfl, group⟩,
        List.forall_mem_cons.mpr ⟨passed rfl, List.forall_mem_singleton.mpr (passed rfl)⟩⟩

theorem zone_within {token : Bytes} {number : Nat} (named : Names token number) :
    ascii "zone" <:+: token := by
  obtain ⟨head, member, digits, -, rfl, -⟩ := named
  have begins : ∀ head ∈ zoneHeads, ascii "zone" <+: head := by
    decide
  exact ((begins head member).trans (List.prefix_append head digits)).isInfix

/-- What a token does to the zones: refused, if it holds `zone` without naming a zone of 16 bits. -/
theorem addToken_cases (zones : Finset Nat) (token : Bytes) :
    ((∃ message, addToken zones token = .error message) ∧ ascii "zone" <:+: token ∧
      ¬∃ n ≤ 65535, Names token n) ∨
    (∃ next, addToken zones token = .ok next ∧ (∀ n, n ∈ next ↔ n ∈ zones ∨ Names token n) ∧
      (ascii "zone" <:+: token → ∃ n ≤ 65535, Names token n)) := by
  unfold addToken
  split
  next holds =>
    have names : ∀ n, Names token n ↔ ∃ digits, zoneToken token = some digits ∧
        digitsFrom 10 0 digits = n := by
      intro n
      constructor
      · rintro ⟨head, member, digits, group, shape, value⟩
        exact ⟨digits, zoneToken_eq_some.mpr ⟨group, head, member, shape⟩, value⟩
      · rintro ⟨digits, found, value⟩
        obtain ⟨group, head, member, shape⟩ := zoneToken_eq_some.mp found
        exact ⟨head, member, digits, group, shape, value⟩
    cases found : zoneToken token with
    | none =>
      refine .inl ⟨⟨_, rfl⟩, holds, ?_⟩
      rintro ⟨n, -, named⟩
      obtain ⟨digits, some, -⟩ := (names n).mp named
      simp [found] at some
    | some digits =>
      have only : ∀ n, Names token n ↔ digitsFrom 10 0 digits = n := by
        intro n
        rw [names, found]
        exact ⟨fun ⟨_, same, value⟩ => Option.some.inj same ▸ value, fun value => ⟨digits, rfl, value⟩⟩
      dsimp only
      split
      next large =>
        refine .inl ⟨⟨_, rfl⟩, holds, ?_⟩
        rintro ⟨n, small, named⟩
        have := (only n).mp named
        omega
      next small =>
        refine .inr ⟨_, rfl, fun n => ?_, fun _ => ⟨_, Nat.not_lt.mp small, (only _).mpr rfl⟩⟩
        rw [Finset.mem_insert, only, or_comm, eq_comm]
  next other =>
    refine .inr ⟨zones, rfl, fun n => ?_, fun holds => absurd holds other⟩
    exact ⟨.inl, fun either => either.resolve_right fun named => other (zone_within named)⟩

/-- What the tokens of a text do to the zones. -/
theorem foldlM_addToken (tokens : List Bytes) : ∀ zones : Finset Nat,
    ((∃ message, tokens.foldlM addToken zones = .error message) ∧
      ∃ token ∈ tokens, ascii "zone" <:+: token ∧ ¬∃ n ≤ 65535, Names token n) ∨
    (∃ result, tokens.foldlM addToken zones = .ok result ∧
      (∀ n, n ∈ result ↔ n ∈ zones ∨ ∃ token ∈ tokens, Names token n) ∧
      ∀ token ∈ tokens, ascii "zone" <:+: token → ∃ n ≤ 65535, Names token n) := by
  induction tokens with
  | nil =>
    intro zones
    exact .inr ⟨zones, rfl, by simp, by simp⟩
  | cons token tokens ih =>
    intro zones
    rw [List.foldlM_cons]
    rcases addToken_cases zones token with ⟨⟨message, refused⟩, bad⟩ | ⟨next, added, members, good⟩
    · rw [refused]
      exact .inl ⟨⟨message, rfl⟩, token, List.mem_cons_self, bad⟩
    · rw [added]
      rcases ih next with ⟨refused, token', member, bad⟩ | ⟨result, read, members', good'⟩
      · exact .inl ⟨refused, token', List.mem_cons_of_mem _ member, bad⟩
      · refine .inr ⟨result, read, fun n => ?_, List.forall_mem_cons.mpr ⟨good, good'⟩⟩
        rw [members', members, List.exists_mem_cons_iff, or_assoc]

/-- **Independence of the cutting.** A listing whose lines are within the limit is refused however it is cut
into chunks, and then for a token that holds `zone` without naming a zone; or it gives, however it is
cut, exactly the zones its tokens name. -/
theorem chunking_immaterial (text : Bytes) (short : Short text) :
    ((∃ message, ∀ chunks : List Bytes, chunks.flatten = text → scan chunks = .error message) ∧
      ∃ token ∈ words isSpace text, ascii "zone" <:+: token ∧ ¬∃ n ≤ 65535, Names token n) ∨
    (∃ zones : Finset Nat, (∀ chunks : List Bytes, chunks.flatten = text → scan chunks = .ok zones) ∧
      ∀ n, n ∈ zones ↔ ∃ token ∈ words isSpace text, Names token n) := by
  have whole : ∀ chunks : List Bytes, chunks.flatten = text →
      scan chunks = (words isSpace text).foldlM addToken ∅ := by
    rintro chunks rfl
    exact scan_eq chunks short
  rcases foldlM_addToken (words isSpace text) ∅ with ⟨⟨message, refused⟩, bad⟩ | ⟨zones, read, members, -⟩
  · exact .inl ⟨⟨message, fun chunks cut => (whole chunks cut).trans refused⟩, bad⟩
  · exact .inr ⟨zones, fun chunks cut => (whole chunks cut).trans read, by simpa using members⟩

/-- A listing that names two zones on two lines. -/
def listing : Bytes :=
  ascii "tcp zone=7 src\nudp zone-orig=9"

theorem listing_short : Short listing := by
  unfold Short
  decide

theorem chunking_immaterial_listing :
    ((∃ message, ∀ chunks : List Bytes, chunks.flatten = listing → scan chunks = .error message) ∧
      ∃ token ∈ words isSpace listing, ascii "zone" <:+: token ∧ ¬∃ n ≤ 65535, Names token n) ∨
    (∃ zones : Finset Nat, (∀ chunks : List Bytes, chunks.flatten = listing → scan chunks = .ok zones) ∧
      ∀ n, n ∈ zones ↔ ∃ token ∈ words isSpace listing, Names token n) :=
  chunking_immaterial listing listing_short

-- the listing cut inside a token
example : (scan [ascii "tcp zo", ascii "ne=7 src\nudp zone-", [], ascii "orig=9"]).toOption =
    some {7, 9} := by
  decide

end ProgramSplit.Linux.ZoneScan
