/-
# Linux.NameService — the hosts line of nsswitch.conf, read twice

Before the guard becomes ready two checks read the order in which host names are looked up: `validate_nss` of
`preflight.py` and `ready_preflight` of `bpf-loader.cpp`. The controller wants exactly one line that is
`hosts`, blanks and a colon once its comment is cut off; the loader takes every line whose first word
before a colon is `hosts`, and strings their services together.

* `reading` — a line as both checks see it: the services, and whether the controller takes it too;
* `Spaced` — a line on which the characters that only one of them knows as blanks or line ends do not matter;
* `validateNss_eq`, `readyPreflight_eq` — both checks in terms of the lines between line feeds;
* `checks_agree` — they agree on orderly texts, whose services all stand on one clean line, and no
  other text with spaced hosts lines is accepted by both.
-/
import Mathlib.Data.Bool.AllAny
import Mathlib.Data.List.DropRight
import ProgramSplit.Lib.PyText

namespace ProgramSplit.Linux.NameService

set_option autoImplicit false

open Lib.PyText
open Lib.Words

def hosts : Text := "hosts".toList

/-- Words with single blanks between them. -/
def join (list : List Text) : Text := [' '].intercalate list

def supported : List Text :=
  ["files dns".toList, "files mdns4_minimal [NOTFOUND=return] dns".toList]

/-! ## The controller -/

def strip (text : Text) : Text :=
  (text.dropWhile isSpace).rdropWhile isSpace

def beforeColon (line : Text) : Text := line.takeWhile (· != ':')
def afterColon (line : Text) : Text := (line.dropWhile (· != ':')).drop 1
def beforeHash (line : Text) : Text := line.takeWhile (· != '#')

/-- A row of the list `hosts`: `re.match(r'^hosts\s*:', line)`, and what `split` leaves behind the colon. -/
def hostsRow (row : Text) : Option Text :=
  if ':' ∈ row ∧ hosts <+: beforeColon row ∧ ((beforeColon row).drop hosts.length).all isSpace = true then
    some (strip (afterColon row))
  else none

def validateNss (text : Text) : Bool :=
  match ((splitLines text).map fun line => strip (beforeHash line)).filterMap hostsRow with
  | [services] => join (words isSpace services) ∈ supported
  | _ => false

/-! ## The loader

Its strings are bytes; the bytes of a character beyond ASCII are none of those it looks for. -/

/-- `isspace` in the classic locale. -/
def isCSpace (c : Char) : Bool :=
  c == ' ' || (9 ≤ c.toNat && c.toNat ≤ 13)

/-- The words a line adds to `hosts`. The count handed to `substr` is a difference of positions:
without a `#`, or with one before the colon, it is larger than any string and the rest of the line
is taken whole. -/
def lineServices (line : Text) : List Text :=
  if ':' ∈ line ∧ (words isCSpace (beforeColon line)).head? = some hosts then
    words isCSpace (if '#' ∈ beforeColon line then afterColon line else beforeHash (afterColon line))
  else []

def readyPreflight (text : Text) : Bool :=
  join ((getlines text).flatMap lineServices) ∈ supported

/-! ## A line as both see it -/

structure Hosts where
  clean : Bool
  services : List Text

/-- A hosts line of the loader; it is clean if only `hosts` and blanks stand before the colon. -/
def reading (line : Text) : Option Hosts :=
  if ':' ∈ line ∧ (words isCSpace (beforeColon line)).head? = some hosts then
    some ⟨'#' ∉ beforeColon line ∧ words isCSpace (beforeColon line) = [hosts], lineServices line⟩
  else none

def hostsLines (text : Text) : List Hosts :=
  (getlines text).filterMap reading

/-- The loader's words are the services of the hosts lines. -/
theorem readyPreflight_eq (text : Text) :
    readyPreflight text = true ↔ join ((hostsLines text).flatMap Hosts.services) ∈ supported := by
  have lines : ∀ list : List Text, list.flatMap lineServices =
      (list.filterMap reading).flatMap Hosts.services := by
    intro list
    induction list with
    | nil => rfl
    | cons line list ih =>
      rw [List.flatMap_cons, ih, List.filterMap_cons, reading]
      split
      next other =>
        split at other
        · cases other
        next taken => rw [lineServices, if_neg taken, List.nil_append]
      next row same =>
        split at same
        · cases same
          rw [List.flatMap_cons]
        · cases same
  rw [readyPreflight, decide_eq_true_iff, lines, hostsLines]

/-! ## Blanks and line ends -/

/-- What the controller keeps of a line. -/
def controllerLine (line : Text) : Option (List Text) :=
  (hostsRow (strip (beforeHash line))).map (words isSpace)

/-- Before its comment a line has no blank that only Python knows, and line ends of Python only
around its text; and Python finds no hosts line in the comment. -/
def Spaced (line : Text) : Prop :=
  (∀ c ∈ beforeHash line, isSpace c = true → isCSpace c = true) ∧
    (∀ c ∈ strip (beforeHash line), isBreak c = false) ∧
    ∀ piece ∈ splitLines (line.dropWhile (· != '#')), controllerLine piece = none

-- by the characters of the line, not by all there are
instance (line : Text) : Decidable (Spaced line) :=
  @instDecidableAnd _ _ (List.decidableBAll _ _)
    (@instDecidableAnd _ _ (List.decidableBAll _ _) (List.decidableBAll _ _))

/-- The loader or the controller finds a hosts line. -/
def Shows (line : Text) : Prop :=
  reading line ≠ none ∨ ∃ piece ∈ splitLines line, controllerLine piece ≠ none

instance (line : Text) : Decidable (Shows line) :=
  inferInstanceAs (Decidable (_ ∨ _))

/-- The lines that show hosts lines are spaced. -/
def Ordinary (text : Text) : Prop :=
  ∀ line ∈ getlines text, Shows line → Spaced line

instance (text : Text) : Decidable (Ordinary text) :=
  List.decidableBAll _ _

theorem isCSpace_isSpace {c : Char} (blank : isCSpace c = true) : isSpace c = true := by
  simp only [isCSpace, Bool.or_eq_true, Bool.and_eq_true, beq_iff_eq, decide_eq_true_iff] at blank
  rcases blank with rfl | range
  · decide
  · simp only [isSpace, isBreak, Bool.or_eq_true, decide_eq_true_iff, List.mem_cons]
    omega

/-- Where Python knows no other blanks, both cut a text into the same words. -/
theorem words_same {text : Text} (known : ∀ c ∈ text, isSpace c = true → isCSpace c = true) :
    words isSpace text = words isCSpace text :=
  words_congr fun c member => Bool.eq_iff_iff.mpr ⟨known c member, isCSpace_isSpace⟩

/-! ## A line of the controller -/

theorem dropWhile_mark {p : Char → Bool} {mark : Char} (solid : p mark = false) (front back : Text) :
    (front ++ mark :: back).dropWhile p = front.dropWhile p ++ mark :: back := by
  rw [List.dropWhile_append]
  split
  next empty => rw [List.isEmpty_iff.mp empty, List.dropWhile_cons_of_neg (by simp [solid]), List.nil_append]
  next => rfl

theorem strip_colon (head tail : Text) :
    strip (head ++ ':' :: tail) = head.dropWhile isSpace ++ ':' :: tail.rdropWhile isSpace := by
  have solid : isSpace ':' = false := by decide
  rw [strip, dropWhile_mark solid, List.rdropWhile, List.reverse_append, List.reverse_cons, List.append_assoc,
    List.singleton_append, dropWhile_mark solid, List.reverse_append, List.reverse_cons, List.reverse_reverse,
    List.append_assoc, List.singleton_append]
  rfl

theorem bne_of_not_mem {mark : Char} {front : Text} (free : mark ∉ front) :
    ∀ c ∈ front, (c != mark) = true :=
  fun _ member => bne_iff_ne.mpr fun same => free (same ▸ member)

theorem takeWhile_mark {mark : Char} {front : Text} (back : Text) (free : mark ∉ front) :
    (front ++ mark :: back).takeWhile (· != mark) = front ∧
    (front ++ mark :: back).dropWhile (· != mark) = mark :: back := by
  have solid := bne_of_not_mem free
  constructor
  · rw [List.takeWhile_append_of_pos solid, List.takeWhile_cons_of_neg (by simp), List.append_nil]
  · rw [List.dropWhile_append_of_pos solid, List.dropWhile_cons_of_neg (by simp)]

theorem words_rdropWhile (text : Text) : words isSpace (text.rdropWhile isSpace) = words isSpace text := by
  induction text using List.reverseRecOn with
  | nil => rfl
  | append_singleton text c ih =>
    rw [List.rdropWhile_concat]
    split
    next blank => rw [ih, words_append_blank text blank]
    next => rfl

theorem words_strip (text : Text) : words isSpace (strip text) = words isSpace text := by
  rw [strip, words_rdropWhile, words_dropWhile]

/-- `^hosts\s*` up to the colon, in words. -/
theorem words_eq_hosts {head : Text} (begins : ∀ c ∈ head.head?, isSpace c = false) :
    words isSpace head = [hosts] ↔ hosts <+: head ∧ (head.drop hosts.length).all isSpace = true := by
  constructor
  · intro single
    induction head using runs_induction isSpace with
    | nil => cases single
    | skip sep rest separates _ =>
      rw [begins sep rfl] at separates
      cases separates
    | run run rest nonempty solid ends _ =>
      rw [words_run nonempty solid ends] at single
      obtain ⟨rfl, none⟩ := List.cons.inj single
      refine ⟨List.prefix_append _ _, ?_⟩
      exact List.all_eq_true.mpr (words_eq_nil.mp none)
  · rintro ⟨⟨rest, rfl⟩, blanks⟩
    rw [List.drop_left, List.all_eq_true] at blanks
    have ends : ∀ c ∈ rest.head?, isSpace c = true := fun c head => blanks c (List.mem_of_mem_head? head)
    have solid : ∀ c ∈ hosts, isSpace c = false := List.all_iff_forall_prop.mp (by decide)
    rw [words_run (by decide) solid ends, words_eq_nil.mpr blanks]

theorem hostsRow_none {row : Text} (free : ':' ∉ row) : hostsRow row = none :=
  if_neg fun all => free all.1

theorem mem_of_mem_strip {text : Text} {c : Char} (member : c ∈ strip text) : c ∈ text :=
  (List.dropWhile_suffix _).subset ((List.rdropWhile_prefix _ _).subset member)

/-- **One line.** Where Python knows no other blanks, the controller sees the clean hosts lines of
the loader, with the same services. -/
theorem controllerLine_eq {line : Text} (known : ∀ c ∈ beforeHash line, isSpace c = true →
    isCSpace c = true) :
    controllerLine line = (reading line).bind fun h => if h.clean then some h.services else none := by
  by_cases colon : ':' ∈ line
  · obtain ⟨head, tail, rfl, free⟩ := List.eq_append_cons_of_mem colon
    have front : beforeColon (head ++ ':' :: tail) = head := (takeWhile_mark tail free).1
    have back : afterColon (head ++ ':' :: tail) = tail := by
      rw [afterColon, (takeWhile_mark tail free).2]; rfl
    rw [controllerLine, reading, lineServices, front, back]
    by_cases hash : '#' ∈ head
    · -- the comment begins before the colon: there is no colon left for the controller
      have hidden : ':' ∉ strip (beforeHash (head ++ ':' :: tail)) := by
        obtain ⟨before, after, rfl, first⟩ := List.eq_append_cons_of_mem hash
        rw [List.append_assoc, List.cons_append, beforeHash, (takeWhile_mark _ first).1]
        exact fun member => free (List.mem_append_left _ (mem_of_mem_strip member))
      rw [hostsRow_none hidden]
      split
      · simp [hash]
      · rfl
    · have cut : beforeHash (head ++ ':' :: tail) = head ++ ':' :: beforeHash tail := by
        rw [beforeHash, List.takeWhile_append_of_pos (bne_of_not_mem hash),
          List.takeWhile_cons_of_pos (by decide)]
        rfl
      have free' : ':' ∉ head.dropWhile isSpace :=
        fun member => free ((List.dropWhile_suffix _).subset member)
      rw [cut] at known
      have inHead := words_same fun c member => known c (List.mem_append_left _ member)
      have inTail := words_same fun c member =>
        known c (List.mem_append_right _ (List.mem_cons_of_mem _ member))
      have begins : ∀ c ∈ (head.dropWhile isSpace).head?, isSpace c = false := by
        intro c first
        have stops := List.head?_dropWhile_not isSpace head
        rw [Option.mem_def.mp first] at stops
        simpa using stops
      have test := words_eq_hosts begins
      rw [words_dropWhile, inHead] at test
      rw [cut, strip_colon, hostsRow, beforeColon, afterColon, (takeWhile_mark _ free').1,
        (takeWhile_mark _ free').2]
      by_cases only : words isCSpace head = [hosts]
      · rw [if_pos ⟨by simp, test.mp only⟩]
        simp only [only, List.mem_append, List.mem_cons, true_or, or_true, and_true, if_true, hash,
          List.head?_cons,
          Option.map_some, not_false_eq_true, decide_true, Option.bind_some, List.drop_succ_cons,
          List.drop_zero, if_false]
        rw [words_strip, words_rdropWhile, inTail]
      · rw [if_neg fun all => only (test.mpr all.2)]
        simp only [only, and_false, Option.map_none]
        split
        · simp
        · rfl
  · have hidden : ':' ∉ strip (beforeHash line) := fun member =>
      colon ((List.takeWhile_prefix _).subset (mem_of_mem_strip member))
    rw [controllerLine, hostsRow_none hidden, reading, if_neg fun both => colon both.1]
    rfl

/-! ## The pieces of a line -/

theorem strip_blanks_append {blanks : Text} (all : ∀ c ∈ blanks, isSpace c = true) (text : Text) :
    strip (blanks ++ text) = strip text := by
  rw [strip, List.dropWhile_append_of_pos all, strip]

theorem strip_append_blanks {text blanks : Text} (all : ∀ c ∈ blanks, isSpace c = true) :
    strip (text ++ blanks) = strip text := by
  have back : ∀ front : Text, (front ++ blanks).rdropWhile isSpace = front.rdropWhile isSpace := by
    intro front
    rw [List.rdropWhile, List.reverse_append, List.dropWhile_append_of_pos fun c member =>
      all c (List.mem_reverse.mp member)]
    rfl
  rw [strip, strip, List.dropWhile_append]
  split
  next none =>
    rw [List.isEmpty_iff.mp none, List.dropWhile_eq_nil_iff.mpr all]
  next => exact back _

theorem eq_strip (text : Text) : ∃ front back : Text, text = front ++ (strip text ++ back) ∧
    (∀ c ∈ front, isSpace c = true) ∧ ∀ c ∈ back, isSpace c = true := by
  refine ⟨text.takeWhile isSpace, ((text.dropWhile isSpace).reverse.takeWhile isSpace).reverse, ?_,
    fun c => List.mem_takeWhile_imp, fun c member => List.mem_takeWhile_imp (List.mem_reverse.mp member)⟩
  rw [strip, List.rdropWhile, ← List.reverse_append, List.takeWhile_append_dropWhile, List.reverse_reverse,
    List.takeWhile_append_dropWhile]

theorem beforeHash_append_hash (line rest : Text) : beforeHash (line ++ '#' :: rest) = beforeHash line := by
  rw [beforeHash, List.takeWhile_append]
  split
  next whole =>
    rw [List.takeWhile_cons_of_neg (by decide), List.append_nil]
    exact ((List.takeWhile_prefix _).eq_of_length whole).symm
  next => rfl

theorem controllerLine_before (c : Char) (line : Text) (blank : isSpace c = true) :
    controllerLine (c :: line) = controllerLine line := by
  have visible : (c != '#') = true := by
    rw [bne_iff_ne]
    rintro rfl
    cases blank
  have row : beforeHash (c :: line) = [c] ++ beforeHash line :=
    List.takeWhile_cons_of_pos (p := (· != '#')) visible
  rw [controllerLine, row, strip_blanks_append (by simpa using blank), controllerLine]

theorem controllerLine_after (line : Text) (c : Char) (blank : isSpace c = true) :
    controllerLine (line ++ [c]) = controllerLine line := by
  rw [controllerLine, beforeHash, List.takeWhile_append]
  split
  next whole =>
    rw [strip_append_blanks fun d member => ?_, controllerLine, beforeHash,
      (List.takeWhile_prefix _).eq_of_length whole]
    rwa [List.mem_singleton.mp ((List.takeWhile_prefix _).subset member)]
  next => rfl

theorem controllerLine_nil : controllerLine [] = none := rfl

/-- The text before the comment counts, without the blanks around it. -/
theorem controllerLine_strip (line : Text) :
    controllerLine (strip (beforeHash line)) = controllerLine line := by
  have text : beforeHash (strip (beforeHash line)) = strip (beforeHash line) :=
    List.takeWhile_eq_self_iff.mpr fun c member =>
      List.mem_takeWhile_imp (p := (· != '#')) (mem_of_mem_strip member)
  obtain ⟨front, back, shape, first, last⟩ := eq_strip (beforeHash line)
  have twice := congrArg strip shape
  rw [strip_blanks_append first, strip_append_blanks last] at twice
  rw [controllerLine, text, ← twice, controllerLine]

/-- A comment without hosts lines closes the open line. -/
theorem filterMap_comment {line : Text}
    (quiet : ∀ piece ∈ splitLines (line.dropWhile (· != '#')), controllerLine piece = none) (piece : Text) :
    (linesFrom piece (line.dropWhile (· != '#'))).filterMap controllerLine =
      (controllerLine piece).toList := by
  have begins := List.head?_dropWhile_not (· != '#') line
  cases rest : line.dropWhile (· != '#') with
  | nil => exact filterMap_linesFrom_nil controllerLine_nil piece
  | cons c note =>
    rw [rest] at begins quiet
    obtain rfl : c = '#' := by simpa using begins
    refine filterMap_linesFrom_mark controllerLine_nil (fun line rest => ?_) (by decide)
      (List.filterMap_eq_nil_iff.mpr quiet) piece
    rw [controllerLine, beforeHash_append_hash, controllerLine]

/-- The controller reads a spaced line as if no line end stood in it. -/
theorem Spaced.pieces {line : Text} (spaced : Spaced line) :
    (splitLines line).filterMap controllerLine = (controllerLine line).toList := by
  obtain ⟨-, solid, quiet⟩ := spaced
  obtain ⟨front, back, shape, first, last⟩ := eq_strip (beforeHash line)
  have cut : front ++ (strip (beforeHash line) ++ (back ++ line.dropWhile (· != '#'))) = line := by
    rw [← List.append_assoc _ back, ← List.append_assoc, ← shape]
    exact List.takeWhile_append_dropWhile
  have skipped := filterMap_splitLines_skip controllerLine_nil controllerLine_before first
    (strip (beforeHash line) ++ (back ++ line.dropWhile (· != '#')))
  rw [cut, splitLines, splitLines, filterMap_linesFrom_run controllerLine_nil solid, List.nil_append,
    filterMap_linesFrom_blanks controllerLine_nil controllerLine_after last (filterMap_comment quiet),
    controllerLine_strip] at skipped
  exact skipped

/-- **One line between line feeds.** What the controller finds on its pieces is what the loader's
line is, if it is clean. -/
theorem pieces_eq {line : Text} (spaced : Shows line → Spaced line) :
    (splitLines line).filterMap controllerLine =
      ((reading line).bind fun h => if h.clean then some h.services else none).toList := by
  by_cases shown : Shows line
  · rw [(spaced shown).pieces, controllerLine_eq (spaced shown).1]
  · obtain ⟨loader, controller⟩ := not_or.mp shown
    have none_ : ∀ piece ∈ splitLines line, controllerLine piece = none := by
      intro piece member
      exact not_not.mp fun taken => controller ⟨piece, member, taken⟩
    rw [List.filterMap_eq_nil_iff.mpr none_, not_not.mp loader]
    rfl

/-! ## The texts -/

/-- The lines the controller takes. -/
def cleanLines (text : Text) : List Hosts :=
  (hostsLines text).filter Hosts.clean

/-- The services only the loader sees. -/
def hidden (text : Text) : List Text :=
  ((hostsLines text).filter fun h => !h.clean).flatMap Hosts.services

theorem validateNss_eq {text : Text} (ordinary : Ordinary text) :
    validateNss text = true ↔ ∃ h, cleanLines text = [h] ∧ join h.services ∈ supported := by
  -- the services of the two lists of rows, in words
  have rows : (((splitLines text).map fun line => strip (beforeHash line)).filterMap hostsRow).map
      (words isSpace) = (cleanLines text).map Hosts.services := by
    rw [List.filterMap_map, List.map_filterMap]
    show (splitLines text).filterMap controllerLine = _
    rw [filterMap_splitLines controllerLine_nil, cleanLines, hostsLines]
    unfold Ordinary at ordinary
    generalize getlines text = lines at ordinary ⊢
    induction lines with
    | nil => rfl
    | cons line lines ih =>
      rw [List.flatMap_cons, pieces_eq (ordinary line List.mem_cons_self),
        ih fun line member => ordinary line (List.mem_cons_of_mem _ member), List.filterMap_cons]
      cases reading line with
      | none => rfl
      | some h =>
        obtain ⟨clean, services⟩ := h
        cases clean <;> rfl
  have accepts (list : List Text) : (match list with
      | [services] => decide (join (words isSpace services) ∈ supported)
      | _ => false) = true ↔ ∃ row, list.map (words isSpace) = [row] ∧ join row ∈ supported := by
    rcases list with _ | ⟨services, _ | ⟨other, list⟩⟩ <;> simp
  rw [validateNss, accepts, rows]
  simp only [List.map_eq_singleton_iff]
  constructor
  · rintro ⟨_, ⟨h, single, rfl⟩, accepted⟩
    exact ⟨h, single, accepted⟩
  · rintro ⟨h, single, accepted⟩
    exact ⟨_, ⟨h, single, rfl⟩, accepted⟩

/-- The two accepted lists of services. -/
def Supported (services : List Text) : Prop :=
  services = ["files".toList, "dns".toList] ∨
    services = ["files".toList, "mdns4_minimal".toList, "[NOTFOUND=return]".toList, "dns".toList]

theorem join_supported {services : List Text}
    (solid : ∀ word ∈ services, word ≠ [] ∧ ∀ c ∈ word, isCSpace c = false) :
    join services ∈ supported ↔ Supported services := by
  have separates : isCSpace ' ' = true := rfl
  have back := words_intercalate separates solid
  constructor
  · intro member
    rcases List.mem_pair.mp member with same | same
    · rw [← back, show [' '].intercalate services = _ from same]
      exact .inl (by decide)
    · rw [← back, show [' '].intercalate services = _ from same]
      exact .inr (by decide)
  · rintro (rfl | rfl) <;> decide

theorem solid_services {text : Text} {h : Hosts} (member : h ∈ hostsLines text) :
    ∀ word ∈ h.services, word ≠ [] ∧ ∀ c ∈ word, isCSpace c = false := by
  obtain ⟨line, -, read⟩ := List.mem_filterMap.mp member
  unfold reading at read
  split at read
  next taken =>
    cases read
    rw [lineServices, if_pos taken]
    exact fun word inside => solid_of_mem_words inside
  next => cases read

/-- A supported list within another one is the whole of it. -/
theorem supported_within {front services back : List Text} (inner : Supported services)
    (whole : Supported (front ++ services ++ back)) : front ++ back = [] := by
  have lengths : ∀ {list : List Text}, front ++ services ++ back = list →
      front.length + services.length + back.length = list.length := by
    rintro _ rfl
    rw [List.length_append, List.length_append]
  have empty : front.length + back.length = 0 → front ++ back = [] := fun none =>
    List.length_eq_zero_iff.mp (by rw [List.length_append, none])
  rcases inner with rfl | rfl <;> rcases whole with same | same <;>
    have sum := lengths same <;> simp only [List.length_cons, List.length_nil] at sum
  · exact empty (by omega)
  · -- `files dns` stands nowhere in the longer list
    have inside : ["files".toList, "dns".toList] <:+: _ := ⟨front, back, same⟩
    exact absurd inside (by decide)
  · omega
  · exact empty (by omega)

/-- On hosts lines both know the same blanks and line ends, there is at most one clean hosts line,
and any other hosts line adds no services. -/
structure Orderly (text : Text) : Prop where
  ordinary : Ordinary text
  single : (cleanLines text).length ≤ 1
  shown : hidden text = []

instance (text : Text) : Decidable (Orderly text) :=
  decidable_of_iff (Ordinary text ∧ (cleanLines text).length ≤ 1 ∧ hidden text = [])
    ⟨fun ⟨a, b, c⟩ => ⟨a, b, c⟩, fun ⟨a, b, c⟩ => ⟨a, b, c⟩⟩

/-- The one clean line and the services around it. -/
theorem services_around {text : Text} {h : Hosts} (single : cleanLines text = [h]) :
    ∃ front back : List Text, (hostsLines text).flatMap Hosts.services = front ++ h.services ++ back ∧
      hidden text = front ++ back := by
  obtain ⟨before, after, shape, unclean, clean, none⟩ := List.filter_eq_cons_iff.mp single
  have unclean' : ∀ x ∈ after, ¬x.clean = true := fun x member => List.filter_eq_nil_iff.mp none x member
  refine ⟨before.flatMap Hosts.services, after.flatMap Hosts.services, ?_, ?_⟩
  · rw [shape, List.flatMap_append, List.flatMap_cons, List.append_assoc]
  · have keep : ∀ list : List Hosts, (∀ x ∈ list, ¬x.clean = true) → (list.filter fun x => !x.clean) = list :=
      fun list all => List.filter_eq_self.mpr fun x member => by simp [all x member]
    rw [hidden, shape, List.filter_append, keep before unclean, List.filter_cons, clean, Bool.not_true,
      if_neg (by decide), keep after unclean', List.flatMap_append]

theorem services_of_none {text : Text} (none : cleanLines text = []) :
    (hostsLines text).flatMap Hosts.services = hidden text := by
  rw [hidden, List.filter_eq_self.mpr fun h member => by simpa using List.filter_eq_nil_iff.mp none h member]

theorem solid_all (text : Text) :
    ∀ word ∈ (hostsLines text).flatMap Hosts.services, word ≠ [] ∧ ∀ c ∈ word, isCSpace c = false := by
  intro word inside
  obtain ⟨row, among, inRow⟩ := List.mem_flatMap.mp inside
  exact solid_services among word inRow

/-- **Agreement.** The two checks agree on every orderly text; and of the texts whose hosts lines
are spaced, no other is accepted by both. -/
theorem checks_agree (text : Text) :
    (Orderly text → (validateNss text = true ↔ readyPreflight text = true)) ∧
    (Ordinary text → validateNss text = true → readyPreflight text = true → Orderly text) := by
  constructor
  · rintro ⟨ordinary, single, shown⟩
    rw [validateNss_eq ordinary, readyPreflight_eq]
    cases found : cleanLines text with
    | nil =>
      rw [services_of_none found, shown]
      simp only [reduceCtorEq, false_and, exists_false, false_iff]
      decide
    | cons h others =>
      rw [found, List.length_cons] at single
      obtain rfl : others = [] := List.length_eq_zero_iff.mp (by omega)
      obtain ⟨front, back, whole, extra⟩ := services_around found
      obtain ⟨rfl, rfl⟩ := List.append_eq_nil_iff.mp (extra.symm.trans shown)
      rw [whole, List.nil_append, List.append_nil]
      exact ⟨fun ⟨h', same, accepted⟩ => (List.cons.inj same).1 ▸ accepted,
        fun accepted => ⟨h, rfl, accepted⟩⟩
  · intro ordinary controller loader
    obtain ⟨h, found, inner⟩ := (validateNss_eq ordinary).mp controller
    obtain ⟨front, back, whole, extra⟩ := services_around found
    have member : h ∈ hostsLines text :=
      (List.mem_filter.mp (found ▸ List.mem_singleton_self h : h ∈ cleanLines text)).1
    rw [readyPreflight_eq, join_supported (solid_all text), whole] at loader
    rw [join_supported (solid_services member)] at inner
    exact ⟨ordinary, by rw [found]; exact Nat.le_refl 1, extra.trans (supported_within inner loader)⟩

/-! ## Poles -/

def usualText : Text := "passwd:\u00a0files\r\n# hosts(5)\r\n\x0chosts:\tfiles dns # order\r\n".toList
def repeatedText : Text := "hosts: files\nhosts: dns\n".toList

/-- A text with line ends of Python around its lines is orderly and accepted by both; a repeated line
is not. -/
theorem checks_agree_usual :
    Orderly usualText ∧ validateNss usualText = true ∧ readyPreflight usualText = true ∧
      Ordinary repeatedText ∧ ¬Orderly repeatedText ∧
      ¬(validateNss repeatedText = true ∧ readyPreflight repeatedText = true) := by
  have orderly : Orderly usualText := by decide +kernel
  have accepted : validateNss usualText = true := by decide +kernel
  have ordinary : Ordinary repeatedText := by decide +kernel
  have disorderly : ¬Orderly repeatedText := by decide +kernel
  exact ⟨orderly, accepted, ((checks_agree usualText).1 orderly).mp accepted, ordinary, disorderly,
    fun both => disorderly ((checks_agree repeatedText).2 ordinary both.1 both.2)⟩

/-- Accepted by the loader alone: a repeated line, a word before the colon, a comment before the
colon, a line end that only Python knows. Accepted by the controller alone: a second line with a
word before the colon, a blank that only Python knows. -/
theorem checks_disagree :
    (readyPreflight repeatedText = true ∧ validateNss repeatedText = false) ∧
    (readyPreflight "hosts extra: files dns\n".toList = true ∧
      validateNss "hosts extra: files dns\n".toList = false) ∧
    (readyPreflight "hosts # order: files dns\n".toList = true ∧
      validateNss "hosts # order: files dns\n".toList = false) ∧
    (readyPreflight "hosts: files\x0bdns\n".toList = true ∧
      validateNss "hosts: files\x0bdns\n".toList = false) ∧
    (readyPreflight "hosts: files dns\nhosts old: nis\n".toList = false ∧
      validateNss "hosts: files dns\nhosts old: nis\n".toList = true) ∧
    (readyPreflight "hosts: files\u00a0dns\n".toList = false ∧
      validateNss "hosts: files\u00a0dns\n".toList = true) := by
  decide +kernel

end ProgramSplit.Linux.NameService
