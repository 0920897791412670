/-
# Lib.PyText — lines and blanks of Python's text strings

`str.splitlines` ends a line at more characters than a line feed, and `str.split`, `str.strip` and
`\s` of `re` take more characters for blanks than ASCII has.

* `filterMap_splitLines` — reading the lines between line feeds one after another, each in its own
  pieces, reads the lines of the text;
* `filterMap_splitLines_skip`, `filterMap_linesFrom_blanks` — line ends among the blanks around what is read do
  not matter.
-/
import ProgramSplit.Lib.Words

namespace ProgramSplit.Lib.PyText

set_option autoImplicit false

abbrev Text := List Char

/-- The line ends of `splitlines`. -/
def isBreak (c : Char) : Bool :=
  c.toNat ∈ [0x0a, 0x0b, 0x0c, 0x0d, 0x1c, 0x1d, 0x1e, 0x85, 0x2028, 0x2029]

/-- `str.isspace` of one character. -/
def isSpace (c : Char) : Bool :=
  isBreak c || c.toNat ∈ [0x09, 0x1f, 0x20, 0xa0, 0x1680, 0x202f, 0x205f, 0x3000] ||
    (0x2000 ≤ c.toNat && c.toNat ≤ 0x200a)

/-- `splitlines` behind the characters of an open line. -/
def linesFrom : Text → Text → List Text
  | line, [] => if line = [] then [] else [line]
  | line, '\r' :: '\n' :: rest => line :: linesFrom [] rest
  | line, c :: rest => if isBreak c then line :: linesFrom [] rest else linesFrom (line ++ [c]) rest

def splitLines (text : Text) : List Text :=
  linesFrom [] text

/-- `std::getline` until it fails: the lines between line feeds. -/
def getlines (text : Text) : List Text :=
  let lines := text.splitOn '\n'
  if lines.getLastD [] = [] then lines.dropLast else lines

theorem getlines_cons {line rest : Text} (single : '\n' ∉ line) :
    getlines (line ++ '\n' :: rest) = line :: getlines rest := by
  obtain ⟨first, others, shape⟩ := List.exists_cons_of_ne_nil (List.splitOn_ne_nil '\n' rest)
  unfold getlines
  rw [List.splitOn_append_cons_self_of_not_mem single, shape]
  simp only [List.getLastD_cons, List.dropLast_cons_of_ne_nil (List.cons_ne_nil first others)]
  split <;> rfl

section Reading

variable {B : Type} {f : Text → Option B} (empty : f [] = none)
include empty

theorem filterMap_linesFrom_nil (line : Text) : (linesFrom line []).filterMap f = (f line).toList := by
  rw [linesFrom]
  split
  next none => rw [none, empty]; rfl
  next => cases read : f line <;> simp [read]

/-- A carriage return with its line feed is one line end; taken for two, they leave an empty line. -/
theorem filterMap_linesFrom_cons (line : Text) (c : Char) (rest : Text) :
    (linesFrom line (c :: rest)).filterMap f =
      if isBreak c then (f line).toList ++ (splitLines rest).filterMap f
      else (linesFrom (line ++ [c]) rest).filterMap f := by
  have closed (later : List Text) : (line :: later).filterMap f = (f line).toList ++ later.filterMap f := by
    cases read : f line <;> simp [read]
  by_cases paired : c = '\r' ∧ rest.head? = some '\n'
  · obtain ⟨rfl, head⟩ := paired
    obtain ⟨rest, rfl⟩ := List.head?_eq_some_iff.mp head
    have two : splitLines ('\n' :: rest) = [] :: splitLines rest := rfl
    rw [linesFrom, closed, if_pos (by decide), two, List.filterMap_cons, empty]
    rfl
  · rw [linesFrom]
    · split
      · exact closed _
      · rfl
    · rintro rest' rfl rfl
      exact paired ⟨rfl, rfl⟩

/-- A line feed ends the piece it finds open. -/
theorem filterMap_linesFrom_feed (line text rest : Text) :
    (linesFrom line (text ++ '\n' :: rest)).filterMap f =
      (linesFrom line text).filterMap f ++ (splitLines rest).filterMap f := by
  induction text generalizing line with
  | nil =>
    rw [List.nil_append, filterMap_linesFrom_cons empty, if_pos (by decide), filterMap_linesFrom_nil empty]
  | cons c text ih =>
    rw [List.cons_append, filterMap_linesFrom_cons empty, filterMap_linesFrom_cons empty]
    split
    · rw [splitLines, ih, List.append_assoc]
      rfl
    · exact ih _

/-- The lines of a text, read between its line feeds. -/
theorem filterMap_splitLines (text : Text) :
    (splitLines text).filterMap f = (getlines text).flatMap fun line => (splitLines line).filterMap f := by
  induction text using Words.lines_induction '\n' with
  | last line single =>
    rw [getlines, List.splitOn_eq_singleton single]
    by_cases none : line = []
    · subst none
      rfl
    · simp [none]
  | step line rest single ih =>
    rw [splitLines, filterMap_linesFrom_feed empty, ih, getlines_cons single, List.flatMap_cons]
    rfl

/-- A run without a line end joins the open line. -/
theorem filterMap_linesFrom_run {run : Text} (solid : ∀ c ∈ run, isBreak c = false) (line rest : Text) :
    (linesFrom line (run ++ rest)).filterMap f = (linesFrom (line ++ run) rest).filterMap f := by
  induction run generalizing line with
  | nil => rw [List.nil_append, List.append_nil]
  | cons c run ih =>
    rw [List.cons_append, filterMap_linesFrom_cons empty, solid c List.mem_cons_self,
      if_neg Bool.false_ne_true, ih fun c member => solid c (List.mem_cons_of_mem _ member),
      List.append_assoc, List.singleton_append]

/-- Blanks, line ends or not, before all that is read. -/
theorem filterMap_splitLines_skip (before : ∀ c line, isSpace c = true → f (c :: line) = f line)
    {front : Text} (blanks : ∀ c ∈ front, isSpace c = true) (rest : Text) :
    (splitLines (front ++ rest)).filterMap f = (splitLines rest).filterMap f := by
  have joined {c : Char} (blank : isSpace c = true) (line rest : Text) :
      (linesFrom (c :: line) rest).filterMap f = (linesFrom line rest).filterMap f := by
    induction rest generalizing line with
    | nil => rw [filterMap_linesFrom_nil empty, filterMap_linesFrom_nil empty, before c line blank]
    | cons d rest ih =>
      rw [filterMap_linesFrom_cons empty, filterMap_linesFrom_cons empty, before c line blank]
      split
      · rfl
      · exact ih _
  induction front with
  | nil => rfl
  | cons c front ih =>
    have ih := ih fun c member => blanks c (List.mem_cons_of_mem _ member)
    rw [List.cons_append, splitLines, filterMap_linesFrom_cons empty, empty]
    split
    · exact ih
    · exact (joined (blanks c List.mem_cons_self) [] _).trans ih

/-- Blanks, line ends or not, behind all that is read. -/
theorem filterMap_linesFrom_blanks (after : ∀ line c, isSpace c = true → f (line ++ [c]) = f line)
    {blanks rest : Text} (all : ∀ c ∈ blanks, isSpace c = true)
    (quiet : ∀ line, (linesFrom line rest).filterMap f = (f line).toList) (line : Text) :
    (linesFrom line (blanks ++ rest)).filterMap f = (f line).toList := by
  induction blanks generalizing line with
  | nil => exact quiet line
  | cons c blanks ih =>
    have ih := ih fun c member => all c (List.mem_cons_of_mem _ member)
    rw [List.cons_append, filterMap_linesFrom_cons empty]
    split
    · rw [splitLines, ih, empty]
      exact List.append_nil _
    · rw [ih, after line c (all c List.mem_cons_self)]

/-- A mark behind which a line is not read. -/
theorem filterMap_linesFrom_mark {mark : Char} (cut : ∀ line rest, f (line ++ mark :: rest) = f line)
    (solid : isBreak mark = false) {rest : Text} (none : (splitLines (mark :: rest)).filterMap f = [])
    (line : Text) : (linesFrom line (mark :: rest)).filterMap f = (f line).toList := by
  have behind (note : Text) : (linesFrom (line ++ mark :: note) rest).filterMap f =
      (f line).toList ++ (linesFrom (mark :: note) rest).filterMap f := by
    have alone (note : Text) : f (mark :: note) = .none := (cut [] note).trans empty
    clear none
    induction rest generalizing note with
    | nil =>
      rw [filterMap_linesFrom_nil empty, filterMap_linesFrom_nil empty, cut, alone]
      exact (List.append_nil _).symm
    | cons c rest ih =>
      rw [filterMap_linesFrom_cons empty, filterMap_linesFrom_cons empty, cut, alone]
      split
      · rfl
      · rw [List.append_assoc]
        exact ih _
  rw [splitLines, filterMap_linesFrom_cons empty, solid, if_neg Bool.false_ne_true, List.nil_append] at none
  rw [filterMap_linesFrom_cons empty, solid, if_neg Bool.false_ne_true, behind, none, List.append_nil]

end Reading

end ProgramSplit.Lib.PyText
