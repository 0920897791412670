/-
# Lib.Words — texts cut at separators

The words of a text are the longest runs outside the separators. A reader that gets its text piece by
piece, or line by line, finds the same words.

* `words_append_cons` — a separator cuts the words of a text in two;
* `runs_induction` — induction over a text as separators and runs;
* `words_intercalate` — words behind single separators come back;
* `flatMap_words_splitOn` — reading the lines one after another reads the words of the text;
* `splitOn_append` — a text cut anywhere: the last line of the front goes on in the back;
* `open_line_of_append` — the line a front leaves open is the beginning of a line of the text;
* `foldlM_flatMap` — a fold with failures over lines of words is one over the words.
-/
import Mathlib.Data.List.Basic
import Mathlib.Data.List.TakeWhile

namespace ProgramSplit.Lib.Words

set_option autoImplicit false

/-- ASCII text as bytes. -/
def ascii (text : String) : List UInt8 :=
  text.toList.map fun c => UInt8.ofNat c.toNat

variable {A : Type}

/-- The longest runs without a separator. -/
def words (blank : A → Bool) (text : List A) : List (List A) :=
  (text.splitOnP blank).filter (!·.isEmpty)

section Cut

variable {blank : A → Bool}

@[simp] theorem words_nil : words blank [] = [] := rfl

theorem words_append_cons (front back : List A) {sep : A} (separates : blank sep = true) :
    words blank (front ++ sep :: back) = words blank front ++ words blank back := by
  unfold words
  rw [List.splitOnP_append_cons front back separates, List.filter_append]

theorem words_cons_blank (back : List A) {sep : A} (separates : blank sep = true) :
    words blank (sep :: back) = words blank back :=
  words_append_cons [] back separates

/-- A text without a separator is one word. -/
theorem words_solid {text : List A} (nonempty : text ≠ []) (solid : ∀ a ∈ text, blank a = false) :
    words blank text = [text] := by
  unfold words
  rw [List.splitOnP_eq_singleton solid]
  simp [nonempty]

theorem words_append_blank (front : List A) {sep : A} (separates : blank sep = true) :
    words blank (front ++ [sep]) = words blank front := by
  rw [words_append_cons front [] separates, words_nil, List.append_nil]

/-- A run up to a separator or to the end of the text is its first word. -/
theorem words_run {run rest : List A} (nonempty : run ≠ []) (solid : ∀ a ∈ run, blank a = false)
    (ends : ∀ a ∈ rest.head?, blank a = true) : words blank (run ++ rest) = run :: words blank rest := by
  cases rest with
  | nil => rw [List.append_nil, words_solid nonempty solid, words_nil]
  | cons sep rest =>
    have separates : blank sep = true := ends sep rfl
    rw [words_append_cons run rest separates, words_solid nonempty solid, words_cons_blank rest separates,
      List.singleton_append]

/-- Induction over a text as separators and runs. -/
theorem runs_induction (blank : A → Bool) {motive : List A → Prop} (nil : motive [])
    (skip : ∀ sep rest, blank sep = true → motive rest → motive (sep :: rest))
    (run : ∀ run rest, run ≠ [] → (∀ a ∈ run, blank a = false) →
      (∀ a ∈ rest.head?, blank a = true) → motive rest →
      motive (run ++ rest)) (text : List A) : motive text := by
  induction length : text.length using Nat.strongRecOn generalizing text with
  | _ n ih =>
    cases text with
    | nil => exact nil
    | cons a rest =>
      cases separates : blank a with
      | true => exact skip a rest separates (ih rest.length (by simp at length; omega) rest rfl)
      | false =>
        have cut := List.takeWhile_append_dropWhile (p := fun a => !blank a) (l := a :: rest)
        have first : (a :: rest).takeWhile (fun a => !blank a) = a :: rest.takeWhile fun a => !blank a := by
          simp [separates]
        rw [← cut]
        apply run
        · simp [first]
        · intro b member
          simpa using List.mem_takeWhile_imp member
        · intro b head
          have stops := List.head?_dropWhile_not (fun a => !blank a) (a :: rest)
          rw [Option.mem_def.mp head] at stops
          simpa using stops
        · refine ih _ ?_ _ rfl
          have sum := congrArg List.length cut
          rw [List.length_append, first, List.length_cons] at sum
          omega

theorem words_eq_nil {text : List A} : words blank text = [] ↔ ∀ a ∈ text, blank a = true := by
  induction text using runs_induction blank with
  | nil => simp
  | skip sep rest separates ih => simp [words_cons_blank rest separates, ih, separates]
  | run run rest nonempty solid ends ih =>
    rw [words_run nonempty solid ends]
    obtain ⟨a, run, rfl⟩ := List.exists_cons_of_ne_nil nonempty
    simp [solid a]

theorem solid_of_mem_words {text word : List A} (member : word ∈ words blank text) :
    word ≠ [] ∧ ∀ a ∈ word, blank a = false := by
  induction text using runs_induction blank with
  | nil => cases member
  | skip sep rest separates ih => exact ih (words_cons_blank rest separates ▸ member)
  | run run rest nonempty solid ends ih =>
    rw [words_run nonempty solid ends] at member
    rcases List.mem_cons.mp member with rfl | later
    · exact ⟨nonempty, solid⟩
    · exact ih later

/-- Two notions of a separator that agree on a text give the same words. -/
theorem words_congr {other : A → Bool} {text : List A} (same : ∀ a ∈ text, blank a = other a) :
    words blank text = words other text := by
  induction text using runs_induction blank with
  | nil => rfl
  | skip sep rest separates ih =>
    rw [words_cons_blank rest separates,
      words_cons_blank rest ((same sep List.mem_cons_self).symm.trans separates),
      ih fun a member => same a (List.mem_cons_of_mem _ member)]
  | run run rest nonempty solid ends ih =>
    have inRun : ∀ a ∈ run, other a = false := fun a member =>
      (same a (List.mem_append_left _ member)).symm.trans (solid a member)
    have inRest : ∀ a ∈ rest.head?, other a = true := fun a head =>
      (same a (List.mem_append_right _ (List.mem_of_mem_head? head))).symm.trans (ends a head)
    rw [words_run nonempty solid ends, words_run nonempty inRun inRest,
      ih fun a member => same a (List.mem_append_right _ member)]

theorem words_dropWhile (text : List A) : words blank (text.dropWhile blank) = words blank text := by
  induction text with
  | nil => rfl
  | cons a text ih =>
    rw [List.dropWhile_cons]
    split
    next separates => rw [ih, words_cons_blank text separates]
    next => rfl

/-- Words behind single separators come back. -/
theorem words_intercalate {sep : A} (separates : blank sep = true) {list : List (List A)}
    (solid : ∀ word ∈ list, word ≠ [] ∧ ∀ a ∈ word, blank a = false) :
    words blank ([sep].intercalate list) = list := by
  induction list with
  | nil => rfl
  | cons word list ih =>
    have first := solid word List.mem_cons_self
    have others := ih fun w member => solid w (List.mem_cons_of_mem _ member)
    cases list with
    | nil => simpa [List.intercalate] using words_solid first.1 first.2
    | cons next list =>
      rw [show [sep].intercalate (word :: next :: list) = word ++ sep :: [sep].intercalate (next :: list) by
        simp [List.intercalate], words_append_cons _ _ separates, others, words_solid first.1 first.2,
        List.singleton_append]

end Cut

/-! ## Lines -/

section Lines

variable {feed : A}

/-- Induction over the lines of a text. -/
theorem lines_induction (feed : A) {motive : List A → Prop} (last : ∀ line, feed ∉ line → motive line)
    (step : ∀ line rest, feed ∉ line → motive rest → motive (line ++ feed :: rest))
    (text : List A) : motive text := by
  induction length : text.length using Nat.strongRecOn generalizing text with
  | _ n ih =>
    by_cases member : feed ∈ text
    · obtain ⟨front, back, rfl, first⟩ := List.eq_append_cons_of_mem member
      exact step front back first (ih back.length (by simp at length; omega) back rfl)
    · exact last text member

theorem dropLast_append_getLastD {lines : List (List A)} (nonempty : lines ≠ []) :
    lines.dropLast ++ [lines.getLastD []] = lines := by
  rw [List.getLastD_eq_getLast?, List.getLast?_eq_some_getLast nonempty, Option.getD_some,
    List.dropLast_concat_getLast nonempty]

variable [DecidableEq A]

theorem flatMap_words_splitOn {blank : A → Bool} (separates : blank feed = true) (text : List A) :
    (text.splitOn feed).flatMap (words blank) = words blank text := by
  induction text using lines_induction feed with
  | last line single => rw [List.splitOn_eq_singleton single, List.flatMap_singleton]
  | step line rest single ih =>
    rw [List.splitOn_append_cons_self_of_not_mem single, List.flatMap_cons, ih,
      words_append_cons _ _ separates]

theorem not_mem_of_mem_splitOn {text line : List A} (member : line ∈ text.splitOn feed) : feed ∉ line := by
  induction text using lines_induction feed with
  | last whole single =>
    rw [List.splitOn_eq_singleton single] at member
    exact List.mem_singleton.mp member ▸ single
  | step first rest single ih =>
    rw [List.splitOn_append_cons_self_of_not_mem single] at member
    rcases List.mem_cons.mp member with rfl | later
    · exact single
    · exact ih later

/-- The lines of a text that goes on: the last line of the front continues. -/
theorem splitOn_append (feed : A) (front back : List A) :
    (front ++ back).splitOn feed =
      (front.splitOn feed).dropLast ++ ((front.splitOn feed).getLastD [] ++ back).splitOn feed := by
  induction front using lines_induction feed with
  | last line single => simp [List.splitOn_eq_singleton single]
  | step line rest single ih =>
    rw [List.append_assoc, List.cons_append, List.splitOn_append_cons_self_of_not_mem single,
      List.splitOn_append_cons_self_of_not_mem single, ih]
    obtain ⟨head, tail, shape⟩ := List.exists_cons_of_ne_nil (List.splitOn_ne_nil feed rest)
    simp [shape]

/-- The line a front leaves open is the beginning of a line of the text. -/
theorem open_line_of_append (feed : A) (front back : List A) :
    ∃ line ∈ (front ++ back).splitOn feed, (front.splitOn feed).getLastD [] <+: line := by
  induction front using lines_induction feed with
  | last line single =>
    rw [List.splitOn_eq_singleton single]
    by_cases member : feed ∈ back
    · obtain ⟨more, rest, rfl, first⟩ := List.eq_append_cons_of_mem member
      refine ⟨line ++ more, ?_, List.prefix_append line more⟩
      rw [← List.append_assoc, List.splitOn_append_cons_self_of_not_mem (by simp [single, first])]
      exact List.mem_cons_self
    · refine ⟨line ++ back, ?_, List.prefix_append line back⟩
      rw [List.splitOn_eq_singleton (by simp [single, member])]
      exact List.mem_singleton_self _
  | step line rest single ih =>
    obtain ⟨whole, member, begins⟩ := ih
    refine ⟨whole, ?_, ?_⟩
    · rw [List.append_assoc, List.cons_append, List.splitOn_append_cons_self_of_not_mem single]
      exact List.mem_cons_of_mem _ member
    · obtain ⟨head, tail, shape⟩ := List.exists_cons_of_ne_nil (List.splitOn_ne_nil feed rest)
      rw [List.splitOn_append_cons_self_of_not_mem single, shape, List.getLastD_cons]
      rwa [shape] at begins

end Lines

theorem foldlM_flatMap {B S E : Type} (f : A → List B) (step : S → B → Except E S) (rows : List A)
    (state : S) :
    (rows.flatMap f).foldlM step state = rows.foldlM (fun state row => (f row).foldlM step state) state := by
  induction rows generalizing state with
  | nil => rfl
  | cons row rows ih =>
    rw [List.flatMap_cons, List.foldlM_append, List.foldlM_cons]
    congr 1
    funext next
    exact ih next

end ProgramSplit.Lib.Words
