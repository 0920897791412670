/-
# Linux.IptablesText — the text of an iptables dump, and its comments

`_legacy_zones` of `inventory.py`, the sibling of `_legacy_mask`, and what both owe to the
tokenizer they share. `printRecords` prints records as libxtables does: a plain token as
it is, a quoted one between double quotes with `"`, `\` and `'` escaped.

* `iptablesRecords_print` — the tokenizer returns the printed tokens with their flags;
* `Recommented` — two records that differ only in quoted texts right after `--comment`;
* `recordsBits_recommented`, `recordsZones_recommented` — neither reader tells them apart,
  in what it returns or in what it refuses;
* `empty_plain_token_lost` — a plain token without a character leaves no trace in the text.
-/
import Mathlib.Data.Bool.AllAny
import ProgramSplit.Linux.IptablesMarks

namespace ProgramSplit.Linux

open Lib

set_option autoImplicit false

/-! ## `_legacy_zones` -/

section Zones

variable (int0 : String → Option Int)

def unsupportedZones : Failure := .network "unsupported legacy conntrack zone state"

/-- The options of a CT target that set a zone. -/
def zoneFlags : List String := ["--zone", "--zone-orig", "--zone-reply"]

/-- The loop over the options of a CT target; none for its exceptions, which are all
reported alike. -/
def zoneOptions : List Token → Option (List Nat)
  | [] => some []
  | option :: rest =>
    if !option.quoted ∧ option.text ∈ zoneFlags then
      match rest with
      | [] => none
      | value :: rest =>
        match u32Text int0 value.text with
        | .error _ => none
        | .ok zone =>
          -- also "mark": a zone taken from the packet mark
          if value.quoted ∨ 65535 < zone.toNat then none
          else (zoneOptions rest).map (zone.toNat :: ·)
    else if !option.quoted ∧ "--zone".toList.isPrefixOf option.text.toList then none
    else zoneOptions rest

/-- One rule of the dump. -/
def ruleZones (chains : List String) (record : List Token) : Option (List Nat) :=
  match splitRule chains record with
  | none => none
  | some rule => if rule.target = some "CT" then zoneOptions int0 rule.rest else some []

/-- The loop over the records, with the chains declared so far. -/
def recordsZones (chains : List String) : List (List Token) → Option (List Nat)
  | [] => some []
  | record :: rest =>
    match recordKind record with
    | .table => recordsZones [] rest
    | .chain name => recordsZones (name :: chains) rest
    | .commit => recordsZones chains rest
    | .rule =>
      match ruleZones int0 chains record with
      | none => none
      | some zones => (recordsZones chains rest).map (zones ++ ·)

/-- `_legacy_zones`. -/
def legacyZones (text : String) : Except Failure (List Nat) :=
  match (iptablesRecords text).bind (recordsZones int0 []) with
  | none => .error unsupportedZones
  | some zones => .ok zones

end Zones

/-! ## Printing -/

/-- The characters the tokenizer takes for blanks. -/
def isBlank (char : Char) : Prop := char = ' ' ∨ char = '\t' ∨ char = '\r' ∨ char = '\n'

instance (char : Char) : Decidable (isBlank char) := inferInstanceAs (Decidable (_ ∨ _))

def escapeChar (char : Char) : List Char :=
  if char = '"' ∨ char = '\\' ∨ char = '\'' then ['\\', char] else [char]

def Token.print (t : Token) : List Char :=
  if t.quoted then '"' :: (t.text.toList.flatMap escapeChar ++ ['"']) else t.text.toList

def printRecord (record : List Token) : List Char :=
  List.intercalate [' '] (record.map Token.print) ++ ['\n']

def printRecords (records : List (List Token)) : String :=
  String.ofList (records.flatMap printRecord)

/-- A plain token has no blank or quote and does not begin like a comment line. -/
def Token.Clean (t : Token) : Prop :=
  t.quoted = false → (∀ char ∈ t.text.toList, ¬ isBlank char ∧ char ≠ '"') ∧
    t.text.toList.head? ≠ some '#'

instance (t : Token) : Decidable t.Clean :=
  decidable_of_iff (t.quoted = false →
    (t.text.toList.all fun char => decide (¬ isBlank char ∧ char ≠ '"')) = true ∧
    t.text.toList.head? ≠ some '#')
    (by rw [Token.Clean, List.all_iff_forall_prop])

/-- A plain token has a character; libxtables quotes a value without one. -/
def Token.Visible (t : Token) : Prop := t.quoted = false → t.text ≠ ""

instance (t : Token) : Decidable t.Visible := inferInstanceAs (Decidable (_ → _))

/-! ## Reading back -/

/-- The lexer between two tokens of a record. -/
def Lexer.between (records : List (List Token)) (record : List Token) : Lexer :=
  { records, record }

section Tokens

variable (records : List (List Token)) (record : List Token)

/-- The lexer at the end of a token, before the blank that ends it. -/
def Lexer.holding (t : Token) : Lexer :=
  { records, record, token := t.text.toList, started := true, wasQuoted := t.quoted }

theorem feed_space (t : Token) :
    (Lexer.holding records record t).feed ' ' = .between records (record ++ [t]) := by
  simp [Lexer.feed, Lexer.blank, Lexer.holding, Lexer.between]

theorem feed_newline (t : Token) :
    (Lexer.holding records record t).feed '\n' = .between (records ++ [record ++ [t]]) [] := by
  simp [Lexer.feed, Lexer.blank, Lexer.holding, Lexer.between]

/-- A plain character joins the token; a comment sign only after the first one. -/
theorem feed_plain {l : Lexer} {char : Char} (outside : l.comment = false ∧ l.quoted = false)
    (plain : ¬ isBlank char ∧ char ≠ '"') (inner : char = '#' → l.started = true) :
    l.feed char = { l with started := true, token := l.token ++ [char] } := by
  have noComment : ¬ (char = '#' ∧ l.record = [] ∧ (!l.started) = true) := by
    rintro ⟨sign, -, fresh⟩
    simp [inner sign] at fresh
  have noBlank : ¬ (char = ' ' ∨ char = '\t' ∨ char = '\r' ∨ char = '\n') := plain.1
  unfold Lexer.feed
  rw [if_neg (by simp [outside.1]), if_neg (by simp [outside.2]), if_neg noComment,
    if_neg noBlank, if_neg plain.2]

theorem foldl_plain (quoted : Bool) :
    ∀ (chars token : List Char), (∀ char ∈ chars, ¬ isBlank char ∧ char ≠ '"') →
      chars.foldl Lexer.feed { records, record, token, started := true, wasQuoted := quoted } =
        { records, record, token := token ++ chars, started := true, wasQuoted := quoted }
  | [], token, _ => by simp
  | char :: chars, token, plain => by
    rw [List.foldl_cons, feed_plain ⟨rfl, rfl⟩ (plain char (by simp)) (fun _ => rfl),
      foldl_plain quoted chars (token ++ [char])
        fun c mem => plain c (List.mem_cons_of_mem _ mem)]
    simp

/-- Inside quotes an escaped character joins the token as itself. -/
theorem foldl_escapeChar (token : List Char) (char : Char) :
    (escapeChar char).foldl Lexer.feed
        { records, record, token, quoted := true, started := true, wasQuoted := true } =
      { records, record, token := token ++ [char], quoted := true, started := true,
        wasQuoted := true } := by
  unfold escapeChar
  split_ifs with special
  · simp [Lexer.feed]
  · simp only [not_or] at special
    simp [Lexer.feed, special]

theorem foldl_escaped :
    ∀ (chars token : List Char),
      (chars.flatMap escapeChar).foldl Lexer.feed
          { records, record, token, quoted := true, started := true, wasQuoted := true } =
        { records, record, token := token ++ chars, quoted := true, started := true,
          wasQuoted := true }
  | [], token => by simp
  | char :: chars, token => by
    rw [List.flatMap_cons, List.foldl_append, foldl_escapeChar,
      foldl_escaped chars (token ++ [char])]
    simp

/-- A printed token is read back. -/
theorem foldl_token {t : Token} (clean : t.Clean) (visible : t.Visible) :
    t.print.foldl Lexer.feed (.between records record) = .holding records record t := by
  unfold Token.print
  split_ifs with quoted
  · have opened : (Lexer.between records record).feed '"' =
        { records, record, quoted := true, started := true, wasQuoted := true } := by
      simp [Lexer.feed, Lexer.between]
    rw [List.foldl_cons, opened, List.foldl_append, foldl_escaped records record]
    simp [Lexer.feed, Lexer.holding, quoted]
  · have plain : t.quoted = false := by simpa using quoted
    obtain ⟨chars, sign⟩ := clean plain
    -- the first character starts the token, the others find it started
    cases text : t.text.toList with
    | nil => exact absurd (String.toList_eq_nil_iff.mp text) (visible plain)
    | cons char rest =>
      rw [text] at chars sign
      have started := feed_plain (l := .between records record) ⟨rfl, rfl⟩ (chars char (by simp))
        (fun isSign => absurd (by simp [isSign]) sign)
      rw [List.foldl_cons, started]
      have more := foldl_plain records record false rest [char]
        fun c mem => chars c (List.mem_cons_of_mem _ mem)
      simpa [Lexer.between, Lexer.holding, text, plain] using more

end Tokens

/-- A printed record is read back. -/
theorem foldl_record (records : List (List Token)) : ∀ (tokens record : List Token), tokens ≠ [] →
    (∀ t ∈ tokens, t.Clean ∧ t.Visible) →
      (printRecord tokens).foldl Lexer.feed (.between records record) =
        .between (records ++ [record ++ tokens]) []
  | [], _, some_, _ => absurd rfl some_
  | [t], record, _, good => by
    obtain ⟨clean, visible⟩ := good t (by simp)
    simp [printRecord, foldl_token records record clean visible, feed_newline]
  | t :: next :: rest, record, _, good => by
    obtain ⟨clean, visible⟩ := good t (by simp)
    have split : printRecord (t :: next :: rest) =
        t.print ++ ' ' :: printRecord (next :: rest) := by
      simp [printRecord, List.intercalate]
    rw [split, List.foldl_append, foldl_token records record clean visible, List.foldl_cons,
      feed_space, foldl_record records (next :: rest) (record ++ [t]) (by simp)
        fun u mem => good u (List.mem_cons_of_mem _ mem)]
    simp

theorem foldl_records : ∀ (records done : List (List Token)),
    (∀ record ∈ records, record ≠ [] ∧ ∀ t ∈ record, t.Clean ∧ t.Visible) →
      (records.flatMap printRecord).foldl Lexer.feed (.between done []) = .between (done ++ records) []
  | [], done, _ => by simp
  | record :: rest, done, good => by
    obtain ⟨some_, tokens⟩ := good record (by simp)
    rw [List.flatMap_cons, List.foldl_append, foldl_record done record [] some_ tokens,
      foldl_records rest _ fun r mem => good r (List.mem_cons_of_mem _ mem)]
    simp

/-- The tokenizer undoes the printing. -/
theorem iptablesRecords_print {records : List (List Token)}
    (good : ∀ record ∈ records, record ≠ [] ∧ ∀ t ∈ record, t.Clean ∧ t.Visible) :
    iptablesRecords (printRecords records) = some records := by
  have read := foldl_records records [] good
  unfold iptablesRecords printRecords
  rw [String.toList_ofList, List.foldl_append]
  have start : ({} : Lexer) = .between [] [] := rfl
  rw [start, read]
  simp [Lexer.feed, Lexer.blank, Lexer.between]

/-! ## Comments -/

def commentToken : Token := ⟨"--comment", false⟩

/-- Two lists of tokens that differ only in the texts of quoted tokens right after an
unquoted `--comment`. The flag says that such a token, or the unknown, comes before. -/
inductive Recommented : Bool → List Token → List Token → Prop
  | nil (after : Bool) : Recommented after [] []
  | same {after : Bool} (t : Token) {a b : List Token} (rest : Recommented (t = commentToken) a b) :
      Recommented after (t :: a) (t :: b)
  | comment (x y : String) {a b : List Token} (rest : Recommented false a b) :
      Recommented true (⟨x, true⟩ :: a) (⟨y, true⟩ :: b)

/-- Equal tokens, apart from the texts of quoted ones. -/
def Alike (a b : List Token) : Prop :=
  List.Forall₂ (fun s t => s = t ∨ s.quoted = true ∧ t.quoted = true) a b

variable {after : Bool} {a b : List Token}

theorem Recommented.weaken (same : Recommented after a b) :
    Recommented true a b := by
  cases same with
  | nil => exact .nil _
  | same t rest => exact .same t rest
  | comment x y rest => exact .comment x y rest

theorem Recommented.alike (same : Recommented after a b) :
    Alike a b := by
  induction same with
  | nil => exact .nil
  | same t _ ih => exact .cons (.inl rfl) ih
  | comment x y _ ih => exact .cons (.inr ⟨rfl, rfl⟩) ih

/-- The tokens at a place are quoted on both sides. -/
def QuotedAt (a b : List Token) (i : Nat) : Prop :=
  a[i]?.any (·.quoted) = true ∧ b[i]?.any (·.quoted) = true

/-- The tokens at a place are an unquoted `--comment` on both sides. -/
def CommentAt (a b : List Token) (i : Nat) : Prop :=
  a[i]? = some commentToken ∧ b[i]? = some commentToken

/-- At every place the tokens are equal, or quoted with `--comment` or nothing before. -/
theorem Recommented.at (same : Recommented after a b) (i : Nat) :
    a[i]? = b[i]? ∨ QuotedAt a b i ∧
      (i = 0 ∧ after = true ∨ ∃ k, i = k + 1 ∧ CommentAt a b k) := by
  induction same generalizing i with
  | nil => exact .inl rfl
  | @same after t a b rest ih =>
    cases i with
    | zero => exact .inl rfl
    | succ i =>
      obtain equal | ⟨quoted, ⟨rfl, first⟩ | ⟨k, rfl, comment⟩⟩ := ih i
      · exact .inl equal
      · have isComment : t = commentToken := by simpa using first
        exact .inr ⟨quoted, .inr ⟨0, rfl, by simp [CommentAt, isComment]⟩⟩
      · exact .inr ⟨quoted, .inr ⟨k + 1, rfl, comment⟩⟩
  | comment x y rest ih =>
    cases i with
    | zero => exact .inr ⟨⟨rfl, rfl⟩, .inl ⟨rfl, rfl⟩⟩
    | succ i =>
      obtain equal | ⟨quoted, ⟨-, no⟩ | ⟨k, rfl, comment⟩⟩ := ih i
      · exact .inl equal
      · cases no
      · exact .inr ⟨quoted, .inr ⟨k + 1, rfl, comment⟩⟩

theorem Recommented.length_eq (same : Recommented after a b) :
    a.length = b.length :=
  same.alike.length_eq

theorem isJump_quoted (x : String) : (Token.mk x true).isJump = false := rfl

theorem Recommented.takeWhile (same : Recommented after a b) :
    Recommented after (a.takeWhile (!·.isJump)) (b.takeWhile (!·.isJump)) := by
  induction same with
  | nil => exact .nil _
  | same t rest ih =>
    cases jump : t.isJump with
    | true => simpa [jump] using .nil _
    | false => simpa [jump] using .same t ih
  | comment x y rest ih => simpa [isJump_quoted] using .comment x y ih

/-- Such lists have their first jump keyword in common, or none. -/
theorem Alike.dropWhile (alike : Alike a b) :
    a.dropWhile (!·.isJump) = [] ∧ b.dropWhile (!·.isJump) = [] ∨
      ∃ jump a' b', a.dropWhile (!·.isJump) = jump :: a' ∧ b.dropWhile (!·.isJump) = jump :: b' ∧
        Alike a' b' := by
  induction alike with
  | nil => exact .inl ⟨rfl, rfl⟩
  | @cons s t a b head rest ih =>
    obtain rfl | ⟨left, right⟩ := head
    · cases jump : s.isJump with
      | true => exact .inr ⟨s, a, b, by simp [jump], by simp [jump], rest⟩
      | false => simpa [jump] using ih
    · simpa [Token.isJump, left, right] using ih

theorem Alike.any_isJump (alike : Alike a b) :
    a.any Token.isJump = b.any Token.isJump := by
  induction alike with
  | nil => rfl
  | cons head _ ih =>
    obtain rfl | ⟨left, right⟩ := head
    · simp [ih]
    · simp [Token.isJump, left, right, ih]

/-- Two rules that differ only in texts no reader looks at. -/
structure Split.Alike (s t : Split) : Prop where
  before : Recommented true s.matches_ t.matches_
  target : s.target = t.target
  rest : ProgramSplit.Linux.Alike s.rest t.rest

theorem splitJump_alike (chains : List String) (jump : Token) {m m' a b : List Token}
    (before : Recommented true m m') (alike : Alike a b) :
    Option.Rel Split.Alike (splitJump chains m jump a) (splitJump chains m' jump b) := by
  cases alike with
  | nil => exact .none
  | @cons s t a b head rest =>
    obtain rfl | ⟨left, right⟩ := head
    · have ends : a = [] ↔ b = [] := by
        rw [← List.length_eq_zero_iff, ← List.length_eq_zero_iff, rest.length_eq]
      simp only [splitJump]
      split_ifs with quoted takesNone noneA noneB noneB
      · exact .none
      · exact .some ⟨before, rfl, .nil⟩
      · exact absurd (ends.mp noneA) noneB
      · exact absurd (ends.mpr noneB) noneA
      · exact .none
      · exact .some ⟨before, rfl, rest⟩
    · simp only [splitJump, left, right, if_true]
      exact .none

/-- The rule splitter keeps such records alike. -/
theorem splitRule_alike (chains : List String)
    (same : Recommented after a b) :
    Option.Rel Split.Alike (splitRule chains a) (splitRule chains b) := by
  -- a token of the first two is never a comment's text in an accepted rule
  cases same with
  | nil => exact .none
  | comment x y rest =>
    cases rest with
    | nil => exact .none
    | same u rest => simp [splitRule]
  | same first rest =>
    cases rest.weaken with
    | nil => exact .none
    | comment x y rest => simp [splitRule]
    | @same _ second a b arguments =>
      simp only [splitRule]
      split_ifs with header
      · have front := arguments.weaken.takeWhile
        obtain ⟨noneA, noneB⟩ | ⟨jump, a', b', isA, isB, alike⟩ := arguments.alike.dropWhile
        · rw [noneA, noneB]
          exact .some ⟨front, rfl, .nil⟩
        · rw [isA, isB]
          dsimp only
          rw [alike.any_isJump]
          split_ifs with again
          · exact .none
          · exact splitJump_alike chains jump front alike
      · exact .none

/-! ### The options of a target -/

theorem parseOptions_alike (allowed : List String) : ∀ {a b : List Token} (options : Options),
    Alike a b → parseOptions allowed a options = parseOptions allowed b options
  | _, _, _, .nil => rfl
  | s :: a, t :: b, options, .cons (.inr ⟨left, right⟩) _ => by
    rw [parseOptions.eq_def, parseOptions.eq_def]
    simp only [left, right, true_or, if_true]
  | s :: _, _ :: _, options, .cons (.inl rfl) rest => by
    cases rest with
    | nil => rfl
    | @cons value value' a b head rest =>
      have skipping := fun options => parseOptions_alike allowed options (.cons head rest)
      have taking := fun options => parseOptions_alike allowed options rest
      rw [parseOptions.eq_def, parseOptions.eq_def]
      simp only [skipping, taking]
      obtain rfl | ⟨left, right⟩ := head
      · rfl
      · simp only [left, right, if_true]

theorem Alike.mem_plain (alike : Alike a b) (x : String) :
    (⟨x, false⟩ : Token) ∈ a ↔ ⟨x, false⟩ ∈ b := by
  induction alike with
  | nil => rfl
  | cons head _ ih =>
    obtain rfl | ⟨left, right⟩ := head
    · simp [ih]
    · have other : ∀ {t : Token}, t.quoted = true → ⟨x, false⟩ ≠ t := by
        rintro t quoted rfl
        cases quoted
      simp [other left, other right, ih]

section Numbers

variable (int0 int10 : String → Option Int)

theorem jumpBits_alike (target : Option String) (alike : Alike a b) :
    jumpBits int0 int10 target a = jumpBits int0 int10 target b := by
  cases target with
  | none => rfl
  | some name =>
    simp only [jumpBits]
    cases markTargets name with
    | none => simp only [alike.mem_plain]
    | some allowed => simp only [parseOptions_alike allowed [] alike]

theorem zoneOptions_alike : ∀ {a b : List Token}, Alike a b → zoneOptions int0 a = zoneOptions int0 b
  | _, _, .nil => rfl
  | s :: a, t :: b, .cons (.inr ⟨left, right⟩) rest => by
    rw [zoneOptions.eq_def, zoneOptions.eq_def]
    simp [left, right, zoneOptions_alike rest]
  | s :: _, _ :: _, .cons (.inl rfl) rest => by
    cases rest with
    | nil => rfl
    | @cons value value' a b head rest =>
      have skipping := zoneOptions_alike (.cons head rest)
      have taking := zoneOptions_alike rest
      rw [zoneOptions.eq_def, zoneOptions.eq_def]
      simp only [skipping, taking]
      obtain rfl | ⟨left, right⟩ := head
      · rfl
      · -- a quoted zone is refused whether or not it is a number
        simp only [left, right, true_or, if_true]
        cases u32Text int0 value.text <;> cases u32Text int0 value'.text <;> rfl

/-! ### The matches -/

/-- A `--mark` away from its module is refused. -/
theorem markMatchBits_refused {tokens : List Token} {index : Nat}
    (astray : index < 2 ∨
      (textAt tokens (moduleStart tokens index) ≠ some "-m" ∧
        textAt tokens (moduleStart tokens index) ≠ some "--match") ∨
      tokens[moduleStart tokens index]?.any (·.quoted) = true ∨
      (textAt tokens (moduleStart tokens index + 1) ≠ some "mark" ∧
        textAt tokens (moduleStart tokens index + 1) ≠ some "connmark")) :
    markMatchBits int0 tokens index = .error valueError := by
  unfold markMatchBits
  by_cases early : index < 2
  · rw [if_pos early]
  rw [if_neg early, ite_eq_left_iff]
  intro near
  rw [ite_eq_left_iff]
  intro plain
  rw [if_pos]
  obtain h | h | h | h := astray
  · exact absurd h early
  · exact absurd h near
  · exact absurd h plain
  · exact h

theorem CommentAt.textAt {i : Nat} (comment : CommentAt a b i) :
    textAt a i = some "--comment" ∧ textAt b i = some "--comment" := by
  simp [Linux.textAt, comment.1, comment.2, commentToken]

/-- Where the token before a `--mark` is a comment's text, both are refused. -/
theorem markMatchBits_comment {a : List Token} {k : Nat}
    (comment : textAt a k = some "--comment") :
    markMatchBits int0 a (k + 2) = .error valueError := by
  apply markMatchBits_refused
  unfold moduleStart
  split_ifs with negated
  · -- the module's name would be `--comment`
    have start : k + 2 - 3 + 1 = k := by omega
    right; right; right
    rw [start, comment]
    decide
  · right; left
    rw [Nat.add_sub_cancel, comment]
    decide

/-- What a `--mark` is read from: its module's two tokens and its value. -/
theorem markMatchBits_congr {index : Nat}
    (start : moduleStart a index = moduleStart b index)
    (keyword : a[moduleStart b index]? = b[moduleStart b index]?)
    (module_ : textAt a (moduleStart b index + 1) = textAt b (moduleStart b index + 1))
    (value : textAt a (index + 1) = textAt b (index + 1)) :
    markMatchBits int0 a index = markMatchBits int0 b index := by
  have text : textAt a (moduleStart b index) = textAt b (moduleStart b index) := by
    simp only [textAt, keyword]
  unfold markMatchBits
  simp only [start, keyword, text, module_, value]

theorem markMatchBits_recommented (same : Recommented true a b) {index : Nat}
    (mark : textAt a index = some "--mark") :
    markMatchBits int0 a index = markMatchBits int0 b index := by
  match index with
  | 0 | 1 => rw [markMatchBits_refused int0 (.inl (by decide)), markMatchBits_refused int0 (.inl (by decide))]
  | k + 2 =>
    obtain before | ⟨-, ⟨no, -⟩ | ⟨k', eq, comment⟩⟩ := same.at (k + 1)
    · have start : moduleStart a (k + 2) = moduleStart b (k + 2) := by
        have text : textAt a (k + 2 - 1) = textAt b (k + 2 - 1) :=
          congrArg (Option.map Token.text) before
        unfold moduleStart
        rw [text]
      -- a comment's text in the place of the module's keyword or name refuses both
      obtain keyword | ⟨⟨left, right⟩, -⟩ := same.at (moduleStart b (k + 2))
      · obtain module_ | ⟨-, ⟨no, -⟩ | ⟨k', eq, comment⟩⟩ := same.at (moduleStart b (k + 2) + 1)
        · obtain value | ⟨-, ⟨no, -⟩ | ⟨k', eq, comment⟩⟩ := same.at (k + 2 + 1)
          · exact markMatchBits_congr int0 start keyword (by simp only [textAt, module_])
              (by simp only [textAt, value])
          · cases no
          · obtain rfl : k + 2 = k' := by omega
            rw [comment.textAt.1] at mark
            exact absurd mark (by decide)
        · cases no
        · obtain rfl : moduleStart b (k + 2) = k' := by omega
          obtain ⟨left, right⟩ := comment.textAt
          rw [markMatchBits_refused int0 (.inr (.inl (by rw [start, left]; decide))),
            markMatchBits_refused int0 (.inr (.inl (by rw [right]; decide)))]
      · rw [markMatchBits_refused int0 (.inr (.inr (.inl (by rw [start, left])))),
          markMatchBits_refused int0 (.inr (.inr (.inl right)))]
    · cases no
    · obtain rfl : k = k' := by omega
      rw [markMatchBits_comment int0 comment.textAt.1, markMatchBits_comment int0 comment.textAt.2]

theorem matchBits_recommented (same : Recommented true a b) (index : Nat) :
    matchBits int0 a index = matchBits int0 b index := by
  obtain equal | ⟨⟨left, right⟩, -⟩ := same.at index
  · unfold matchBits
    rw [← equal]
    cases found : a[index]? with
    | none => rfl
    | some token =>
      dsimp only
      split_ifs with quoted mark
      · rfl
      · exact markMatchBits_recommented int0 same (by simp [textAt, found, mark])
      · rfl
      · rfl
      · rfl
  · unfold matchBits
    cases foundA : a[index]? with
    | none => simp [foundA] at left
    | some s =>
      cases foundB : b[index]? with
      | none => simp [foundB] at right
      | some t =>
        have quotedS : s.quoted = true := by simpa [foundA] using left
        have quotedT : t.quoted = true := by simpa [foundB] using right
        simp [quotedS, quotedT]

theorem matchesBits_recommented (same : Recommented true a b) :
    ∀ indices, matchesBits int0 a indices = matchesBits int0 b indices
  | [] => rfl
  | index :: rest => by
    simp only [matchesBits, matchBits_recommented int0 same index, matchesBits_recommented same rest]

/-! ### The records -/

theorem ruleBits_recommented (chains : List String)
    (same : Recommented after a b) : ruleBits int0 int10 chains a = ruleBits int0 int10 chains b := by
  have split := splitRule_alike chains same
  unfold ruleBits
  generalize splitRule chains a = r at split
  generalize splitRule chains b = r' at split
  cases split with
  | none => rfl
  | @some s t alike =>
    simp only [← alike.before.length_eq, matchesBits_recommented int0 alike.before, alike.target,
      jumpBits_alike int0 int10 t.target alike.rest]

theorem ruleZones_recommented (chains : List String)
    (same : Recommented after a b) : ruleZones int0 chains a = ruleZones int0 chains b := by
  have split := splitRule_alike chains same
  unfold ruleZones
  generalize splitRule chains a = r at split
  generalize splitRule chains b = r' at split
  cases split with
  | none => rfl
  | @some s t alike => simp only [alike.target, zoneOptions_alike int0 alike.rest]

theorem recordKind_recommented (same : Recommented false a b) :
    recordKind a = recordKind b := by
  cases same with
  | nil => rfl
  | @same _ t a b rest =>
    have ends : a = [] ↔ b = [] := by
      rw [← List.length_eq_zero_iff, ← List.length_eq_zero_iff, rest.length_eq]
    simp only [recordKind, ends]

/-- Both readers run over the records alike. -/
theorem recordsBits_recommented : ∀ (chains : List String) {a b : List (List Token)},
    List.Forall₂ (Recommented false) a b → recordsBits int0 int10 chains a = recordsBits int0 int10 chains b
  | _, _, _, .nil => rfl
  | chains, _ :: _, _ :: _, .cons same rest => by
    simp only [recordsBits, recordKind_recommented same, ruleBits_recommented int0 int10 chains same,
      fun chains => recordsBits_recommented chains rest]

theorem recordsZones_recommented : ∀ (chains : List String) {a b : List (List Token)},
    List.Forall₂ (Recommented false) a b → recordsZones int0 chains a = recordsZones int0 chains b
  | _, _, _, .nil => rfl
  | chains, _ :: _, _ :: _, .cons same rest => by
    simp only [recordsZones, recordKind_recommented same, ruleZones_recommented int0 chains same,
      fun chains => recordsZones_recommented chains rest]

/-- Another comment is printed from clean tokens too. -/
theorem Recommented.good (same : Recommented after a b)
    (good : ∀ t ∈ a, t.Clean ∧ t.Visible) : ∀ t ∈ b, t.Clean ∧ t.Visible := by
  induction same with
  | nil => exact good
  | same t rest ih =>
    rw [List.forall_mem_cons] at good ⊢
    exact ⟨good.1, ih good.2⟩
  | comment x y rest ih =>
    rw [List.forall_mem_cons] at good ⊢
    exact ⟨⟨fun no => (nomatch no), fun no => (nomatch no)⟩, ih good.2⟩

theorem good_recommented : ∀ {a b : List (List Token)}, List.Forall₂ (Recommented false) a b →
    (∀ record ∈ a, record ≠ [] ∧ ∀ t ∈ record, t.Clean ∧ t.Visible) →
      ∀ record ∈ b, record ≠ [] ∧ ∀ t ∈ record, t.Clean ∧ t.Visible
  | _, _, .nil, good => good
  | record :: _, record' :: _, .cons same rest, good => by
    rw [List.forall_mem_cons] at good ⊢
    obtain ⟨⟨some_, tokens⟩, others⟩ := good
    refine ⟨⟨?_, same.good tokens⟩, good_recommented rest others⟩
    rw [← List.length_pos_iff] at some_ ⊢
    rwa [← same.length_eq]

/-- **The tokenizer undoes the printing, and comments are inert.** Records of tokens that
are quoted, or plain with at least one character, are read back as they were; other texts
in the quoted tokens after `--comment` change neither reader's result or refusal. -/
theorem printed_comments_inert (records : List (List Token))
    (good : ∀ record ∈ records, record ≠ [] ∧ ∀ t ∈ record, t.Clean ∧ t.Visible) :
    iptablesRecords (printRecords records) = some records ∧
      ∀ records', List.Forall₂ (Recommented false) records records' →
        legacyMask int0 int10 (printRecords records') = legacyMask int0 int10 (printRecords records) ∧
        legacyZones int0 (printRecords records') = legacyZones int0 (printRecords records) := by
  refine ⟨iptablesRecords_print good, fun records' same => ?_⟩
  have good' := good_recommented same good
  constructor
  · unfold legacyMask
    rw [iptablesRecords_print good, iptablesRecords_print good']
    exact (recordsBits_recommented int0 int10 [] same).symm
  · unfold legacyZones
    rw [iptablesRecords_print good, iptablesRecords_print good', Option.bind_some, Option.bind_some,
      recordsZones_recommented int0 [] same]

end Numbers

/-! ## Poles -/

/-- `-A x -m comment --comment "…" -j CT --zone 5`, with a text of its own in the comment. -/
def commentedRule (text : String) : List Token :=
  [⟨"-A", false⟩, ⟨"x", false⟩, ⟨"-m", false⟩, ⟨"comment", false⟩, commentToken, ⟨text, true⟩,
    ⟨"-j", false⟩, ⟨"CT", false⟩, ⟨"--zone", false⟩, ⟨"5", false⟩]

/-- A comment over two lines that looks like a rule is read as the comment it is, and the
zone of its rule stays the one a harmless comment leaves. -/
theorem printed_comments_inert_rule :
    iptablesRecords (printRecords [commentedRule "a\n-A x -j CT --zone \"7\""]) =
        some [commentedRule "a\n-A x -j CT --zone \"7\""] ∧
      legacyZones String.toInt? (printRecords [commentedRule "ok"]) =
        legacyZones String.toInt? (printRecords [commentedRule "a\n-A x -j CT --zone \"7\""]) := by
  have inert := printed_comments_inert String.toInt? String.toInt?
    [commentedRule "a\n-A x -j CT --zone \"7\""] (by decide +kernel)
  refine ⟨inert.1, (inert.2 [commentedRule "ok"] (.cons ?_ .nil)).2⟩
  repeat apply Recommented.same
  exact .comment _ _ (by repeat constructor)

/-- A plain token without a character leaves no trace in the text. -/
theorem empty_plain_token_lost :
    Token.Clean ⟨"", false⟩ ∧
      iptablesRecords (printRecords [[⟨"", false⟩]]) ≠ some [[⟨"", false⟩]] := by
  decide +kernel

end ProgramSplit.Linux
