/-
# Windows.CommandLine — quoting arguments and parsing them back

Three functions quote an argument: `quote` of `tray-support.h`, `quoteArgument` of
`controller-service.cpp` and `ConvertTo-ProgramSplitArgument` of `Common.ps1`, which leaves an
argument bare where nothing in it needs quotes. The other side is the documented rule of the
Microsoft parsers: 2n backslashes before a quote are n backslashes and the quote begins or ends
quoting, 2n+1 are n and a literal quote, other backslashes are literal.

* `argue_quoted` — parsing what the quoting loop writes gives the argument back, for any run of
  backslashes pending on both sides;
* `argue_bare` — the same for an argument left bare;
* `quoting_round_trips` — every list of arguments, for each of the three.
-/
import ProgramSplit.Dns.Names

namespace ProgramSplit.Windows.CommandLine

open Dns (WString)

set_option autoImplicit false

def backslash : UInt16 := 0x5c
def mark : UInt16 := 0x22
def space : UInt16 := 0x20
def tab : UInt16 := 0x09

/-! ## The quoting functions -/

/-- The loop of `quote`; `slashes` counts the backslashes not yet written. -/
def quoteFrom (slashes : Nat) : WString → WString
  | [] => List.replicate (slashes * 2) backslash ++ [mark]
  | c :: rest =>
    if c = backslash then quoteFrom (slashes + 1) rest
    else
      List.replicate (slashes * (if c = mark then 2 else 1)) backslash ++
        (if c = mark then [backslash] else []) ++ c :: quoteFrom 0 rest

def quote (value : WString) : WString := mark :: quoteFrom 0 value

/-- The loop of `quoteArgument` and of `ConvertTo-ProgramSplitArgument`. -/
def quoteArgumentFrom (backslashes : Nat) : WString → WString
  | [] => List.replicate (backslashes * 2) backslash ++ [mark]
  | c :: rest =>
    if c = backslash then quoteArgumentFrom (backslashes + 1) rest
    else if c = mark then
      List.replicate (backslashes * 2 + 1) backslash ++ c :: quoteArgumentFrom 0 rest
    else List.replicate backslashes backslash ++ c :: quoteArgumentFrom 0 rest

def quoteArgument (value : WString) : WString := mark :: quoteArgumentFrom 0 value

/-- The class `\s` of .NET's regular expressions. -/
def isWhite (c : UInt16) : Bool :=
  (0x09 ≤ c && c ≤ 0x0d) || (0x2000 ≤ c && c ≤ 0x200a) ||
    c ∈ ([0x20, 0x85, 0xa0, 0x1680, 0x2028, 0x2029, 0x202f, 0x205f, 0x3000] : List UInt16)

/-- `ConvertTo-ProgramSplitArgument`. -/
def convertToProgramSplitArgument (value : WString) : WString :=
  if value ≠ [] ∧ ¬ value.any (fun c => isWhite c || c == mark) then value else quoteArgument value

/-- A quoted program path and the arguments after it, each behind one space. -/
def commandLine (convert : WString → WString) (program : WString) (args : List WString) : WString :=
  mark :: program ++ mark :: args.flatMap fun a => space :: convert a

/-! ## The rules of the parser -/

/-- The text after the program's name: `slashes` backslashes are pending, `current` is the argument
under way, if any. -/
def argue (slashes : Nat) (quoted : Bool) (current : Option WString) : WString → List WString
  | [] =>
    match current with
    | some arg => [arg ++ List.replicate slashes backslash]
    | none => []
  | c :: rest =>
    if c = backslash then argue (slashes + 1) quoted (some (current.getD [])) rest
    else if c = mark then
      let arg := current.getD [] ++ List.replicate (slashes / 2) backslash
      if slashes % 2 = 1 then argue 0 quoted (some (arg ++ [mark])) rest
      else argue 0 (!quoted) (some arg) rest
    else if (c = space ∨ c = tab) ∧ quoted = false then
      match current with
      | some arg => (arg ++ List.replicate slashes backslash) :: argue 0 false none rest
      | none => argue 0 false none rest
    else argue 0 quoted (some (current.getD [] ++ List.replicate slashes backslash ++ [c])) rest

/-- The arguments of a line that ends at its first NUL. The program's name runs to the next quote,
or to the first blank if it is not quoted. -/
def parseArguments (line : WString) : List WString :=
  match line.takeWhile (· ≠ 0) with
  | c :: rest =>
    if c = mark then argue 0 false none ((rest.dropWhile (· ≠ mark)).drop 1)
    else argue 0 false none ((c :: rest).dropWhile fun d => d ≠ space ∧ d ≠ tab)
  | [] => []

/-! ## Quoted arguments -/

theorem quoteFrom_eq (value : WString) :
    ∀ slashes, quoteFrom slashes value = quoteArgumentFrom slashes value := by
  induction value with
  | nil => intro slashes; rfl
  | cons c rest ih =>
    intro slashes
    unfold quoteFrom quoteArgumentFrom
    rw [ih, ih]
    by_cases isMark : c = mark
    · simp [isMark, List.replicate_succ']
    · simp [isMark]

/-- A run of backslashes inside an argument stays pending. -/
theorem argue_run (run slashes : Nat) (quoted : Bool) (arg rest : WString) :
    argue slashes quoted (some arg) (List.replicate run backslash ++ rest) =
      argue (slashes + run) quoted (some arg) rest := by
  induction run generalizing slashes with
  | zero => simp
  | succ run ih =>
    rw [List.replicate_succ, List.cons_append, argue, if_pos rfl, Option.getD_some, ih]
    congr 1
    omega

/-- A mark after a pending run. -/
theorem argue_mark (slashes : Nat) (quoted : Bool) (arg rest : WString) :
    argue slashes quoted (some arg) (mark :: rest) =
      if slashes % 2 = 1 then
        argue 0 quoted (some (arg ++ List.replicate (slashes / 2) backslash ++ [mark])) rest
      else argue 0 (!quoted) (some (arg ++ List.replicate (slashes / 2) backslash)) rest := by
  rfl

/-- **Parsing a quoted argument.** What the loop still owes are `slashes` backslashes; inside quotes
they and the rest of the argument come back, and its closing mark ends the quoting. -/
theorem argue_quoted (value : WString) : ∀ (slashes : Nat) (arg rest : WString),
    argue 0 true (some arg) (quoteArgumentFrom slashes value ++ rest) =
      argue 0 false (some (arg ++ List.replicate slashes backslash ++ value)) rest := by
  induction value with
  | nil =>
    intro slashes arg rest
    rw [quoteArgumentFrom, List.append_assoc, argue_run, List.singleton_append, argue_mark,
      if_neg (by omega)]
    simp
  | cons c more ih =>
    intro slashes arg rest
    unfold quoteArgumentFrom
    by_cases isSlash : c = backslash
    · rw [if_pos isSlash, ih, isSlash]
      simp [List.replicate_succ', List.append_assoc]
    · rw [if_neg isSlash]
      by_cases isMark : c = mark
      · have half : (0 + (slashes * 2 + 1)) / 2 = slashes := by omega
        rw [if_pos isMark, isMark, List.append_assoc, argue_run, List.cons_append, argue_mark,
          if_pos (by omega), half, ih]
        simp
      · rw [if_neg isMark, List.append_assoc, argue_run, List.cons_append, argue, if_neg isSlash,
          if_neg isMark, if_neg (by simp), ih]
        simp

/-! ## Bare arguments -/

/-- Neither a mark nor a blank. -/
def Plain (c : UInt16) : Prop := c ≠ mark ∧ c ≠ space ∧ c ≠ tab

/-- **Parsing a bare argument**, to the blank or the end that follows it. -/
theorem argue_bare {value : WString} (plain : ∀ c ∈ value, Plain c) (slashes : Nat) (arg rest : WString) :
    ∃ pending done, argue slashes false (some arg) (value ++ rest) = argue pending false (some done) rest ∧
      done ++ List.replicate pending backslash = arg ++ List.replicate slashes backslash ++ value := by
  induction value generalizing slashes arg with
  | nil => exact ⟨slashes, arg, rfl, by simp⟩
  | cons c more ih =>
    obtain ⟨notMark, notSpace, notTab⟩ := plain c List.mem_cons_self
    have later : ∀ d ∈ more, Plain d := fun d member => plain d (List.mem_cons_of_mem c member)
    rw [List.cons_append, argue]
    by_cases isSlash : c = backslash
    · obtain ⟨pending, done, parsed, same⟩ := ih later (slashes + 1) arg
      refine ⟨pending, done, ?_, ?_⟩
      · rw [if_pos isSlash, Option.getD_some, parsed]
      · rw [same, isSlash]
        simp [List.replicate_succ', List.append_assoc]
    · obtain ⟨pending, done, parsed, same⟩ :=
        ih later 0 (arg ++ List.replicate slashes backslash ++ [c])
      refine ⟨pending, done, ?_, ?_⟩
      · rw [if_neg isSlash, if_neg notMark, if_neg (by simp [notSpace, notTab]), Option.getD_some, parsed]
      · rw [same]
        simp

/-- A bare argument begins like one that is under way. -/
theorem argue_begin {c : UInt16} (plain : Plain c) (rest : WString) :
    argue 0 false none (c :: rest) = argue 0 false (some []) (c :: rest) := by
  obtain ⟨notMark, notSpace, notTab⟩ := plain
  rw [argue, argue]
  simp [notMark, notSpace, notTab]

/-! ## Lists of arguments -/

/-- An argument under way ends at the next space or at the end of the line. -/
theorem argue_ends (pending : Nat) (done : WString) (convert : WString → WString) (args : List WString) :
    argue pending false (some done) (args.flatMap fun a => space :: convert a) =
      (done ++ List.replicate pending backslash) ::
        argue 0 false none (args.flatMap fun a => space :: convert a) := by
  cases args with
  | nil => rfl
  | cons a args =>
    rw [List.flatMap_cons, List.cons_append, argue, if_neg (by decide), if_neg (by decide),
      if_pos (by simp)]
    conv_rhs => rw [argue, if_neg (by decide), if_neg (by decide), if_pos (by simp)]

/-- What a quoting function has to do: whatever follows at a space or the end of the line, the
parser reads the argument and goes on there. -/
def Reads (convert : WString → WString) : Prop :=
  ∀ a : WString, ∀ rest, ∃ pending done,
    argue 0 false none (convert a ++ rest) = argue pending false (some done) rest ∧
      done ++ List.replicate pending backslash = a

theorem reads_quoteArgument : Reads quoteArgument := by
  intro a rest
  refine ⟨0, a, ?_, by simp⟩
  have opened : argue 0 false none (quoteArgument a ++ rest) =
      argue 0 true (some []) (quoteArgumentFrom 0 a ++ rest) := by
    rfl
  rw [opened, argue_quoted]
  simp

theorem quote_eq : quote = quoteArgument := by
  funext value
  rw [quote, quoteArgument, quoteFrom_eq]

theorem isWhite_blank {c : UInt16} (blank : c = space ∨ c = tab) : isWhite c = true := by
  rcases blank with rfl | rfl <;> decide

/-- A character that asks for no quotes. -/
theorem plain_of_free {c : UInt16} (free : (isWhite c || c == mark) = false) : Plain c := by
  rw [Bool.or_eq_false_iff] at free
  refine ⟨by simpa using free.2, fun isSpace => ?_, fun isTab => ?_⟩
  · rw [isWhite_blank (.inl isSpace)] at free
    exact absurd free.1 (by decide)
  · rw [isWhite_blank (.inr isTab)] at free
    exact absurd free.1 (by decide)

theorem reads_convert : Reads convertToProgramSplitArgument := by
  intro a rest
  by_cases bare : a ≠ [] ∧ ¬ a.any (fun c => isWhite c || c == mark)
  · have plain : ∀ c ∈ a, Plain c := by
      intro c member
      apply plain_of_free
      have none_ := bare.2
      simp only [Bool.not_eq_true, List.any_eq_false] at none_
      simpa using none_ c member
    obtain ⟨c, more, rfl⟩ := List.exists_cons_of_ne_nil bare.1
    obtain ⟨pending, done, parsed, same⟩ := argue_bare plain 0 [] rest
    refine ⟨pending, done, ?_, by simpa using same⟩
    rw [convertToProgramSplitArgument, if_pos bare, List.cons_append,
      argue_begin (plain c List.mem_cons_self)]
    exact parsed
  · rw [convertToProgramSplitArgument, if_neg bare]
    exact reads_quoteArgument a rest

theorem argue_arguments {convert : WString → WString} (reads : Reads convert) (args : List WString) :
    argue 0 false none (args.flatMap fun a => space :: convert a) = args := by
  induction args with
  | nil => rfl
  | cons a args ih =>
    obtain ⟨pending, done, parsed, same⟩ := reads a (args.flatMap fun b => space :: convert b)
    rw [List.flatMap_cons, List.cons_append, argue, if_neg (by decide), if_neg (by decide),
      if_pos (by simp), parsed, argue_ends, same, ih]

/-! ## The end of the line -/

theorem mem_quoteArgumentFrom {c : UInt16} (value : WString) : ∀ slashes,
    c ∈ quoteArgumentFrom slashes value → c = backslash ∨ c = mark ∨ c ∈ value := by
  induction value with
  | nil =>
    intro slashes member
    rw [quoteArgumentFrom, List.mem_append, List.mem_singleton] at member
    rcases member with run | isMark
    · exact .inl (List.eq_of_mem_replicate run)
    · exact .inr (.inl isMark)
  | cons d rest ih =>
    intro slashes member
    have tail : ∀ {run}, c ∈ List.replicate run backslash ++ d :: quoteArgumentFrom 0 rest →
        c = backslash ∨ c = mark ∨ c ∈ d :: rest := by
      intro run inside
      rcases List.mem_append.mp inside with inRun | inRest
      · exact .inl (List.eq_of_mem_replicate inRun)
      · rcases List.mem_cons.mp inRest with rfl | deeper
        · exact .inr (.inr List.mem_cons_self)
        · exact (ih 0 deeper).imp_right (Or.imp_right (List.mem_cons_of_mem d))
    unfold quoteArgumentFrom at member
    split_ifs at member
    · exact (ih _ member).imp_right (Or.imp_right (List.mem_cons_of_mem d))
    · exact tail member
    · exact tail member

theorem mem_quoteArgument {c : UInt16} {value : WString} (member : c ∈ quoteArgument value) :
    c = backslash ∨ c = mark ∨ c ∈ value := by
  rcases List.mem_cons.mp member with isMark | inside
  · exact .inr (.inl isMark)
  · exact mem_quoteArgumentFrom value 0 inside

theorem mem_convert {c : UInt16} {value : WString} (member : c ∈ convertToProgramSplitArgument value) :
    c = backslash ∨ c = mark ∨ c ∈ value := by
  unfold convertToProgramSplitArgument at member
  split_ifs at member
  · exact .inr (.inr member)
  · exact mem_quoteArgument member

/-- The line has no NUL, so the parser sees all of it. -/
theorem commandLine_ne_zero {convert : WString → WString}
    (adds : ∀ c value, c ∈ convert value → c = backslash ∨ c = mark ∨ c ∈ value) {program : WString}
    {args : List WString} (noNul : 0 ∉ program) (noNuls : ∀ a ∈ args, 0 ∉ a) :
    ∀ c ∈ commandLine convert program args, c ≠ 0 := by
  rintro c member rfl
  unfold commandLine at member
  simp only [List.cons_append, List.mem_cons, List.mem_append, List.mem_flatMap] at member
  rcases member with zero | inside | zero | ⟨a, inArgs, zero | inside⟩
  · exact absurd zero (by decide)
  · exact noNul inside
  · exact absurd zero (by decide)
  · exact absurd zero (by decide)
  · rcases adds 0 a inside with zero | zero | inArg
    · exact absurd zero (by decide)
    · exact absurd zero (by decide)
    · exact noNuls a inArgs inArg

theorem parse_commandLine {convert : WString → WString} (reads : Reads convert)
    (adds : ∀ c value, c ∈ convert value → c = backslash ∨ c = mark ∨ c ∈ value) {program : WString}
    {args : List WString} (noMark : mark ∉ program) (noNul : 0 ∉ program) (noNuls : ∀ a ∈ args, 0 ∉ a) :
    parseArguments (commandLine convert program args) = args := by
  have whole : (commandLine convert program args).takeWhile (· ≠ 0) = commandLine convert program args := by
    rw [List.takeWhile_eq_self_iff]
    intro c member
    simpa using commandLine_ne_zero adds noNul noNuls c member
  have named : (program ++ mark :: args.flatMap fun a => space :: convert a).dropWhile (· ≠ mark) =
      mark :: args.flatMap fun a => space :: convert a := by
    rw [List.dropWhile_append_of_pos]
    · simp
    · intro c member
      simpa using fun isMark : c = mark => noMark (isMark ▸ member)
  rw [parseArguments, whole, commandLine, List.cons_append]
  simp only [if_true]
  rw [named, List.drop_succ_cons, List.drop_zero]
  exact argue_arguments reads args

/-- **Quoting round-trips.** Behind a quoted program path, the outputs of each of the three quoting
functions, joined by single spaces, are parsed back to the arguments. -/
theorem quoting_round_trips {program : WString} {args : List WString} (noMark : mark ∉ program)
    (noNul : 0 ∉ program) (noNuls : ∀ a ∈ args, 0 ∉ a) :
    parseArguments (commandLine quote program args) = args ∧
      parseArguments (commandLine quoteArgument program args) = args ∧
      parseArguments (commandLine convertToProgramSplitArgument program args) = args := by
  have argument := parse_commandLine reads_quoteArgument (fun _ _ => mem_quoteArgument) noMark noNul noNuls
  refine ⟨?_, argument, parse_commandLine reads_convert (fun _ _ => mem_convert) noMark noNul noNuls⟩
  rw [quote_eq]
  exact argument

/-- An empty argument, one of backslashes, and one with a quote, a space and a trailing run. -/
theorem quoting_round_trips_mixed :
    parseArguments (commandLine quote [0x61] [[], [0x5c, 0x5c], [0x5c, 0x22, 0x20, 0x5c]]) =
      [[], [0x5c, 0x5c], [0x5c, 0x22, 0x20, 0x5c]] :=
  (quoting_round_trips (by decide) (by decide) (by decide)).1

end ProgramSplit.Windows.CommandLine
