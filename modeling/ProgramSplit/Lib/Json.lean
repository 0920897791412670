/-
# Lib.Json — JSON texts as one standard library prints and reads them

Python's `json.dumps` with sorted keys, no blanks and ASCII only, and `json.loads` with a hook that
refuses repeated keys. Strings are lists of code points, lone surrogates included; a dictionary is the
list of its entries in the order of their keys; a tuple is printed as a list is. Floating-point numbers
are those of `Floats`, which come back from their shortest text.

* `scanString_quoted` — a string comes back, unless it holds two surrogates that would pair;
* `loads_dumps` — so does every document without such strings, tuples or unordered dictionaries.
-/
import Mathlib.Data.List.Lex
import Mathlib.Data.List.Sort
import ProgramSplit.Lib.Digits
import ProgramSplit.Lib.SurrogateEscape

namespace ProgramSplit.Lib.Json

open Digits (decimal hexFixed)

set_option autoImplicit false

abbrev Str := List CodePoint

/-- The code points of a text. -/
def ofString (text : String) : Str := text.toList.map .scalar

/-! ## Strings -/

def hexValue (c : Char) : Option Nat :=
  if '0' ≤ c ∧ c ≤ '9' then some (c.toNat - 0x30)
  else if 'a' ≤ c ∧ c ≤ 'f' then some (c.toNat - 0x57)
  else if 'A' ≤ c ∧ c ≤ 'F' then some (c.toNat - 0x37)
  else none

/-- `_decode_uXXXX`. -/
def hex4 (a b c d : Char) : Option Nat :=
  match hexValue a, hexValue b, hexValue c, hexValue d with
  | some a, some b, some c, some d => some (((a * 16 + b) * 16 + c) * 16 + d)
  | _, _, _, _ => none

/-- `chr`. -/
def chr (n : Nat) : CodePoint :=
  if h : 0xD800 ≤ n ∧ n < 0xE000 then .surrogate ⟨n - 0xD800, by omega⟩
  else .scalar (Char.ofNat n)

def backslash (c : Char) : Option CodePoint :=
  if c = '"' ∨ c = '\\' ∨ c = '/' then some (.scalar c)
  else if c = 'b' then some (chr 8)
  else if c = 'f' then some (chr 12)
  else if c = 'n' then some (chr 10)
  else if c = 'r' then some (chr 13)
  else if c = 't' then some (chr 9)
  else none

/-- `scanstring` in strict mode, behind the opening quote: the string and what follows
its closing quote. -/
def scanString : List Char → Option (Str × List Char)
  | [] => none
  | c :: rest =>
    if c = '"' then some ([], rest)
    else if c.toNat < 0x20 then none
    else if c ≠ '\\' then (scanString rest).map fun (s, after) => (.scalar c :: s, after)
    else
      match rest with
      | [] => none
      | esc :: rest =>
        if esc ≠ 'u' then
          match backslash esc with
          | none => none
          | some char => (scanString rest).map fun (s, after) => (char :: s, after)
        else
          match rest with
          | a :: b :: c :: d :: rest =>
            match hex4 a b c d with
            | none => none
            | some uni =>
              match rest with
              | '\\' :: 'u' :: e :: f :: g :: h :: later =>
                match hex4 e f g h with
                | some uni2 =>
                  -- a high and a low surrogate escape are one character
                  if 0xD800 ≤ uni ∧ uni ≤ 0xDBFF ∧ 0xDC00 ≤ uni2 ∧ uni2 ≤ 0xDFFF then
                    (scanString later).map fun (s, after) =>
                      (chr (0x10000 + (uni - 0xD800) * 0x400 + (uni2 - 0xDC00)) :: s,
                        after)
                  else
                    (scanString ('\\' :: 'u' :: e :: f :: g :: h :: later)).map
                      fun (s, after) => (chr uni :: s, after)
                | none =>
                  (scanString ('\\' :: 'u' :: e :: f :: g :: h :: later)).map
                    fun (s, after) => (chr uni :: s, after)
              | rest => (scanString rest).map fun (s, after) => (chr uni :: s, after)
          | _ => none

theorem scanString_quote (after : List Char) : scanString ('"' :: after) = some ([], after) := by
  rw [scanString.eq_def]
  rfl

theorem scanString_plain {c : Char} (not_quote : c ≠ '"') (not_control : ¬ c.toNat < 0x20)
    (not_backslash : c ≠ '\\') (rest : List Char) :
    scanString (c :: rest) = (scanString rest).map fun (s, after) => (.scalar c :: s, after) := by
  rw [scanString.eq_def]
  simp only [if_neg not_quote, if_neg not_control, if_pos not_backslash]

theorem scanString_backslash {esc : Char} {char : CodePoint} (not_unicode : esc ≠ 'u')
    (known : backslash esc = some char) (rest : List Char) :
    scanString ('\\' :: esc :: rest) =
      (scanString rest).map fun (s, after) => (char :: s, after) := by
  rw [scanString.eq_def]
  simp only [if_pos not_unicode, known]
  rw [if_neg (by decide), if_neg (by decide), if_neg (by decide)]

/-- A unicode escape outside the high surrogates is one code point, whatever follows. -/
theorem scanString_escape {a b c d : Char} {uni : Nat} (digits : hex4 a b c d = some uni)
    (alone : uni < 0xD800 ∨ 0xDBFF < uni) (rest : List Char) :
    scanString ('\\' :: 'u' :: a :: b :: c :: d :: rest) =
      (scanString rest).map fun (s, after) => (chr uni :: s, after) := by
  rw [scanString.eq_def]
  simp only [digits]
  rw [if_neg (by decide), if_neg (by decide), if_neg (by decide), if_neg (by decide)]
  split
  · split
    · rw [if_neg (by omega)]
    · rfl
  · rfl

/-- The escapes of a high and a low surrogate are one character. -/
theorem scanString_pair {a b c d e f g h : Char} {high low : Nat} (first : hex4 a b c d = some high)
    (second : hex4 e f g h = some low) (pairs : (0xD800 ≤ high ∧ high ≤ 0xDBFF) ∧ 0xDC00 ≤ low ∧ low ≤ 0xDFFF)
    (rest : List Char) :
    scanString ('\\' :: 'u' :: a :: b :: c :: d :: '\\' :: 'u' :: e :: f :: g :: h :: rest) =
      (scanString rest).map fun (s, after) =>
        (chr (0x10000 + (high - 0xD800) * 0x400 + (low - 0xDC00)) :: s, after) := by
  rw [scanString.eq_def]
  simp only [first, second]
  rw [if_neg (by decide), if_neg (by decide), if_neg (by decide), if_neg (by decide), if_pos (by omega)]

def skipSpace (text : List Char) : List Char :=
  text.dropWhile fun c => c = ' ' ∨ c = '\t' ∨ c = '\n' ∨ c = '\r'

theorem skipSpace_cons {c : Char} (visible : ¬ (c = ' ' ∨ c = '\t' ∨ c = '\n' ∨ c = '\r'))
    (rest : List Char) : skipSpace (c :: rest) = c :: rest := by
  rw [skipSpace, List.dropWhile_cons_of_neg (by simpa using visible)]

/-- The four digits of an escape. -/
def escape (n : Nat) : List Char := '\\' :: 'u' :: hexFixed 4 n

/-- `py_encode_basestring_ascii`, of one code point. -/
def printChar (c : CodePoint) : List Char :=
  if c.ord = 0x22 then ['\\', '"']
  else if c.ord = 0x5c then ['\\', '\\']
  else if c.ord = 0x0a then ['\\', 'n']
  else if c.ord = 0x0d then ['\\', 'r']
  else if c.ord = 0x09 then ['\\', 't']
  else if c.ord = 0x0c then ['\\', 'f']
  else if c.ord = 0x08 then ['\\', 'b']
  else if 0x20 ≤ c.ord ∧ c.ord ≤ 0x7e then [Char.ofNat c.ord]
  else if c.ord < 0x10000 then escape c.ord
  else
    escape (0xD800 + (c.ord - 0x10000) / 0x400) ++ escape (0xDC00 + (c.ord - 0x10000) % 0x400)

def quoted (s : Str) : List Char := '"' :: s.flatMap printChar ++ ['"']

/-- A high surrogate. -/
def isHigh (c : CodePoint) : Bool := 0xD800 ≤ c.ord && c.ord < 0xDC00

theorem chr_ord (c : CodePoint) : chr c.ord = c := by
  cases c with
  | scalar c =>
    have valid := c.valid
    change c.toNat < 0xD800 ∨ 0xDFFF < c.toNat ∧ c.toNat < 0x110000 at valid
    rw [chr, dif_neg (by simp only [CodePoint.ord]; omega)]
    exact congrArg _ (Char.ofNat_toNat c)
  | surrogate n =>
    rw [chr, dif_pos (by simp only [CodePoint.ord]; omega)]
    exact congrArg _ (Fin.ext (by simp only [CodePoint.ord]; omega))

theorem ord_lt (c : CodePoint) : c.ord < 0x110000 := by
  cases c with
  | scalar c =>
    have valid := c.valid
    change c.toNat < 0xD800 ∨ 0xDFFF < c.toNat ∧ c.toNat < 0x110000 at valid
    simp only [CodePoint.ord]
    omega
  | surrogate n =>
    simp only [CodePoint.ord]
    omega

theorem hexValue_digitChar {n : Nat} (small : n < 16) : hexValue n.digitChar = some n := by
  have table : ∀ n : Fin 16, hexValue n.val.digitChar = some n.val := by decide +kernel
  exact table ⟨n, small⟩

theorem escape_eq {n : Nat} (small : n < 0x10000) :
    ∃ a b c d, escape n = ['\\', 'u', a, b, c, d] ∧ hex4 a b c d = some n := by
  refine ⟨_, _, _, _, rfl, ?_⟩
  simp only [hex4, hexValue_digitChar (Nat.mod_lt _ (by decide : 0 < 16)), Option.some.injEq]
  omega

/-- One code point that is no high surrogate is read back, whatever follows. -/
theorem scanString_printChar {c : CodePoint} (alone : isHigh c = false) (rest : List Char) :
    scanString (printChar c ++ rest) = (scanString rest).map fun (s, after) => (c :: s, after) := by
  have bound := ord_lt c
  have short {esc : Char} {n : Nat} (is : c.ord = n) (not_unicode : esc ≠ 'u')
    (known : backslash esc = some (chr n)) :
      scanString (['\\', esc] ++ rest) = (scanString rest).map fun (s, after) => (c :: s, after) := by
    rw [← is, chr_ord] at known
    exact scanString_backslash not_unicode known rest
  unfold printChar
  split_ifs with quote back newline ret tab feed bell plain basic
  · exact short quote (by decide) (by decide)
  · exact short back (by decide) (by decide)
  · exact short newline (by decide) (by decide)
  · exact short ret (by decide) (by decide)
  · exact short tab (by decide) (by decide)
  · exact short feed (by decide) (by decide)
  · exact short bell (by decide) (by decide)
  · cases c with
    | scalar c =>
      simp only [CodePoint.ord] at quote back plain
      rw [CodePoint.ord, Char.ofNat_toNat]
      refine scanString_plain ?_ (by omega) ?_ rest
      · rintro rfl
        exact quote (by decide)
      · rintro rfl
        exact back (by decide)
    | surrogate n =>
      simp only [CodePoint.ord] at plain
      omega
  · obtain ⟨a, b, d, e, shape, digits⟩ := escape_eq basic
    rw [shape]
    have low : c.ord < 0xD800 ∨ 0xDBFF < c.ord := by
      simp only [isHigh, Bool.and_eq_false_iff, decide_eq_false_iff_not] at alone
      omega
    have scans := scanString_escape digits low rest
    rwa [chr_ord] at scans
  · obtain ⟨a, b, d, e, shape, digits⟩ := escape_eq (n := 0xD800 + (c.ord - 0x10000) / 0x400) (by omega)
    obtain ⟨a', b', d', e', shape', digits'⟩ := escape_eq (n := 0xDC00 + (c.ord - 0x10000) % 0x400) (by omega)
    rw [shape, shape']
    have scans := scanString_pair digits digits' (by omega) rest
    rw [show 0x10000 + (0xD800 + (c.ord - 0x10000) / 0x400 - 0xD800) * 0x400 +
      (0xDC00 + (c.ord - 0x10000) % 0x400 - 0xDC00) = c.ord by omega, chr_ord] at scans
    exact scans

theorem scanString_quoted {s : Str} (alone : ∀ c ∈ s, isHigh c = false) (after : List Char) :
    scanString (s.flatMap printChar ++ '"' :: after) = some (s, after) := by
  induction s with
  | nil => exact scanString_quote after
  | cons c s ih =>
    rw [List.flatMap_cons, List.append_assoc, scanString_printChar (alone c List.mem_cons_self),
      ih fun c mem => alone c (List.mem_cons_of_mem _ mem)]
    rfl

/-! ## Numbers -/

/-- What follows cannot belong to a number. -/
def Stops (rest : List Char) : Prop :=
  ∀ c ∈ rest.head?, c.isDigit = false ∧ c ≠ '.' ∧ c ≠ 'e' ∧ c ≠ 'E'

/-- The digits before the point: no zero stands before another digit. -/
def scanWhole : List Char → Option (List Char × List Char)
  | [] => none
  | c :: rest =>
    if c = '0' then some (['0'], rest)
    else if c.isDigit then some ((c :: rest).span Char.isDigit)
    else none

/-- Digits behind a mark, such as the point; without digits nothing is taken. -/
def scanTail (mark digits : List Char) (text : List Char) : List Char × List Char :=
  match digits.span Char.isDigit with
  | ([], _) => ([], text)
  | (ds, rest) => (mark ++ ds, rest)

def scanFraction (text : List Char) : List Char × List Char :=
  match text with
  | '.' :: rest => scanTail ['.'] rest text
  | _ => ([], text)

def scanExponent (text : List Char) : List Char × List Char :=
  match text with
  | c :: sign :: rest =>
    if c = 'e' ∨ c = 'E' then
      if sign = '+' ∨ sign = '-' then scanTail [c, sign] rest text else scanTail [c] (sign :: rest) text
    else ([], text)
  | _ => ([], text)

/-- `NUMBER_RE`: the sign and the digits, what makes it a floating-point number, and the rest. -/
def scanNumber (text : List Char) : Option (List Char × List Char × List Char) :=
  let sign := if text.head? = some '-' then ['-'] else []
  match scanWhole (text.drop sign.length) with
  | none => none
  | some (whole, rest) =>
    let (fraction, rest) := scanFraction rest
    let (exponent, rest) := scanExponent rest
    some (sign ++ whole, fraction ++ exponent, rest)

def intText (n : Int) : List Char := (if n < 0 then ['-'] else []) ++ decimal n.natAbs

def readInt (text : List Char) : Int :=
  if text.head? = some '-' then -(Nat.ofDigitChars 10 text.tail 0 : Int) else Nat.ofDigitChars 10 text 0

theorem decimal_cases (n : Nat) :
    decimal n = ['0'] ∨ ∃ c rest, decimal n = c :: rest ∧ c ≠ '0' ∧ c.isDigit = true := by
  induction n using Nat.strongRecOn with
  | _ n ih =>
    by_cases small : n < 10
    · have single : decimal n = [n.digitChar] := Nat.toDigits_of_lt_base small
      by_cases zero : n = 0
      · exact .inl (by rw [zero]; rfl)
      · refine .inr ⟨_, [], single, fun is => ?_,
          Digits.isDigit_of_mem_decimal (single ▸ List.mem_singleton_self _)⟩
        exact zero (Digits.digitChar_inj (by omega) (by omega)
          (is.trans (by decide : '0' = (0 : Nat).digitChar)))
    · have split : decimal n = decimal (n / 10) ++ [(n % 10).digitChar] := by
        rw [decimal, Nat.toDigits_of_base_le (by decide) (by omega)]
        rfl
      rcases ih (n / 10) (by omega) with zero | ⟨c, rest, is, notZero, digit⟩
      · exact absurd (Digits.decimal_inj (zero.trans (by decide : ['0'] = decimal 0))) (by omega)
      · exact .inr ⟨c, rest ++ [(n % 10).digitChar], by rw [split, is]; rfl, notZero, digit⟩

theorem span_decimal (n : Nat) {rest : List Char} (stops : Stops rest) :
    (decimal n ++ rest).span Char.isDigit = (decimal n, rest) := by
  rw [List.span_eq_takeWhile_dropWhile, List.takeWhile_append_of_pos fun _ => Digits.isDigit_of_mem_decimal,
    List.dropWhile_append_of_pos fun _ => Digits.isDigit_of_mem_decimal]
  cases rest with
  | nil => simp
  | cons c rest =>
    have other := (stops c rfl).1
    rw [List.takeWhile_cons_of_neg (by simp [other]), List.dropWhile_cons_of_neg (by simp [other]),
      List.append_nil]

theorem scanWhole_decimal (n : Nat) {rest : List Char} (stops : Stops rest) :
    scanWhole (decimal n ++ rest) = some (decimal n, rest) := by
  rcases decimal_cases n with zero | ⟨c, ds, is, notZero, digit⟩
  · rw [zero]
    rfl
  · have spans := span_decimal n stops
    rw [is, List.cons_append] at spans ⊢
    rw [scanWhole, if_neg notZero, if_pos digit, spans]

theorem Stops.fraction {rest : List Char} (stops : Stops rest) : scanFraction rest = ([], rest) := by
  unfold scanFraction
  split
  · exact absurd rfl (stops '.' rfl).2.1
  · rfl

theorem Stops.exponent {rest : List Char} (stops : Stops rest) : scanExponent rest = ([], rest) := by
  unfold scanExponent
  split
  · rename_i c sign rest
    rw [if_neg (not_or.mpr (stops c rfl).2.2)]
  · rfl

theorem scanNumber_intText (n : Int) {rest : List Char} (stops : Stops rest) :
    scanNumber (intText n ++ rest) = some (intText n, [], rest) := by
  have head : (intText n ++ rest).head? = some '-' ↔ n < 0 := by
    unfold intText
    split_ifs with negative
    · simp [negative]
    · rcases decimal_cases n.natAbs with zero | ⟨c, ds, is, -, digit⟩
      · simp [zero, negative]
      · simp only [is, List.nil_append, List.cons_append, List.head?_cons, Option.some.injEq,
          negative, iff_false]
        rintro rfl
        cases digit
  unfold scanNumber
  simp only [head]
  have body : (intText n ++ rest).drop (if n < 0 then ['-'] else []).length = decimal n.natAbs ++ rest := by
    unfold intText
    split_ifs <;> rfl
  rw [body, scanWhole_decimal _ stops]
  simp only [stops.fraction, stops.exponent, List.append_nil]
  rfl

theorem intText_begins {n : Int} {c : Char} {rest : List Char} (is : intText n = c :: rest) :
    c = '-' ∨ c.isDigit = true := by
  unfold intText at is
  split_ifs at is
  · exact .inl (List.cons.inj is).1.symm
  · rw [List.nil_append] at is
    exact .inr (Digits.isDigit_of_mem_decimal (is ▸ List.mem_cons_self : c ∈ decimal n.natAbs))

theorem readInt_intText (n : Int) : readInt (intText n) = n := by
  have value : (Nat.ofDigitChars 10 (decimal n.natAbs) 0 : Int) = n.natAbs :=
    congrArg _ (Nat.ofDigitChars_toDigits (by decide) (by decide))
  unfold readInt intText
  by_cases negative : n < 0
  · rw [if_pos negative, List.singleton_append, List.head?_cons, if_pos rfl, List.tail_cons, value]
    omega
  · rw [if_neg negative, List.nil_append, if_neg, value]
    · omega
    · rcases decimal_cases n.natAbs with zero | ⟨c, ds, is, -, digit⟩
      · rw [zero]
        decide
      · rw [is]
        rintro ⟨⟩
        cases digit

/-! ## Documents -/

/-- A document over the texts `S` and the floating-point numbers `F`. -/
inductive Document (S F : Type)
  | null
  | bool (b : Bool)
  | int (n : Int)
  | float (x : F)
  | str (s : S)
  | list (items : List (Document S F))
  | tuple (items : List (Document S F))
  | dict (entries : List (S × Document S F))

abbrev Value (F : Type) := Document Str F

/-- Floating-point numbers and their shortest texts. -/
structure Floats (F : Type) where
  repr : F → List Char
  parse : List Char → F
  parse_repr : ∀ x, parse (repr x) = x
  /-- the text is a floating-point literal -/
  literal : ∀ x rest, Stops rest → ∃ whole fraction, scanNumber (repr x ++ rest) =
    some (whole, fraction, rest) ∧ fraction ≠ [] ∧ whole ++ fraction = repr x
  /-- and begins like a number -/
  begins : ∀ x, ∃ c rest, repr x = c :: rest ∧ (c = '-' ∨ c.isDigit = true)

/-- Floating-point numbers that are not told apart. -/
def Floats.alike : Floats Unit where
  repr _ := ['0', '.', '0']
  parse _ := ()
  parse_repr _ := rfl
  literal _ rest stops := by
    have digits : ('0' :: rest).span Char.isDigit = (['0'], rest) := span_decimal 0 stops
    have fraction : scanFraction ('.' :: '0' :: rest) = (['.', '0'], rest) := by
      simp only [scanFraction, scanTail, digits]
      rfl
    refine ⟨['0'], ['.', '0'], ?_, nofun, rfl⟩
    simp [scanNumber, scanWhole, fraction, stops.exponent]
  begins _ := ⟨'0', _, rfl, .inr (by decide)⟩

section Documents

variable {F : Type} (floats : Floats F)

mutual

/-- `json.dumps`. -/
def dumps : Value F → List Char
  | .null => ['n', 'u', 'l', 'l']
  | .bool true => ['t', 'r', 'u', 'e']
  | .bool false => ['f', 'a', 'l', 's', 'e']
  | .int n => intText n
  | .float x => floats.repr x
  | .str s => quoted s
  | .list [] | .tuple [] => ['[', ']']
  | .list (item :: items) | .tuple (item :: items) => '[' :: dumps item ++ dumpsItems items
  | .dict [] => ['\x7b', '\x7d']
  | .dict ((key, value) :: entries) => '\x7b' :: quoted key ++ ':' :: dumps value ++ dumpsEntries entries

def dumpsItems : List (Value F) → List Char
  | [] => [']']
  | item :: items => ',' :: dumps item ++ dumpsItems items

def dumpsEntries : List (Str × Value F) → List Char
  | [] => ['\x7d']
  | (key, value) :: entries => ',' :: quoted key ++ ':' :: dumps value ++ dumpsEntries entries

end

/-- The order of strings, by their code points. -/
def keyLT (a b : Str) : Prop := a.map CodePoint.ord < b.map CodePoint.ord

instance : DecidableRel keyLT := fun _ _ => inferInstanceAs (Decidable (_ < _))

/-- The hook: repeated keys are refused. -/
def pairs (entries : List (Str × Value F)) : Option (Value F) :=
  if (entries.map Prod.fst).Nodup then
    some (.dict (entries.insertionSort fun a b => ¬ keyLT b.1 a.1))
  else none

mutual

/-- `scan_once`. The fuel is for the nesting and the length of lists. -/
def scan : Nat → List Char → Option (Value F × List Char)
  | 0, _ => none
  | fuel + 1, text =>
    match text with
    | [] => none
    | '"' :: rest => (scanString rest).map fun (s, after) => (.str s, after)
    | 'n' :: 'u' :: 'l' :: 'l' :: rest => some (.null, rest)
    | 't' :: 'r' :: 'u' :: 'e' :: rest => some (.bool true, rest)
    | 'f' :: 'a' :: 'l' :: 's' :: 'e' :: rest => some (.bool false, rest)
    | '[' :: rest =>
      match skipSpace rest with
      | ']' :: after => some (.list [], after)
      | inside => (scanItems fuel inside).map fun (items, after) => (.list items, after)
    | '\x7b' :: rest =>
      match skipSpace rest with
      | '\x7d' :: after => some (.dict [], after)
      | inside =>
        match scanEntries fuel inside with
        | none => none
        | some (entries, after) => (pairs entries).map fun value => (value, after)
    | text =>
      match scanNumber text with
      | none => none
      | some (whole, [], rest) => some (.int (readInt whole), rest)
      | some (whole, fraction, rest) => some (.float (floats.parse (whole ++ fraction)), rest)

/-- The items of a list, from the first one on. -/
def scanItems : Nat → List Char → Option (List (Value F) × List Char)
  | 0, _ => none
  | fuel + 1, text =>
    match scan fuel text with
    | none => none
    | some (item, rest) =>
      match skipSpace rest with
      | ']' :: after => some ([item], after)
      | ',' :: after => (scanItems fuel (skipSpace after)).map fun (items, after) => (item :: items, after)
      | _ => none

/-- The entries of a dictionary, from the first key on. -/
def scanEntries : Nat → List Char → Option (List (Str × Value F) × List Char)
  | 0, _ => none
  | fuel + 1, text =>
    match text with
    | '"' :: rest =>
      match scanString rest with
      | none => none
      | some (key, rest) =>
        match skipSpace rest with
        | ':' :: rest =>
          match scan fuel (skipSpace rest) with
          | none => none
          | some (value, rest) =>
            match skipSpace rest with
            | '\x7d' :: after => some ([(key, value)], after)
            | ',' :: after =>
              (scanEntries fuel (skipSpace after)).map fun (entries, after) =>
                ((key, value) :: entries, after)
            | _ => none
        | _ => none
    | _ => none

end

/-- `json.loads`. -/
def loads (text : List Char) : Option (Value F) :=
  match scan floats (text.length + 1) (skipSpace text) with
  | some (value, rest) => if skipSpace rest = [] then some value else none
  | none => none

/-! ## Round trip -/

/-- The string holds no high surrogate. -/
def Single (s : Str) : Prop := ∀ c ∈ s, isHigh c = false

mutual

/-- The document is printed faithfully. -/
def Plain : Value F → Prop
  | .null | .bool _ | .int _ | .float _ => True
  | .str s => Single s
  | .list items => PlainItems items
  | .tuple _ => False
  | .dict entries => PlainEntries entries ∧ (entries.map Prod.fst).Pairwise keyLT

def PlainItems : List (Value F) → Prop
  | [] => True
  | item :: items => Plain item ∧ PlainItems items

def PlainEntries : List (Str × Value F) → Prop
  | [] => True
  | (key, value) :: entries => Single key ∧ Plain value ∧ PlainEntries entries

end

theorem keyLT_irrefl (a : Str) : ¬ keyLT a a := lt_irrefl _

theorem pairs_ascending {entries : List (Str × Value F)} (ascending : (entries.map Prod.fst).Pairwise keyLT) :
    pairs entries = some (.dict entries) := by
  have distinct : (entries.map Prod.fst).Nodup :=
    ascending.imp fun {a b} (less : keyLT a b) (same : a = b) => keyLT_irrefl b (same ▸ less)
  have sorted : entries.Pairwise fun a b => ¬ keyLT b.1 a.1 :=
    (List.pairwise_map.mp ascending).imp fun less => lt_asymm less
  rw [pairs, if_pos distinct, sorted.insertionSort_eq]

/-- A document begins with a visible character that closes no list. -/
theorem dumps_begins (v : Value F) :
    ∃ c rest, dumps floats v = c :: rest ∧ (¬ (c = ' ' ∨ c = '\t' ∨ c = '\n' ∨ c = '\r')) ∧ c ≠ ']' := by
  have digit {c : Char} (is : c = '-' ∨ c.isDigit = true) :
      (¬ (c = ' ' ∨ c = '\t' ∨ c = '\n' ∨ c = '\r')) ∧ c ≠ ']' := by
    constructor
    · rintro (rfl | rfl | rfl | rfl) <;> revert is <;> decide
    · rintro rfl
      revert is
      decide
  cases v with
  | null => exact ⟨_, _, rfl, by decide⟩
  | bool b => cases b <;> exact ⟨_, _, rfl, by decide⟩
  | int n =>
    by_cases negative : n < 0
    · exact ⟨'-', decimal n.natAbs, by rw [dumps, intText, if_pos negative]; rfl, by decide⟩
    · rcases decimal_cases n.natAbs with zero | ⟨c, ds, is, -, isDigit⟩
      · exact ⟨'0', [], by rw [dumps, intText, if_neg negative, zero]; rfl, by decide⟩
      · exact ⟨c, ds, by rw [dumps, intText, if_neg negative, is]; rfl, digit (.inr isDigit)⟩
  | float x =>
    obtain ⟨c, rest, is, number⟩ := floats.begins x
    exact ⟨c, rest, by rw [dumps, is], digit number⟩
  | str s => exact ⟨_, _, rfl, by decide⟩
  | list items => cases items <;> exact ⟨_, _, rfl, by decide⟩
  | tuple items => cases items <;> exact ⟨_, _, rfl, by decide⟩
  | dict entries => cases entries <;> exact ⟨_, _, rfl, by decide⟩

theorem scan_number {c : Char} (number : c = '-' ∨ c.isDigit = true) (fuel : Nat) (rest : List Char) :
    scan floats (fuel + 1) (c :: rest) =
      match scanNumber (c :: rest) with
      | none => none
      | some (whole, [], rest) => some (.int (readInt whole), rest)
      | some (whole, fraction, rest) => some (.float (floats.parse (whole ++ fraction)), rest) := by
  rw [scan]
  · rintro ⟨⟩
  all_goals
    rintro _ ⟨⟩
    revert number
    decide

theorem scan_list {c : Char} (visible : ¬ (c = ' ' ∨ c = '\t' ∨ c = '\n' ∨ c = '\r'))
    (opens : c ≠ ']') (fuel : Nat) (rest : List Char) : scan floats (fuel + 1) ('[' :: c :: rest) =
      (scanItems floats fuel (c :: rest)).map fun (items, after) => (.list items, after) := by
  rw [scan, skipSpace_cons visible]
  split
  · rename_i is
    exact absurd (List.cons.inj is).1 opens
  · rfl

theorem stops_of {c : Char} (other : c = ',' ∨ c = ']' ∨ c = '\x7d') (rest : List Char) :
    Stops (c :: rest) := by
  rintro _ ⟨⟩
  rcases other with rfl | rfl | rfl <;> decide

theorem skipSpace_dumps (v : Value F) (rest : List Char) :
    skipSpace (dumps floats v ++ rest) = dumps floats v ++ rest := by
  obtain ⟨c, text, is, visible, -⟩ := dumps_begins floats v
  rw [is, List.cons_append, skipSpace_cons visible]

theorem quoted_append (s : Str) (rest : List Char) :
    quoted s ++ rest = '"' :: (s.flatMap printChar ++ '"' :: rest) := by
  simp only [quoted, List.cons_append, List.append_assoc, List.nil_append]

theorem skipSpace_quoted (s : Str) (rest : List Char) : skipSpace (quoted s ++ rest) = quoted s ++ rest :=
  skipSpace_cons (by decide) _

mutual

/-- A printed document is read back, and nothing of what follows it. -/
theorem scan_dumps (v : Value F) (plain : Plain v) (fuel : Nat) (enough : (dumps floats v).length ≤ fuel)
    {rest : List Char} (stops : Stops rest) : scan floats fuel (dumps floats v ++ rest) = some (v, rest) := by
  obtain ⟨c, text, begins, visible, -⟩ := dumps_begins floats v
  obtain ⟨fuel, rfl⟩ : ∃ n, fuel = n + 1 := ⟨fuel - 1, by rw [begins, List.length_cons] at enough; omega⟩
  match v with
  | .null => rfl
  | .bool true => rfl
  | .bool false => rfl
  | .int n =>
    have number : c = '-' ∨ c.isDigit = true := by
      rw [dumps] at begins
      exact intText_begins begins
    rw [begins, List.cons_append, scan_number floats number, ← List.cons_append, ← begins, dumps,
      scanNumber_intText n stops]
    simp only [readInt_intText]
  | .float x =>
    obtain ⟨c, text, begins, number⟩ := floats.begins x
    obtain ⟨whole, fraction, scans, float, is⟩ := floats.literal x rest stops
    rw [dumps, begins, List.cons_append, scan_number floats number, ← List.cons_append, ← begins, scans]
    cases fraction with
    | nil => exact absurd rfl float
    | cons d ds => simp only [is, floats.parse_repr]
  | .str s =>
    rw [dumps, quoted_append]
    simp only [scan, scanString_quoted plain, Option.map_some]
  | .list [] => rfl
  | .list (item :: items) =>
    simp only [dumps, List.length_cons, List.cons_append, List.append_assoc] at enough ⊢
    have inside := scanItems_dumps item items plain.1 plain.2 fuel (by omega) rest
    obtain ⟨c, text, first, visible, opens⟩ := dumps_begins floats item
    rw [first, List.cons_append] at inside ⊢
    rw [scan_list floats visible opens, inside]
    rfl
  | .dict [] => rfl
  | .dict ((key, value) :: entries) =>
    obtain ⟨⟨single, plain, plains⟩, ascending⟩ := plain
    simp only [dumps, List.length_cons, List.cons_append, List.append_assoc] at enough ⊢
    have inside := scanEntries_dumps key value entries single plain plains fuel (by simpa using enough) rest
    rw [scan, skipSpace_quoted]
    rw [quoted_append] at inside ⊢
    split
    · rename_i is
      cases is
    · simp only [inside, pairs_ascending ascending, Option.map_some]
termination_by fuel

theorem scanItems_dumps (item : Value F) (items : List (Value F)) (plain : Plain item)
    (plains : PlainItems items)
    (fuel : Nat) (enough : (dumps floats item ++ dumpsItems floats items).length ≤ fuel) (rest : List Char) :
    scanItems floats fuel (dumps floats item ++ (dumpsItems floats items ++ rest)) =
      some (item :: items, rest) := by
  rw [List.length_append] at enough
  match items with
  | [] =>
    simp only [dumpsItems, List.length_singleton, List.singleton_append] at enough ⊢
    obtain ⟨fuel, rfl⟩ : ∃ n, fuel = n + 1 := ⟨fuel - 1, by omega⟩
    rw [scanItems, scan_dumps item plain fuel (by omega) (stops_of (.inr (.inl rfl)) rest)]
    rfl
  | next :: items =>
    simp only [dumpsItems, List.length_cons, List.cons_append, List.append_assoc] at enough ⊢
    obtain ⟨fuel, rfl⟩ : ∃ n, fuel = n + 1 := ⟨fuel - 1, by omega⟩
    have later := scanItems_dumps next items plains.1 plains.2 fuel (by omega) rest
    rw [scanItems, scan_dumps item plain fuel (by omega) (stops_of (.inl rfl) _)]
    simp only [skipSpace_cons (c := ',') (by decide), skipSpace_dumps, later, Option.map_some]
termination_by fuel

theorem scanEntries_dumps (key : Str) (value : Value F) (entries : List (Str × Value F)) (single : Single key)
    (plain : Plain value) (plains : PlainEntries entries) (fuel : Nat)
    (enough : (quoted key ++ ':' :: (dumps floats value ++ dumpsEntries floats entries)).length ≤ fuel)
    (rest : List Char) :
    scanEntries floats fuel (quoted key ++ ':' :: (dumps floats value ++
      (dumpsEntries floats entries ++ rest))) =
      some ((key, value) :: entries, rest) := by
  simp only [List.length_append, List.length_cons] at enough
  obtain ⟨fuel, rfl⟩ : ∃ n, fuel = n + 1 := ⟨fuel - 1, by omega⟩
  rw [quoted_append]
  match entries with
  | [] =>
    simp only [dumpsEntries, List.length_singleton, List.singleton_append] at enough ⊢
    simp only [scanEntries, scanString_quoted single, skipSpace_cons (c := ':') (by decide), skipSpace_dumps,
      scan_dumps value plain fuel (by omega) (stops_of (.inr (.inr rfl)) rest)]
    rfl
  | (next, other) :: entries =>
    simp only [dumpsEntries, List.length_cons, List.length_append, List.cons_append,
      List.append_assoc] at enough ⊢
    have later := scanEntries_dumps next other entries plains.1 plains.2.1 plains.2.2 fuel
      (by simp only [List.length_append, List.length_cons]; omega) rest
    simp only [scanEntries, scanString_quoted single, skipSpace_cons (c := ':') (by decide), skipSpace_dumps,
      scan_dumps value plain fuel (by omega) (stops_of (.inl rfl) _), skipSpace_cons (c := ',') (by decide),
      skipSpace_quoted, later, Option.map_some]
termination_by fuel

end

/-- **A printed document is read back**, with white space around it. -/
theorem loads_dumps {v : Value F} (plain : Plain v) {rest : List Char} (stops : Stops rest)
    (blank : skipSpace rest = []) : loads floats (dumps floats v ++ rest) = some v := by
  rw [loads, skipSpace_dumps, scan_dumps floats v plain _ (by rw [List.length_append]; omega) stops]
  simp only [blank, if_true]

/-- Documents that print alike are the same. -/
theorem dumps_inj {v w : Value F} (plain : Plain v) (plain' : Plain w)
    (same : dumps floats v = dumps floats w) :
    v = w := by
  have stops : Stops [] := nofun
  have first := loads_dumps floats plain stops rfl
  rw [same, loads_dumps floats plain' stops rfl] at first
  exact (Option.some.inj first).symm

end Documents

end ProgramSplit.Lib.Json
