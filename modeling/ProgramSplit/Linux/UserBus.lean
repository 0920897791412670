/-
# Linux.UserBus — which runtime directories hold a user's bus

`/run/user/UID`, seen by the loader and by the kernel. `seed_guards` of `bpf-loader.cpp` enrols the bus of
a directory whose name is its owner's number, read by `std::stoul`; `parent_names` of
`resolver_guard.bpf.c` marks a directory by a digit loop of its own. The loader's base 0 takes a leading
zero for octal.

* `number_eq` — what the loader reads in a run of digits;
* `parentNames_userBus` — what the kernel reads in it;
* `octal_eq_decimal` — both bases read the same number exactly below eight;
* `agrees_iff` — the names on which both sides agree for every owner;
* `seedUsers_plain` — a listing of such names is walked to its end and enrols what the kernel marks.
-/
import Mathlib.Data.List.TakeWhile
import ProgramSplit.Lib.Digits
import ProgramSplit.Lib.Words
import ProgramSplit.Linux.GuardNames

namespace ProgramSplit.Linux.UserBus

set_option autoImplicit false

open Lib.Digits
open Lib.Words (ascii)
open GuardNames

/-! ## The loader -/

/-- The base `stoul` finds for base 0 where no `x` can follow. -/
def baseOf (input : Bytes) : Nat :=
  if input.head? = some 48 then 8 else 10

def inBase (base : Nat) (c : UInt8) : Bool :=
  isDigit c && c.toNat - 48 < base

/-- `std::stoul(input, &end, 0)` and `end`, on a run of digits, which has no blank, sign or `0x` in front;
it throws where it reads nothing and where the number is too large. -/
def stoul (input : Bytes) : Option (Nat × Nat) :=
  let digits := input.takeWhile (inBase (baseOf input))
  let value := digitsFrom (baseOf input) 0 digits
  if digits = [] ∨ 2 ^ 64 ≤ value then none else some (value, digits.length)

def number (input : Bytes) : Option Nat :=
  match stoul input with
  | none => none
  | some (result, stop) => if stop ≠ input.length ∨ 0xffffffff < result then none else some result

/-- What `lstat` tells of an entry. -/
structure Stat where
  directory : Bool
  uid : UInt32

structure Entry where
  name : Text
  stat : Option Stat

def candidate (name : Bytes) : Bool :=
  !name.isEmpty && name.length ≤ 10 && name.all isDigit

/-- Whether an entry of `/run/user` reaches `guard_user_bus`; `none` when `number` throws. -/
def enrols (entry : Entry) : Option Bool :=
  if candidate entry.name.val then
    match entry.stat with
    | some ⟨true, uid⟩ => (number entry.name.val).map fun n => uid.toNat == n
    | _ => some false
  else some false

def userDirectory (name : Text) : Text :=
  ⟨ascii "/run/user/" ++ name.val, by simpa using ⟨by decide, name.property⟩⟩

/-- The walk of `seed_guards` over `/run/user`. -/
def seedUsers (host : Host) (netns : UInt32) : List Entry → GuardMaps → Option GuardMaps
  | [], maps => some maps
  | entry :: entries, maps =>
    match enrols entry with
    | none => none
    | some true => seedUsers host netns entries (guardUserBus host maps netns (userDirectory entry.name))
    | some false => seedUsers host netns entries maps

/-! ## The guard -/

def roleRuntime : UInt32 := 32
def roleSystemd : UInt32 := 64

def parentSocket : UInt32 := 0x100
def parentBusSocket : UInt32 := 0x200
def parentResolve : UInt32 := 0x400
def parentUserBus : UInt32 := 0x800

/-- `NAME_IS`: the literal and its terminator. -/
def nameIs (buffer : Bytes) (literal : String) : Bool :=
  (ascii literal ++ [0]).isPrefixOf buffer

/-- The body of the digit loop; `char` is signed. -/
def digitPass (state : Bool × UInt64) (c : UInt8) : Bool × UInt64 :=
  (state.1 && isDigit c, state.2 * 10 + UInt64.ofInt (c.toInt8.toInt - 48))

def flag (test : Bool) (bit : UInt32) : UInt32 :=
  if test then bit else 0

def parentNames (namePtr : Bytes) (ancestor : UInt32) (uid : UInt32) : UInt32 :=
  let (name, length) := readStr 20 (namePtr ++ [0])
  let runtime := ancestor &&& roleRuntime != 0
  let (valid, number) := (name.take (min 10 (length - 1))).foldl digitPass (1 < length && length < 12, 0)
  flag (runtime && (nameIs name "nscd" || nameIs name "avahi-daemon")) parentSocket |||
  flag (runtime && nameIs name "dbus") parentBusSocket |||
  flag (ancestor &&& roleSystemd != 0 && nameIs name "resolve") parentResolve |||
  flag (ancestor &&& roleUserRoot != 0 && valid && number ≤ 0xffffffff &&
    number == uid.toUInt64) parentUserBus

/-! ## Runs of digits to both bases -/

section Run

variable {text : Bytes}

theorem octal_le_decimal (text : Bytes) : digitsFrom 8 0 text ≤ digitsFrom 10 0 text := by
  induction text using List.reverseRecOn with
  | nil => exact Nat.le_refl _
  | append_singleton text c ih =>
    rw [digitsFrom_concat, digitsFrom_concat]
    omega

/-- A run of digits is an octal number of the same value exactly if the value is below eight: any digit
before the last counts for less. -/
theorem octal_eq_decimal (digits : text.all isDigit = true) :
    text.all (inBase 8) = true ∧ digitsFrom 8 0 text = digitsFrom 10 0 text ↔ digitsFrom 10 0 text < 8 := by
  induction text using List.reverseRecOn with
  | nil => decide
  | append_singleton text c ih =>
    rw [List.all_append, Bool.and_eq_true, List.all_cons, Bool.and_eq_true] at digits
    have last : inBase 8 c = true ↔ c.toNat - 48 < 8 := by simp [inBase, digits.2.1]
    have below := octal_le_decimal text
    rw [List.all_append, Bool.and_eq_true, List.all_cons, List.all_nil, Bool.and_true, last,
      digitsFrom_concat, digitsFrom_concat]
    constructor
    · rintro ⟨⟨-, small⟩, same⟩
      omega
    · intro small
      obtain ⟨octal, same⟩ := (ih digits.1).mpr (by omega)
      exact ⟨⟨octal, by omega⟩, by omega⟩

/-- What the loader reads in a run of up to ten digits. -/
theorem number_eq (candidates : candidate text = true) :
    number text = if text.all (inBase (baseOf text)) = true ∧ digitsFrom (baseOf text) 0 text ≤
      0xffffffff then
      some (digitsFrom (baseOf text) 0 text) else none := by
  rw [candidate, Bool.and_eq_true, Bool.and_eq_true, decide_eq_true_iff] at candidates
  obtain ⟨⟨nonempty, short⟩, digits⟩ := candidates
  have base : baseOf text ≤ 10 := by
    unfold baseOf
    split <;> decide
  unfold number stoul
  by_cases all : text.all (inBase (baseOf text)) = true
  · have whole : text.takeWhile (inBase (baseOf text)) = text :=
      List.takeWhile_eq_self_iff.mpr (List.all_eq_true.mp all)
    have bound : digitsFrom (baseOf text) 0 text < 10 ^ 10 :=
      Nat.lt_of_lt_of_le (digitsFrom_lt base digits) (Nat.pow_le_pow_right (by decide) short)
    have some_ : ¬(text = [] ∨ 2 ^ 64 ≤ digitsFrom (baseOf text) 0 text) := by
      rintro (rfl | large)
      · simp at nonempty
      · omega
    rw [whole, if_neg some_]
    dsimp only
    by_cases fits : digitsFrom (baseOf text) 0 text ≤ 0xffffffff
    · rw [if_neg (by omega), if_pos ⟨all, fits⟩]
    · rw [if_pos (by omega), if_neg fun both => fits both.2]
  · -- the number stops before the end of the name
    have stops : (text.takeWhile (inBase (baseOf text))).length ≠ text.length := by
      intro same
      have whole := (List.takeWhile_prefix (inBase (baseOf text))).eq_of_length same
      exact all (List.all_eq_true.mpr (List.takeWhile_eq_self_iff.mp whole))
    have neither : ¬(text.all (inBase (baseOf text)) = true ∧ digitsFrom (baseOf text) 0 text ≤ 0xffffffff) :=
      fun both => all both.1
    rw [if_neg neither]
    split
    next => rfl
    next result stop read =>
      dsimp only at read
      split at read
      next => cases read
      next =>
        cases read
        rw [if_pos (.inl stops)]

theorem digitPass_addend {c : UInt8} (digit : isDigit c = true) :
    (UInt64.ofInt (c.toInt8.toInt - 48)).toNat = c.toNat - 48 := by
  have table : ∀ k < 10, (UInt64.ofInt ((UInt8.ofNat (48 + k)).toInt8.toInt - 48)).toNat = k := by decide
  have range := toNat_of_isDigit digit
  have same : UInt8.ofNat (48 + (c.toNat - 48)) = c := by
    rw [show 48 + (c.toNat - 48) = c.toNat by omega, UInt8.ofNat_toNat]
  have value := table (c.toNat - 48) (by omega)
  rwa [same] at value

/-- The digit loop of the kernel keeps whether all bytes are digits. -/
theorem digitPass_valid (text : Bytes) (state : Bool × UInt64) :
    (text.foldl digitPass state).1 = (state.1 && text.all isDigit) := by
  induction text generalizing state with
  | nil => simp
  | cons c text ih =>
    rw [List.foldl_cons, ih, List.all_cons, digitPass, Bool.and_assoc]

/-- The digit loop of the kernel reads up to ten digits as a decimal number. -/
theorem digitPass_value (valid : Bool) (short : text.length ≤ 10) (digits : text.all isDigit = true) :
    (text.foldl digitPass (valid, 0)).2.toNat = digitsFrom 10 0 text := by
  induction text using List.reverseRecOn with
  | nil => rfl
  | append_singleton text c ih =>
    have bound := digitsFrom_lt (Nat.le_refl 10) digits
    have top : 10 ^ (text ++ [c]).length ≤ 10 ^ 10 := Nat.pow_le_pow_right (by decide) short
    rw [List.all_append, Bool.and_eq_true, List.all_cons, Bool.and_eq_true] at digits
    rw [List.length_append, List.length_singleton] at short
    have front := ih (by omega) digits.1
    rw [digitsFrom_concat] at bound ⊢
    rw [List.foldl_append]
    show ((text.foldl digitPass (valid, 0)).2 * 10 + _).toNat = _
    rw [UInt64.toNat_add, UInt64.toNat_mul, front, digitPass_addend digits.2.1]
    show (digitsFrom 10 0 text * 10 % 2 ^ 64 + (c.toNat - 48)) % 2 ^ 64 = _
    omega

end Run

theorem userBus_bit : ∀ p q r t : Bool,
    (flag p parentSocket ||| flag q parentBusSocket ||| flag r parentResolve |||
    flag t parentUserBus) &&& parentUserBus ≠ 0 ↔ t = true := by
  decide

/-- What the kernel reads in a name: up to ten digits, the owner's number. -/
theorem parentNames_userBus (name : Text) {ancestor : UInt32} (user : ancestor &&& roleUserRoot ≠ 0)
    (owner : UInt32) :
    parentNames name.val ancestor owner &&& parentUserBus ≠ 0 ↔
      candidate name.val = true ∧ digitsFrom 10 0 name.val = owner.toNat := by
  have user' : (ancestor &&& roleUserRoot != 0) = true := by simpa using user
  obtain ⟨text, plain⟩ := name
  have read : readStr 20 (text ++ [0]) = (fill 20 (text.take 19 ++ [0]), (text.take 19).length + 1) := by
    rw [readStr, takeWhile_text plain]
  rw [parentNames, read]
  rw [userBus_bit, user', Bool.true_and, digitPass_valid, candidate]
  simp only [Bool.and_eq_true, decide_eq_true_iff, List.length_take, beq_iff_eq, Nat.add_sub_cancel]
  by_cases short : text.length ≤ 10
  · have front : (fill 20 (text.take 19 ++ [0])).take (min 10 (min 19 text.length)) = text := by
      have all : text.take 19 = text := List.take_of_length_le (by omega)
      rw [all, show min 10 (min 19 text.length) =
        text.length by omega, fill, List.append_assoc, List.take_left]
    rw [front]
    by_cases digits : text.all isDigit = true
    · have value := digitPass_value (decide (1 < min 19 text.length + 1) &&
        decide (min 19 text.length + 1 < 12)) short digits
      have exact_ : (text.foldl digitPass (decide (1 < min 19 text.length + 1) &&
        decide (min 19 text.length + 1 < 12), 0)).2 =
          owner.toUInt64 ↔ digitsFrom 10 0 text = owner.toNat := by
        rw [← UInt64.toNat_inj, value, UInt32.toNat_toUInt64]
      have bound := owner.toNat_lt
      rw [exact_, UInt64.le_iff_toNat_le, value]
      show (((1 < min 19 text.length + 1 ∧ min 19 text.length + 1 < 12) ∧ _) ∧
        digitsFrom 10 0 text ≤ 0xffffffff) ∧ _ ↔ _
      have nonempty : text.isEmpty = false ↔ 1 ≤ text.length := by
        cases text <;> simp
      simp only [Bool.not_eq_true', nonempty, digits, and_true]
      omega
    · simp [digits]
  · have long : ¬min 19 text.length + 1 < 12 := by omega
    simp [long, short]

/-! ## Agreement -/

/-- The loader goes on past a directory of this name and owner, and enrols its bus exactly if the kernel
marks it under the user root. -/
def Agrees (name : Text) (owner : UInt32) : Prop :=
  ∃ enrolled, enrols ⟨name, some ⟨true, owner⟩⟩ = some enrolled ∧
    ∀ ancestor : UInt32, ancestor &&& roleUserRoot ≠ 0 →
      (enrolled = true ↔ parentNames name.val ancestor owner &&& parentUserBus ≠ 0)

/-- The names the loader reads as the kernel does: where it takes them for numbers, 32 bits hold the number
and it has no leading zero, unless it is below eight. -/
def Plain (name : Bytes) : Prop :=
  candidate name = true → digitsFrom 10 0 name ≤ 0xffffffff ∧
    (name.head? = some 48 → digitsFrom 10 0 name < 8)

instance (name : Bytes) : Decidable (Plain name) :=
  inferInstanceAs (Decidable (_ → _))

section Name

variable {name : Text}

theorem digits_of_candidate {text : Bytes} (candidates : candidate text = true) : text.all isDigit = true :=
  (Bool.and_eq_true _ _ ▸ candidates).2

/-- A number with a leading zero has nine digits at most that count. -/
theorem leading_zero_fits {text : Bytes} (candidates : candidate text = true) (zero : text.head? = some 48) :
    digitsFrom 10 0 text ≤ 0xffffffff := by
  rw [candidate, Bool.and_eq_true, Bool.and_eq_true, decide_eq_true_iff] at candidates
  obtain ⟨⟨nonempty, short⟩, digits⟩ := candidates
  cases text with
  | nil => simp at zero
  | cons c rest =>
    rw [List.head?_cons, Option.some.injEq] at zero
    subst zero
    rw [List.all_cons, Bool.and_eq_true] at digits
    rw [List.length_cons] at short
    have bound := digitsFrom_lt (Nat.le_refl 10) digits.2
    have top : 10 ^ rest.length ≤ 10 ^ 9 := Nat.pow_le_pow_right (by decide) (by omega)
    show digitsFrom 10 0 rest ≤ _
    omega

/-- On its names the loader reads the decimal number. -/
theorem number_plain (plain : Plain name.val) (candidates : candidate name.val = true) :
    number name.val = some (digitsFrom 10 0 name.val) := by
  obtain ⟨fits, below⟩ := plain candidates
  have digits := digits_of_candidate candidates
  rw [number_eq candidates]
  by_cases zero : name.val.head? = some 48
  · obtain ⟨octal, same⟩ := (octal_eq_decimal digits).mpr (below zero)
    rw [show baseOf name.val = 8 from if_pos zero, same, if_pos ⟨octal, fits⟩]
  · have decimal : name.val.all (inBase 10) = true := by
      rw [List.all_eq_true] at digits ⊢
      intro c member
      have range := toNat_of_isDigit (digits c member)
      simp only [inBase, digits c member, Bool.true_and, decide_eq_true_iff]
      omega
    rw [show baseOf name.val = 10 from if_neg zero, if_pos ⟨decimal, fits⟩]

theorem agrees_of_plain (plain : Plain name.val) (owner : UInt32) : Agrees name owner := by
  by_cases candidates : candidate name.val = true
  · refine ⟨owner.toNat == digitsFrom 10 0 name.val, ?_, fun ancestor user => ?_⟩
    · rw [enrols, if_pos candidates]
      rw [number_plain plain candidates]
      rfl
    · rw [parentNames_userBus name user, and_iff_right candidates, beq_iff_eq, eq_comm]
  · refine ⟨false, by rw [enrols, if_neg candidates], fun ancestor user => ?_⟩
    rw [parentNames_userBus name user]
    exact ⟨fun impossible => by simp at impossible, fun marked => absurd marked.1 candidates⟩

/-- The owner whose number the kernel reads tells the two sides apart on every other name. -/
theorem plain_of_agrees (agrees : ∀ owner, Agrees name owner) : Plain name.val := by
  intro candidates
  have digits := digits_of_candidate candidates
  -- the loader did not throw, so it read some number that 32 bits hold
  have read : ∃ n, number name.val = some n := by
    obtain ⟨enrolled, went, -⟩ := agrees 0
    rw [enrols, if_pos candidates] at went
    obtain ⟨n, found, -⟩ := Option.map_eq_some_iff.mp went
    exact ⟨n, found⟩
  obtain ⟨n, found⟩ := read
  rw [number_eq candidates] at found
  split at found
  next whole =>
    by_cases zero : name.val.head? = some 48
    · have fits := leading_zero_fits candidates zero
      refine ⟨fits, fun _ => (octal_eq_decimal digits).mp ?_⟩
      rw [show baseOf name.val = 8 from if_pos zero] at whole
      refine ⟨whole.1, ?_⟩
      obtain ⟨enrolled, went, marks⟩ := agrees (UInt32.ofNat (digitsFrom 10 0 name.val))
      have owner : (UInt32.ofNat (digitsFrom 10 0 name.val)).toNat = digitsFrom 10 0 name.val :=
        UInt32.toNat_ofNat_of_lt' (by show _ < 2 ^ 32; omega)
      have marked := (marks roleUserRoot (by decide)).mpr
        ((parentNames_userBus name (by decide) _).mpr ⟨candidates, owner.symm⟩)
      rw [enrols, if_pos candidates] at went
      dsimp only at went
      rw [number_eq candidates, show baseOf name.val = 8 from if_pos zero, if_pos whole, marked, owner,
        Option.map_some, Option.some.injEq, beq_iff_eq] at went
      exact went.symm
    · rw [show baseOf name.val = 10 from if_neg zero] at whole
      exact ⟨whole.2, fun impossible => absurd impossible zero⟩
  next => cases found

end Name

/-- The bus of a directory, as an endpoint a lookup can find. -/
def busOf (name : Text) : Endpoint :=
  .path (busPath (userDirectory name)).val

/-- A runtime directory's name is short enough for a socket address, so its bus is enrolled. -/
theorem addressRole_userBus (host : Host) (maps : GuardMaps) {netns netns' role : UInt32} {e : Endpoint}
    (valid : e.Valid) {name : Text} (short : name.val.length ≤ 10) :
    role &&& addressRole (guardUserBus host maps netns (userDirectory name)) netns' (some e.address) ≠ 0 ↔
      (netns' = netns ∧ e = busOf name ∧ role &&& roleSocket ≠ 0) ∨
        role &&& addressRole maps netns' (some e.address) ≠ 0 := by
  have fits : (busPath (userDirectory name)).val.length < 108 := by
    have head : (ascii "/run/user/").length = 10 := by decide
    have tail := busPath_length_le (userDirectory name)
    simp only [userDirectory, List.length_append, head] at tail
    exact Nat.lt_of_le_of_lt tail (by omega)
  refine (addressRole_apply valid (.userBus netns (userDirectory name))).trans ?_
  simp only [Call.endpoints, fits, if_true, List.mem_singleton, Call.netns, busOf, eq_comm]

/-- What the kernel marks as the directory of a user's bus. -/
def Marked (e : Entry) : Prop :=
  ∃ owner, e.stat = some ⟨true, owner⟩ ∧ parentNames e.name.val roleUserRoot owner &&& parentUserBus ≠ 0

/-- What the walk does at an entry with a plain name, as the kernel sees it. -/
theorem enrols_plain {e : Entry} (plain : Plain e.name.val) :
    ∃ enrolled, enrols e = some enrolled ∧ (enrolled = true ↔ Marked e) := by
  obtain ⟨name, stat⟩ := e
  have passed : (∀ owner, stat ≠ some ⟨true, owner⟩) → enrols ⟨name, stat⟩ = some false := by
    intro other
    unfold enrols
    split
    next =>
      split
      next uid shape => exact absurd shape (other uid)
      next => rfl
    next => rfl
  by_cases directory : ∃ owner, stat = some ⟨true, owner⟩
  · obtain ⟨owner, rfl⟩ := directory
    obtain ⟨enrolled, went, marks⟩ := agrees_of_plain plain owner
    refine ⟨enrolled, went, (marks roleUserRoot (by decide)).trans ⟨fun marked => ⟨owner, rfl, marked⟩, ?_⟩⟩
    rintro ⟨owner', same, marked⟩
    cases same
    exact marked
  · refine ⟨false, passed fun owner same => directory ⟨owner, same⟩,
      fun impossible => by simp at impossible, ?_⟩
    rintro ⟨owner, same, -⟩
    exact absurd ⟨owner, same⟩ directory

/-- A listing of plain names is walked to its end, and the buses enrolled are those of the directories the
kernel marks. -/
theorem seedUsers_plain (host : Host) (netns : UInt32) (entries : List Entry)
    (plain : ∀ e ∈ entries, Plain e.name.val) :
    ∀ maps, ∃ after, seedUsers host netns entries maps = some after ∧
      ∀ netns' role (bus : Endpoint), bus.Valid →
        (role &&& addressRole after netns' (some bus.address) ≠ 0 ↔
          (∃ e ∈ entries, Marked e ∧ netns' = netns ∧ bus = busOf e.name ∧ role &&& roleSocket ≠ 0) ∨
            role &&& addressRole maps netns' (some bus.address) ≠ 0) := by
  induction entries with
  | nil =>
    intro maps
    exact ⟨maps, rfl, by simp⟩
  | cons e entries ih =>
    intro maps
    have rest := ih fun e member => plain e (List.mem_cons_of_mem _ member)
    obtain ⟨enrolled, went, marked⟩ := enrols_plain (plain e List.mem_cons_self)
    cases enrolled with
    | false =>
      have unmarked : ¬Marked e := fun found => by simpa using marked.mpr found
      obtain ⟨after, walked, found⟩ := rest maps
      refine ⟨after, by rw [seedUsers, went]; exact walked, fun netns' role bus valid => ?_⟩
      rw [found netns' role bus valid, List.exists_mem_cons_iff, or_assoc]
      exact (or_iff_right fun both => unmarked both.1).symm
    | true =>
      have hit : Marked e := marked.mp rfl
      have short : e.name.val.length ≤ 10 := by
        obtain ⟨owner, -, hit⟩ := hit
        have candidates := ((parentNames_userBus e.name (by decide) owner).mp hit).1
        rw [candidate, Bool.and_eq_true, Bool.and_eq_true, decide_eq_true_iff] at candidates
        exact candidates.1.2
      obtain ⟨after, walked, found⟩ := rest (guardUserBus host maps netns (userDirectory e.name))
      refine ⟨after, by rw [seedUsers, went]; exact walked, fun netns' role bus valid => ?_⟩
      rw [found netns' role bus valid, List.exists_mem_cons_iff, addressRole_userBus host maps valid short,
        and_iff_right hit, or_left_comm, or_assoc]

/-- **Agreement.** The loader passes a directory under `/run/user` and enrols its bus exactly if the kernel
marks it, for every owner, exactly on the plain names; and a whole listing of plain names is walked without
failing, and the addresses that then have a role are those that had it and the buses the kernel marks. -/
theorem user_bus_agreement (host : Host) (netns : UInt32) :
    (∀ name : Text, (∀ owner, Agrees name owner) ↔ Plain name.val) ∧
    ∀ entries : List Entry, (∀ e ∈ entries, Plain e.name.val) → ∀ maps, ∃ after,
      seedUsers host netns entries maps = some after ∧
      ∀ netns' role (bus : Endpoint), bus.Valid →
        (role &&& addressRole after netns' (some bus.address) ≠ 0 ↔
          (∃ e ∈ entries, Marked e ∧ netns' = netns ∧ bus = busOf e.name ∧ role &&& roleSocket ≠ 0) ∨
            role &&& addressRole maps netns' (some bus.address) ≠ 0) :=
  ⟨fun _ => ⟨plain_of_agrees, agrees_of_plain⟩, fun entries plain => seedUsers_plain host netns entries plain⟩

/-! ## Poles -/

def zeroEight : Text := ⟨ascii "08", by decide⟩
def zeroTen : Text := ⟨ascii "010", by decide⟩
def pastWord : Text := ⟨ascii "4294967296", by decide⟩

/-- `08` and a number past 32 bits stop the loader; `010` is a bus to the kernel under owner 10 and
to the loader under owner 8. -/
theorem leading_zero_disagrees :
    enrols ⟨zeroEight, some ⟨true, 8⟩⟩ = none ∧ enrols ⟨pastWord, some ⟨true, 0⟩⟩ = none ∧
    enrols ⟨zeroTen, some ⟨true, 10⟩⟩ = some false ∧ parentNames zeroTen.val roleUserRoot 10 = parentUserBus ∧
    enrols ⟨zeroTen, some ⟨true, 8⟩⟩ = some true ∧ parentNames zeroTen.val roleUserRoot 8 = 0 := by
  decide

/-- A listing of one user's directory, one whose number is another's, and a file. -/
def runUser : List Entry :=
  [⟨⟨ascii "1000", by decide⟩, some ⟨true, 1000⟩⟩, ⟨⟨ascii "1001", by decide⟩, some ⟨true, 0⟩⟩,
    ⟨⟨ascii "lock", by decide⟩, some ⟨false, 0⟩⟩]

/-- The walk over such a listing enrols the first bus and not the second. -/
theorem user_bus_agreement_run :
    ∃ after, seedUsers runHost 7 runUser .empty = some after ∧
      roleSocket &&& addressRole after 7 (some (Endpoint.path (ascii "/run/user/1000/bus")).address) ≠ 0 ∧
      ¬roleSocket &&& addressRole after 7
        (some (Endpoint.path (ascii "/run/user/1001/bus")).address) ≠ 0 := by
  obtain ⟨after, walked, found⟩ := (user_bus_agreement runHost 7).2 runUser (by decide) .empty
  refine ⟨after, walked, ?_, ?_⟩
  · rw [found 7 roleSocket _ (by decide)]
    exact .inl ⟨_, List.mem_cons_self, ⟨1000, rfl, by decide +kernel⟩, rfl, by decide +kernel, by decide⟩
  · rw [found 7 roleSocket _ (by decide)]
    rintro (⟨e, member, marked, -, same, -⟩ | before)
    · simp only [runUser, List.mem_cons, List.not_mem_nil, or_false] at member
      obtain rfl | rfl | rfl := member
      · exact absurd same (by decide +kernel)
      · obtain ⟨owner, stat, marked⟩ := marked
        cases stat
        exact absurd marked (by decide +kernel)
      · exact absurd same (by decide +kernel)
    · exact absurd before (by decide +kernel)

end ProgramSplit.Linux.UserBus
