/-
# Lib.Crash — procedures that raise, or die between two steps

A `Proc` runs on a world and a list of answers of its environment. Every step it takes
outside its own memory consumes one answer, which may make the step fail before or
after its effect; when the answers run out the process dies there. What holds of every
list of answers therefore holds at every point a run can be cut off.

`Meets` is the triple of such a procedure, under what its environment can be relied on
for: from the precondition, what holds when it returns, when it raises, and wherever it
dies. `Along` says that a procedure only ever moves along a relation, and `Frame` that a
view of the world never changes.
-/
import Mathlib.Data.List.Basic

namespace ProgramSplit.Lib

set_option autoImplicit false

inductive Outcome (E A : Type)
  | ok (value : A)
  | raised (error : E)
  | died
  deriving DecidableEq, Repr

def Proc (W C E A : Type) := W → List C → Outcome E A × W × List C

namespace Proc

variable {W C E A B : Type}

def ret (a : A) : Proc W C E A := fun w answers => (.ok a, w, answers)

def raise (e : E) : Proc W C E A := fun w answers => (.raised e, w, answers)

def andThen (m : Proc W C E A) (f : A → Proc W C E B) : Proc W C E B := fun w answers =>
  match m w answers with
  | (.ok a, w, answers) => f a w answers
  | (.raised e, w, answers) => (.raised e, w, answers)
  | (.died, w, answers) => (.died, w, answers)

instance : Monad (Proc W C E) where
  pure := ret
  bind := andThen

/-- One step outside the process. -/
def step (f : C → W → Except E A × W) : Proc W C E A
  | w, [] => (.died, w, [])
  | w, c :: answers =>
    match f c w with
    | (.ok a, w) => (.ok a, w, answers)
    | (.error e, w) => (.raised e, w, answers)

/-- Read the world's part that is the process's own. -/
def ask (f : W → A) : Proc W C E A := fun w answers => (.ok (f w), w, answers)

/-- Write the world's part that is the process's own. -/
def alter (f : W → W) : Proc W C E Unit := fun w answers => (.ok (), f w, answers)

def handle (m : Proc W C E A) (h : E → Proc W C E A) : Proc W C E A := fun w answers =>
  match m w answers with
  | (.raised e, w, answers) => h e w answers
  | other => other

/-- Raise unless the condition holds. -/
def require (condition : Bool) (e : E) : Proc W C E Unit :=
  if condition then ret () else raise e

def when (condition : Bool) (m : Proc W C E Unit) : Proc W C E Unit :=
  if condition then m else ret ()

def each (f : B → Proc W C E Unit) : List B → Proc W C E Unit
  | [] => ret ()
  | b :: rest => f b >>= fun _ => each f rest

end Proc

open Proc

section Triples

variable {W C E A B : Type}

/-- From `P`, while every answer meets `rely`: `Q` where it returns, `R` where it raises,
`I` wherever it dies. -/
def Meets (rely : C → Prop) (I P : W → Prop) (m : Proc W C E A) (Q : A → W → Prop)
    (R : E → W → Prop) : Prop :=
  ∀ w, P w → ∀ answers, (∀ c ∈ answers, rely c) →
    match m w answers with
    | (.ok a, w', rest) => Q a w' ∧ ∀ c ∈ rest, rely c
    | (.raised e, w', rest) => R e w' ∧ ∀ c ∈ rest, rely c
    | (.died, w', _) => I w'

variable {rely : C → Prop} {I P S : W → Prop} {R F : E → W → Prop} {Q T : A → W → Prop}
  {M : B → W → Prop} {m : Proc W C E A} {a : A} {e : E} {f : C → W → Except E A × W}

theorem meets_mono (meets : Meets rely I S m T F) (pre : ∀ w, P w → S w)
    (post : ∀ a w, T a w → Q a w) (err : ∀ e w, F e w → R e w) : Meets rely I P m Q R := by
  intro w start answers relied
  have spec := meets w (pre w start) answers relied
  revert spec
  generalize m w answers = result
  obtain ⟨outcome, w', rest⟩ := result
  cases outcome with
  | ok a => exact And.imp_left (post a w')
  | raised e => exact And.imp_left (err e w')
  | died => exact id

theorem meets_pre (meets : Meets rely I S m Q R) (pre : ∀ w, P w → S w) :
    Meets rely I P m Q R :=
  meets_mono meets pre (fun _ _ post => post) fun _ _ err => err

theorem meets_post (meets : Meets rely I P m T R) (post : ∀ a w, T a w → Q a w) : Meets rely I P m Q R :=
  meets_mono meets (fun _ start => start) post fun _ _ err => err

theorem meets_pure (post : ∀ w, P w → Q a w) :
    Meets (E := E) rely I P (pure a) Q R :=
  fun w start _ relied => ⟨post w start, relied⟩

theorem meets_raise (err : ∀ w, P w → R e w) : Meets rely I P (Proc.raise e) Q R :=
  fun w start _ relied => ⟨err w start, relied⟩

theorem meets_bind {m : Proc W C E B} {f : B → Proc W C E A} (first : Meets rely I P m M R)
    (second : ∀ b, Meets rely I (M b) (f b) Q R) : Meets rely I P (m >>= f) Q R := by
  intro w start answers relied
  have spec := first w start answers relied
  revert spec
  simp only [bind, andThen]
  generalize m w answers = result
  obtain ⟨outcome, w', rest⟩ := result
  cases outcome with
  | ok b => exact fun mid => second b w' mid.1 rest mid.2
  | raised e => exact id
  | died => exact id

theorem meets_step (alive : ∀ w, P w → I w)
    (outcome : ∀ w c, P w → rely c → match f c w with
      | (.ok a, w') => Q a w'
      | (.error e, w') => R e w') : Meets rely I P (Proc.step f) Q R := by
  intro w start answers relied
  cases answers with
  | nil => exact alive w start
  | cons c rest =>
    have after := outcome w c start (relied c List.mem_cons_self)
    have tail : ∀ c ∈ rest, rely c := fun c member => relied c (List.mem_cons_of_mem _ member)
    revert after
    simp only [step]
    generalize f c w = result
    obtain ⟨outcome, w'⟩ := result
    cases outcome with
    | ok a => exact fun after => ⟨after, tail⟩
    | error e => exact fun after => ⟨after, tail⟩

theorem meets_ask {f : W → A} (post : ∀ w, P w → Q (f w) w) :
    Meets (E := E) rely I P (Proc.ask f) Q R :=
  fun w start _ relied => ⟨post w start, relied⟩

theorem meets_alter {f : W → W} {Q : Unit → W → Prop} (post : ∀ w, P w → Q () (f w)) :
    Meets (E := E) rely I P (Proc.alter f) Q R :=
  fun w start _ relied => ⟨post w start, relied⟩

theorem meets_handle {h : E → Proc W C E A} (first : Meets rely I P m Q F)
    (second : ∀ e, Meets rely I (F e) (h e) Q R) : Meets rely I P (m.handle h) Q R := by
  intro w start answers relied
  have spec := first w start answers relied
  revert spec
  simp only [handle]
  generalize m w answers = result
  obtain ⟨outcome, w', rest⟩ := result
  cases outcome with
  | ok a => exact id
  | raised e => exact fun mid => second e w' mid.1 rest mid.2
  | died => exact id

variable {condition : Bool}

theorem meets_require {Q : Unit → W → Prop}
    (err : condition = false → ∀ w, P w → R e w)
    (post : condition = true → ∀ w, P w → Q () w) :
    Meets rely I P (Proc.require condition e) Q R := by
  cases condition with
  | true => exact meets_pure (post rfl)
  | false => exact meets_raise (err rfl)

theorem meets_ite {condition : Prop} [Decidable condition] {m n : Proc W C E A}
    (yes : condition → Meets rely I P m Q R) (no : ¬ condition → Meets rely I P n Q R) :
    Meets rely I P (if condition then m else n) Q R := by
  split_ifs with h
  · exact yes h
  · exact no h

theorem meets_when {m : Proc W C E Unit} {Q : Unit → W → Prop}
    (yes : condition = true → Meets rely I P m Q R)
    (no : condition = false → ∀ w, P w → Q () w) : Meets rely I P (Proc.when condition m) Q R := by
  cases condition with
  | true => exact yes rfl
  | false => exact meets_pure (no rfl)

theorem meets_each {f : B → Proc W C E Unit} (body : ∀ b, Meets rely I P (f b) (fun _ => P) R) :
    ∀ bs : List B, Meets rely I P (Proc.each f bs) (fun _ => P) R
  | [] => meets_pure fun _ start => start
  | b :: rest => meets_bind (body b) fun _ => meets_each body rest

/-- A loop whose invariant depends on what is left to do. -/
theorem meets_each_rest {f : B → Proc W C E Unit} {J : List B → W → Prop} :
    ∀ bs : List B, (∀ front b rest, bs = front ++ b :: rest →
        Meets rely I (J (b :: rest)) (f b) (fun _ => J rest) R) →
      Meets rely I (J bs) (Proc.each f bs) (fun _ => J []) R
  | [], _ => meets_pure fun _ start => start
  | b :: rest, body =>
    meets_bind (body [] b rest rfl) fun _ =>
      meets_each_rest rest fun front b' rest' split => body (b :: front) b' rest' (by rw [split]; rfl)

/-- What a triple says of a run, whatever its outcome. -/
theorem Meets.after {J : Outcome E A → W → Prop} (meets : Meets rely I P m Q R)
    {w : W} (start : P w) {answers : List C} (relied : ∀ c ∈ answers, rely c)
    (ok : ∀ a w', Q a w' → J (.ok a) w') (err : ∀ e w', R e w' → J (.raised e) w')
    (died : ∀ w', I w' → J .died w') : J (m w answers).1 (m w answers).2.1 := by
  have spec := meets w start answers relied
  revert spec
  generalize m w answers = result
  obtain ⟨outcome, w', rest⟩ := result
  cases outcome with
  | ok a => exact fun post => ok a w' post.1
  | raised e => exact fun post => err e w' post.1
  | died => exact died w'

/-- What is known beside the world can be assumed. -/
theorem meets_given {known : Prop} (body : known → Meets rely I P m Q R) :
    Meets rely I (fun w => P w ∧ known) m Q R :=
  fun w start => body start.2 w start.1

/-! ### Procedures that only move along a relation -/

/-- At every point the world is related to the one it started from, and only such errors
are raised. -/
def Along (rely : C → Prop) (rel : W → W → Prop) (expected : E → Prop) (m : Proc W C E A) : Prop :=
  ∀ start, Meets rely (rel start) (rel start) m (fun _ => rel start) fun e w => rel start w ∧ expected e

variable {rel : W → W → Prop} {expected : E → Prop}

/-- What the relation keeps is kept. -/
theorem Along.meets (along : Along rely rel expected m) (refl : ∀ w, rel w w)
    (kept : ∀ w w', P w → rel w w' → P w') (weaken : ∀ w, P w → I w) :
    Meets rely I P m (fun _ => P) fun e w => P w ∧ expected e := by
  intro w start answers relied
  have spec := along w w (refl w) answers relied
  revert spec
  generalize m w answers = result
  obtain ⟨outcome, w', rest⟩ := result
  cases outcome with
  | ok a => exact And.imp_left (kept w w' start)
  | raised e => exact And.imp_left (And.imp_left (kept w w' start))
  | died => exact fun moved => weaken w' (kept w w' start moved)

theorem along_bind {m : Proc W C E B} {f : B → Proc W C E A} (first : Along rely rel expected m)
    (second : ∀ b, Along rely rel expected (f b)) : Along rely rel expected (m >>= f) :=
  fun start => meets_bind (first start) fun b => second b start

theorem along_step (trans : ∀ a b c, rel a b → rel b c → rel a c)
    (moves : ∀ c w, rely c → rel w (f c w).2) (errors : ∀ c w e, rely c → (f c w).1 = .error e → expected e) :
    Along rely rel expected (Proc.step f) := by
  refine fun start => meets_step (fun _ moved => moved) fun w c moved relied => ?_
  have next := trans _ _ _ moved (moves c w relied)
  have known := fun e => errors c w e relied
  revert next known
  generalize f c w = result
  obtain ⟨outcome, w'⟩ := result
  cases outcome with
  | ok a => exact fun next _ => next
  | error e => exact fun next known => ⟨next, known e rfl⟩

theorem along_ask (f : W → A) : Along (E := E) rely rel expected (Proc.ask f) :=
  fun _ => meets_ask fun _ start => start

theorem along_require (known : expected e) :
    Along rely rel expected (Proc.require condition e : Proc W C E Unit) :=
  fun _ => meets_require (fun _ _ start => ⟨start, known⟩) fun _ _ start => start

/-- The procedure never changes this view of the world, at any point. -/
def Frame {X : Type} (view : W → X) : Proc W C E A → Prop :=
  Along (fun _ => True) (fun w w' => view w' = view w) fun _ => True

section Frames

variable {X : Type} {view : W → X}

theorem frame_bind {m : Proc W C E B} {f : B → Proc W C E A} (first : Frame view m)
    (second : ∀ b, Frame view (f b)) : Frame view (m >>= f) :=
  along_bind first second

theorem frame_step (same : ∀ c w, view (f c w).2 = view w) :
    Frame view (Proc.step f) :=
  along_step (fun _ _ _ first second => second.trans first) (fun c w _ => same c w) fun _ _ _ _ _ => trivial

theorem frame_ask (f : W → A) : Frame (C := C) (E := E) view (Proc.ask f) := along_ask f

theorem frame_require (condition : Bool) (e : E) :
    Frame (C := C) view (Proc.require condition e : Proc W C E Unit) :=
  along_require trivial

end Frames

/-! ### Runs in which nothing goes wrong -/

/-- With enough answers of this one kind the procedure returns. -/
def Completes (good : C) (m : Proc W C E A) (w : W) (a : A) (w' : W) : Prop :=
  ∃ n, ∀ rest, m w (List.replicate n good ++ rest) = (.ok a, w', rest)

section Completions

variable {good : C} {w w' w'' : W}

theorem completes_pure (a : A) : Completes (E := E) good (pure a) w a w :=
  ⟨0, fun _ => rfl⟩

theorem completes_step (eq : f good w = (.ok a, w')) :
    Completes good (Proc.step f) w a w' :=
  ⟨1, fun rest => by simp only [List.replicate_one, List.singleton_append, step, eq]⟩

theorem completes_bind {m : Proc W C E B} {f : B → Proc W C E A} {b : B}
    (first : Completes good m w b w') (second : Completes good (f b) w' a w'') :
    Completes good (m >>= f) w a w'' := by
  obtain ⟨n, ran⟩ := first
  obtain ⟨k, ran'⟩ := second
  refine ⟨n + k, fun rest => ?_⟩
  simp only [List.replicate_add, List.append_assoc, bind, andThen, ran, ran']

theorem completes_handle {h : E → Proc W C E A}
    (first : Completes good m w a w') : Completes good (m.handle h) w a w' := by
  obtain ⟨n, ran⟩ := first
  exact ⟨n, fun rest => by simp only [handle, ran]⟩

theorem completes_require (holds : condition = true) :
    Completes good (Proc.require condition e) w () w := by
  subst holds
  exact completes_pure ()

theorem completes_when {m : Proc W C E Unit}
    (yes : condition = true → Completes good m w () w') (no : condition = false → w' = w) :
    Completes good (Proc.when condition m) w () w' := by
  cases condition with
  | true => exact yes rfl
  | false => rw [no rfl]; exact completes_pure ()

/-- A loop, along the worlds its rounds lead through. -/
theorem completes_each {f : B → Proc W C E Unit} (next : W → B → W) :
    ∀ (bs : List B) (w : W), (∀ front b rest, bs = front ++ b :: rest →
        Completes good (f b) (front.foldl next w) () (next (front.foldl next w) b)) →
      Completes good (Proc.each f bs) w () (bs.foldl next w)
  | [], _, _ => completes_pure ()
  | b :: bs, w, body =>
    completes_bind (body [] b bs rfl) (completes_each next bs (next w b) fun front b' rest split =>
      body (b :: front) b' rest (by rw [split]; rfl))

/-- A loop whose rounds leave the world as it is. -/
theorem completes_each_still {f : B → Proc W C E Unit} : ∀ {bs : List B},
    (∀ b ∈ bs, Completes good (f b) w () w) → Completes good (Proc.each f bs) w () w
  | [], _ => completes_pure ()
  | b :: _, body => completes_bind (body b List.mem_cons_self)
      (completes_each_still fun b mem => body b (List.mem_cons_of_mem _ mem))

/-- What a triple says of such a run. -/
theorem Completes.meets (ran : Completes good m w a w') (meets : Meets rely I P m Q R)
    (start : P w) (relied : rely good) : Q a w' := by
  obtain ⟨n, eq⟩ := ran
  have spec := meets w start (List.replicate n good ++ []) fun c mem => by
    rw [List.append_nil] at mem
    rw [List.eq_of_mem_replicate mem]
    exact relied
  rw [eq] at spec
  exact spec.1

end Completions

end Triples

end ProgramSplit.Lib
