/-
# Lib.PublishedCopy — a copy that tells what a process uses

A process reads a source, derives from it what it works by, and then publishes a copy of what it
read.  An observer that finds the copy equal to the source concludes that the process works by the
source.  `Slot` is the state of one such source, `Moves` what may happen to it while the source
stays, and `Honest` the conclusion: it survives every move, and a change of the source keeps it
unless the source returns to a copy that the process has meanwhile left behind.
-/
import Mathlib.Data.Option.Basic

namespace ProgramSplit.Lib

set_option autoImplicit false

universe u v

/-- A source, its published copy, what is derived and in use, and a value read but not yet done
with. -/
structure Slot (A : Type u) (R : Type v) where
  source : Option A
  copy : Option A
  applied : Option R
  held : Option A

namespace Slot

variable {A : Type u} {R : Type v} {f : A → Option R} {x y : Slot A R} {a : A}

/-- Whatever is in use or still to be applied comes from this value. -/
structure Serves (f : A → Option R) (x : Slot A R) (a : A) : Prop where
  applied : ∀ r, x.applied = some r → f a = some r
  held : ∀ b, x.held = some b → b = a

/-- A copy equal to the source tells what is served. -/
def Honest (f : A → Option R) (x : Slot A R) : Prop :=
  ∀ a, x.source = some a → x.copy = some a → x.Serves f a

/-- What a process does to a slot. -/
inductive Moves (f : A → Option R) : Slot A R → Slot A R → Prop
  | stay (x : Slot A R) : Moves f x x
  | read (x : Slot A R) : Moves f x { x with held := x.source }
  | drop (x : Slot A R) : Moves f x { x with held := none }
  | apply (x : Slot A R) {b : A} {r : R} (held : x.held = some b) (derived : f b = some r) :
      Moves f x { x with applied := some r }
  | publish (x : Slot A R) {b : A} (held : x.held = some b)
      (applied : ∀ r, x.applied = some r → f b = some r) : Moves f x { x with copy := some b }
  | vanish (x : Slot A R) : Moves f x { x with applied := none, held := none }

theorem Moves.source (moves : Moves f x y) : y.source = x.source := by
  cases moves <;> rfl

/-- While the source stays, what serves it goes on to serve it. -/
theorem Moves.serves (moves : Moves f x y) (source : x.source = some a) (serves : x.Serves f a) :
    y.Serves f a := by
  cases moves with
  | stay => exact serves
  | read => exact ⟨serves.applied, fun b held => Option.some.inj (held.symm.trans source)⟩
  | drop => exact ⟨serves.applied, nofun⟩
  | @apply b r held derived =>
    refine ⟨fun r' same => ?_, serves.held⟩
    rw [← serves.held b held, derived]
    exact same
  | publish => exact ⟨serves.applied, serves.held⟩
  | vanish => exact ⟨nofun, nofun⟩

theorem Moves.honest (moves : Moves f x y) (honest : Honest f x) : Honest f y := by
  intro a source copy
  have source' : x.source = some a := moves.source ▸ source
  cases moves with
  | @publish b held applied =>
    -- the copy is new, so the old conclusion says nothing about it
    obtain rfl : b = a := Option.some.inj copy
    exact ⟨applied, fun b' held' => Option.some.inj (held'.symm.trans held)⟩
  | stay => exact honest a source copy
  | read => exact (Moves.read x).serves source' (honest a source' copy)
  | drop => exact (Moves.drop x).serves source' (honest a source' copy)
  | apply held derived => exact (Moves.apply x held derived).serves source' (honest a source' copy)
  | vanish => exact (Moves.vanish x).serves source' (honest a source' copy)

end Slot

end ProgramSplit.Lib
