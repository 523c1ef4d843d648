/-
This file describes generators of random numbers and bits.

A generator is seeded with a word, and then determines all the numbers that are
drawn from it.
-/

namespace Combinational.Random

/-- The sizes of the words that a draw may use. -/
inductive WordSize
  /-- Words of 32 bits. -/
  | word32
  /-- Words of 64 bits. -/
  | word64
deriving DecidableEq

/-- A way to draw numbers below a bound, from words of a size. A draw may fail to end. -/
abbrev Dice (State : Type) := WordSize → (bound : Nat) → StateT State Option Nat

/-- A generator that is seeded with a word. -/
structure Generator where
  /-- The states of the generator. -/
  State : Type
  /-- The state that a seed determines. -/
  ofSeed : (seed : UInt64) → State
  /-- Draws a number below a bound. -/
  below : Dice State
  /-- Draws a bit. -/
  bit : State → Bool × State

namespace Generator

/-- Some bits from a state on, the first drawn first. -/
def bits (generator : Generator) (state : generator.State) : (count : Nat) → List Bool
  | 0 => []
  | count + 1 =>
    let (first, after) := generator.bit state
    first :: generator.bits after count

theorem length_bits (generator : Generator) (state : generator.State) (count : Nat) :
    (generator.bits state count).length = count := by
  induction count generalizing state with
  | zero => rfl
  | succ count inductionHypothesis => simp [bits, inductionHypothesis]

end Generator

end Combinational.Random
