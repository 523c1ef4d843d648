/-
This file draws uniform numbers below a bound, and uniform bits.

A word of `w` bits is multiplied by the bound, and the high half of the product
is the number drawn. The low half must lie in a zone that holds the same number
of low halves for each number; otherwise another word is drawn. A draw is bounded by
`2 ^ 256` words: the generator has no more states, so it would go on without end.
-/

import Combinational.Pattern
import Combinational.Random.Generator
import Combinational.Random.Xoshiro

namespace Combinational.Random

/-- The number of bits of a word. -/
def WordSize.bits : WordSize → Nat
  | word32 => 32
  | word64 => 64

/-- The number of different words. -/
def WordSize.count : WordSize → Nat
  | word32 => UInt32.size
  | word64 => UInt64.size

namespace Xoshiro

/-- The next word of a size. -/
def nextWord (size : WordSize) (state : Xoshiro) : Nat × Xoshiro :=
  match size with
  | .word32 => ((state.next.1 >>> 32).toNat, state.next.2)
  | .word64 => (state.next.1.toNat, state.next.2)

/-- The last accepted low half: the bound, shifted to the top of a word, less one. -/
def zone (size : WordSize) (bound : Nat) : Nat :=
  bound <<< (size.bits - (bound.log2 + 1)) - 1

/-- Draws up to a number of words until one is accepted. -/
def drawWithin (size : WordSize) (bound : Nat) :
    (draws : Nat) → Xoshiro → Option (Nat × Xoshiro)
  | 0, _ => none
  | draws + 1, state =>
    let (word, after) := state.nextWord size
    if word * bound % size.count ≤ zone size bound then
      some (word * bound / size.count, after)
    else
      drawWithin size bound draws after

/-- A uniform number below a bound. -/
def below : Dice Xoshiro :=
  fun size bound state => drawWithin size bound (Pattern.count 256) state

/-- A uniform bit: the highest one of the next word. -/
def bit (state : Xoshiro) : Bool × Xoshiro :=
  let (word, after) := state.nextWord .word32
  (word.testBit 31, after)

/-- The generator of uniform numbers and bits. -/
def generator : Generator where
  State := Xoshiro
  ofSeed := ofSeed
  below := below
  bit := bit

end Xoshiro

end Combinational.Random
