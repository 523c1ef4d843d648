/-
This file defines the xoshiro256++ generator of pseudo-random words.

The state is four 64-bit words. It is seeded from one word through a linear
congruential generator whose outputs are permuted into 32-bit words; two of them
make one word of the state, the first one low.
-/

namespace Combinational.Random

/-- Rotates a 64-bit word to the left. -/
def rotateLeft (word amount : UInt64) : UInt64 :=
  (word <<< amount) ||| (word >>> (64 - amount))

/-- Rotates a 32-bit word to the right. -/
def rotateRight (word amount : UInt32) : UInt32 :=
  (word >>> amount) ||| (word <<< (32 - amount))

/-! ### Seeding -/

/-- The next state of the congruential generator. -/
def nextSeed (seed : UInt64) : UInt64 :=
  seed * 6364136223846793005 + 11634580027462260723

/-- The 32-bit word that a state of the congruential generator gives. -/
def seedWord (seed : UInt64) : UInt32 :=
  rotateRight (((seed >>> 18) ^^^ seed) >>> 27).toUInt32 (seed >>> 59).toUInt32

/-- The 64-bit word that the next two states give, and the second of them. -/
def seedPair (seed : UInt64) : UInt64 × UInt64 :=
  let low := nextSeed seed
  let high := nextSeed low
  ((seedWord low).toUInt64 ||| ((seedWord high).toUInt64 <<< 32), high)

/-! ### The generator -/

/-- The state of the generator. -/
structure Xoshiro where
  /-- The first word. -/
  s0 : UInt64
  /-- The second word. -/
  s1 : UInt64
  /-- The third word. -/
  s2 : UInt64
  /-- The fourth word. -/
  s3 : UInt64
deriving DecidableEq

namespace Xoshiro

/-- The state made from a seed. -/
def ofSeed (seed : UInt64) : Xoshiro :=
  let (s0, seed) := seedPair seed
  let (s1, seed) := seedPair seed
  let (s2, seed) := seedPair seed
  let (s3, _) := seedPair seed
  { s0, s1, s2, s3 }

/-- The next word, and the state after it. -/
def next (state : Xoshiro) : UInt64 × Xoshiro :=
  let word := rotateLeft (state.s0 + state.s3) 23 + state.s0
  let s2 := state.s2 ^^^ state.s0
  let s3 := state.s3 ^^^ state.s1
  (word, {
    s0 := state.s0 ^^^ s3
    s1 := state.s1 ^^^ s2
    s2 := s2 ^^^ (state.s1 <<< 17)
    s3 := rotateLeft s3 45 })

end Xoshiro

end Combinational.Random
