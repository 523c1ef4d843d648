/-
This file writes numbers as patterns of bits, one bit per pin.

A pattern reads from the first pin to the last. In its big-endian form the first
pin carries the most significant bit, in its little-endian form the least
significant one; the two are reverses of each other.
-/

namespace Combinational.Pattern

/-- The number of patterns of a width: two to the power of the width. -/
def count (width : Nat) : Nat :=
  Nat.pow 2 width

/-- The low bits of a number, the most significant one first. -/
def bigEndian (width number : Nat) : List Bool :=
  (List.range width).map fun position => number.testBit (width - 1 - position)

/-- The low bits of a number, the least significant one first. -/
def littleEndian (width number : Nat) : List Bool :=
  (List.range width).map number.testBit

theorem count_succ (width : Nat) : count (width + 1) = 2 * count width :=
  Nat.mul_comm ..

theorem count_pos (width : Nat) : 0 < count width :=
  Nat.pow_pos (by decide)

@[simp] theorem length_bigEndian (width number : Nat) :
    (bigEndian width number).length = width := by
  simp [bigEndian]

@[simp] theorem length_littleEndian (width number : Nat) :
    (littleEndian width number).length = width := by
  simp [littleEndian]

theorem getElem?_littleEndian {width position : Nat} (number : Nat) (inside : position < width) :
    (littleEndian width number)[position]? = some (number.testBit position) := by
  simp [littleEndian, inside]

theorem getElem?_bigEndian {width position : Nat} (number : Nat) (inside : position < width) :
    (bigEndian width number)[position]? = some (number.testBit (width - 1 - position)) := by
  simp [bigEndian, inside]

/-- The two forms are reverses of each other. -/
theorem reverse_bigEndian (width number : Nat) :
    (bigEndian width number).reverse = littleEndian width number := by
  refine List.ext_getElem (by simp) fun position inside _ => ?_
  have small : position < width := by simpa using inside
  have back : width - 1 - (width - 1 - position) = position := by omega
  simp [bigEndian, littleEndian, back]

end Combinational.Pattern
