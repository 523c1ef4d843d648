/-
This file reads patterns of bits as numbers.

A pattern denotes the number of which it is the big-endian form, and that number lies below the
count of the patterns of its width. Reversing the pattern of a number gives the pattern of another
one, whose big-endian form is the little-endian form of the first.
-/

import Combinational.Pattern
import Mathlib.Data.List.Basic
import Mathlib.Data.List.Induction

namespace Combinational.Pattern

/-- The number that a pattern denotes, its first bit being the most significant one. -/
def number (values : List Bool) : Nat :=
  values.foldl (fun number value => 2 * number + value.toNat) 0

/-- The number with the bits of another one in reverse order. -/
def reversed (width mask : Nat) : Nat :=
  number (bigEndian width mask).reverse

theorem number_concat (values : List Bool) (last : Bool) :
    number (values ++ [last]) = 2 * number values + last.toNat :=
  List.foldl_concat ..

theorem bigEndian_succ (width number : Nat) :
    bigEndian (width + 1) number = bigEndian width (number / 2) ++ [number.testBit 0] := by
  have last : width + 1 - 1 - width = 0 := by omega
  rw [bigEndian, List.range_succ, List.map_append, List.map_singleton, last]
  congr 1
  refine List.map_congr_left fun position member => ?_
  have inside := List.mem_range.mp member
  have above : width + 1 - 1 - position = width - 1 - position + 1 := by omega
  rw [Nat.testBit_div_two, above]

theorem number_lt (values : List Bool) : number values < count values.length := by
  induction values using List.reverseRecOn with
  | nil => exact count_pos 0
  | append_singleton values last inductionHypothesis =>
    rw [number_concat, List.length_append, List.length_singleton, count_succ]
    have bit := Bool.toNat_lt last
    omega

/-- A pattern is the one of the number that it denotes. -/
theorem bigEndian_number (values : List Bool) :
    bigEndian values.length (number values) = values := by
  induction values using List.reverseRecOn with
  | nil => rfl
  | append_singleton values last inductionHypothesis =>
    have bit := Bool.toNat_lt last
    have half : (2 * number values + last.toNat) / 2 = number values := by omega
    have lowest : (2 * number values + last.toNat).testBit 0 = last := by
      cases last <;> simp [Nat.testBit_zero]
    rw [List.length_append, List.length_singleton, bigEndian_succ, number_concat, half,
      inductionHypothesis, lowest]

/-- Below the count of its patterns, a number is denoted by its pattern. -/
theorem number_bigEndian {width mask : Nat} (below : mask < count width) :
    number (bigEndian width mask) = mask := by
  induction width generalizing mask with
  | zero => exact (Nat.lt_one_iff.mp below).symm
  | succ width inductionHypothesis =>
    rw [count_succ] at below
    have half : mask / 2 < count width := by omega
    have lowest : (mask.testBit 0).toNat = mask % 2 := by
      rcases Nat.mod_two_eq_zero_or_one mask with even | odd <;> simp [Nat.testBit_zero, *]
    rw [bigEndian_succ, number_concat, inductionHypothesis half, lowest]
    exact Nat.div_add_mod mask 2

/-- Numbers below the count of the patterns have different patterns. -/
theorem bigEndian_inj {width first second : Nat} (firstBelow : first < count width)
    (secondBelow : second < count width) :
    bigEndian width first = bigEndian width second ↔ first = second := by
  refine ⟨fun same => ?_, fun same => by rw [same]⟩
  rw [← number_bigEndian firstBelow, same, number_bigEndian secondBelow]

theorem bigEndian_reversed (width mask : Nat) :
    bigEndian width (reversed width mask) = littleEndian width mask := by
  have whole := bigEndian_number (bigEndian width mask).reverse
  rw [List.length_reverse, length_bigEndian] at whole
  rw [reversed, whole, reverse_bigEndian]

theorem reversed_lt (width mask : Nat) : reversed width mask < count width := by
  have bounded := number_lt (bigEndian width mask).reverse
  rwa [List.length_reverse, length_bigEndian] at bounded

theorem littleEndian_reversed (width mask : Nat) :
    littleEndian width (reversed width mask) = bigEndian width mask := by
  rw [← reverse_bigEndian, bigEndian_reversed, ← reverse_bigEndian, List.reverse_reverse]

/-- Reversing the bits twice gives the number back. -/
theorem reversed_reversed {width mask : Nat} (below : mask < count width) :
    reversed width (reversed width mask) = mask := by
  rw [reversed, reverse_bigEndian, littleEndian_reversed, number_bigEndian below]

/-- All the bits of the largest number are ones. -/
theorem bigEndian_last (width : Nat) :
    bigEndian width (count width - 1) = List.replicate width true := by
  induction width with
  | zero => rfl
  | succ width inductionHypothesis =>
    have positive := count_pos width
    have half : (2 * count width - 1) / 2 = count width - 1 := by omega
    have lowest : (2 * count width - 1).testBit 0 = true := by
      rw [Nat.testBit_zero, decide_eq_true_eq]
      omega
    rw [bigEndian_succ, count_succ, half, lowest, inductionHypothesis, List.replicate_succ']

end Combinational.Pattern
