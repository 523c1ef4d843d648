/-
This file multiplies binary polynomials with the product of natural numbers.

A number codes a polynomial with one coefficient in each digit to base 65536. As long as the
coefficients stay below the base, the product of two numbers codes the product of the polynomials.
Odd coefficients are then replaced by one and even ones by zero, which changes no value in a ring
where two is zero. Products are reduced modulo a polynomial that has the value zero there. Nothing
is said of the quotient that is used for this: whatever it is, the remainder has the right value.
-/

import Combinational.Proofs.Powers
import Mathlib.Data.Nat.Bitwise
import Mathlib.Tactic.IntervalCases
import Mathlib.Tactic.Ring

namespace Combinational.CarryLess

/-! ### Coded polynomials -/

/-- A number codes a polynomial with coefficients up to a bound at some places, and this polynomial
has a value at a point. -/
inductive Codes {R : Type} [CommRing R] (point : R) (bound : Nat) :
    (places number : Nat) → (value : R) → Prop
  | zero : Codes point bound 0 0 0
  /-- One more coefficient, below the other ones. -/
  | place {coefficient places number : Nat} {value : R} (small : coefficient ≤ bound)
      (others : Codes point bound places number value) :
    Codes point bound (places + 1) (coefficient + 65536 * number) (coefficient + point * value)

namespace Codes

variable {R : Type} [CommRing R] {point : R} {bound places number : Nat} {value : R}

theorem congr (codes : Codes point bound places number value) {other : Nat} {otherValue : R}
    (number_eq : other = number) (value_eq : otherValue = value) :
    Codes point bound places other otherValue := by
  rwa [number_eq, value_eq]

theorem place_of_eq {coefficient whole : Nat} {total : R} (small : coefficient ≤ bound)
    (others : Codes point bound places number value)
    (number_eq : whole = coefficient + 65536 * number)
    (value_eq : total = coefficient + point * value) :
    Codes point bound (places + 1) whole total :=
  (place small others).congr number_eq value_eq

theorem mono (codes : Codes point bound places number value) {larger : Nat}
    (most : bound ≤ larger) : Codes point larger places number value := by
  induction codes with
  | zero => exact zero
  | place small _ inductionHypothesis => exact place (small.trans most) inductionHypothesis

/-- Zero codes the polynomial without coefficients. -/
theorem nothing (point : R) (bound places : Nat) : Codes point bound places 0 0 := by
  induction places with
  | zero => exact zero
  | succ places inductionHypothesis =>
    exact place_of_eq (Nat.zero_le bound) inductionHypothesis rfl (by simp)

/-- One codes the constant polynomial. -/
theorem one (point : R) (places : Nat) : Codes point 1 (places + 1) 1 1 :=
  place_of_eq (Nat.le_refl 1) (nothing point 1 places) rfl (by simp)

/-- The base codes the polynomial whose value is its point. -/
theorem base (point : R) (places : Nat) : Codes point 1 (places + 2) 65536 point :=
  place_of_eq (Nat.zero_le 1) (one point places) rfl (by simp)

theorem widen (codes : Codes point bound places number value) (more : Nat) :
    Codes point bound (places + more) number value := by
  induction codes with
  | zero => exact nothing point bound (0 + more)
  | place small _ inductionHypothesis =>
    rw [Nat.add_right_comm]
    exact place small inductionHypothesis

/-- A number codes one polynomial only. -/
theorem value_eq {other : R} (codes : Codes point bound places number value)
    (again : Codes point bound places number other) (few : bound < 65536) : value = other := by
  induction codes generalizing other with
  | zero =>
    cases again
    rfl
  | @place coefficient places number value small others inductionHypothesis =>
    generalize same : coefficient + 65536 * number = whole at again
    cases again with
    | @place further _ rest remaining less more =>
      obtain rfl : coefficient = further := by omega
      obtain rfl : number = rest := by omega
      rw [inductionHypothesis more]

theorem add {increment otherNumber : Nat} {otherValue : R}
    (codes : Codes point bound places number value)
    (others : Codes point increment places otherNumber otherValue) :
    Codes point (bound + increment) places (number + otherNumber) (value + otherValue) := by
  induction codes generalizing otherNumber otherValue with
  | zero =>
    cases others
    exact (nothing point (bound + increment) 0).congr rfl (add_zero 0)
  | place small _ inductionHypothesis =>
    cases others with
    | place otherSmall more =>
      exact place_of_eq (Nat.add_le_add small otherSmall) (inductionHypothesis more) (by ring)
        (by push_cast; ring)

/-- The product of two numbers codes the product of their polynomials. -/
theorem mul {otherPlaces otherNumber : Nat} {otherValue : R}
    (codes : Codes point 1 places number value)
    (others : Codes point 1 otherPlaces otherNumber otherValue) :
    Codes point places (places + otherPlaces) (number * otherNumber) (value * otherValue) := by
  induction codes with
  | zero =>
    rw [Nat.zero_mul, zero_mul]
    exact nothing point 0 (0 + otherPlaces)
  | @place coefficient places number value small _ inductionHypothesis =>
    have shifted : Codes point places (places + 1 + otherPlaces) (65536 * (number * otherNumber))
        (point * (value * otherValue)) := by
      rw [Nat.add_right_comm]
      exact place_of_eq (Nat.zero_le places) inductionHypothesis (by ring) (by simp)
    interval_cases coefficient
    · refine (shifted.mono (Nat.le_succ places)).congr (by ring) ?_
      push_cast
      ring
    · have wide := others.widen (places + 1)
      rw [Nat.add_comm otherPlaces] at wide
      refine (shifted.add wide).congr (by ring) ?_
      push_cast
      ring

/-- Above the digits of a number, its polynomial has no coefficients. -/
theorem narrow {more : Nat} (codes : Codes point bound (places + more) number value)
    (few : bound < 65536) (short : number < 2 ^ (16 * places)) :
    Codes point bound places number value := by
  induction places generalizing number value with
  | zero =>
    obtain rfl : number = 0 := by omega
    obtain rfl := codes.value_eq (nothing point bound (0 + more)) few
    exact zero
  | succ places inductionHypothesis =>
    rw [Nat.add_right_comm] at codes
    cases codes with
    | place small others =>
      rw [Nat.mul_add, Nat.pow_add] at short
      exact place small (inductionHypothesis others (by omega))

end Codes

/-! ### Binary coefficients -/

/-- One at each of some places. -/
def ones : (places : Nat) → Nat
  | 0 => 0
  | places + 1 => 1 + 65536 * ones places

/-- The binary digits of a number, one at each of some places. -/
def spaced : (places bits : Nat) → Nat
  | 0, _ => 0
  | places + 1, bits => bits % 2 + 65536 * spaced places (bits / 2)

theorem eq_place {number coefficient others : Nat} (low : number % 2 ^ 16 = coefficient)
    (high : number / 2 ^ 16 = others) : number = coefficient + 65536 * others := by
  omega

theorem land_place {coefficient : Nat} (number mask : Nat) (small : coefficient < 65536) :
    (coefficient + 65536 * number) &&& (1 + 65536 * mask) =
      coefficient % 2 + 65536 * (number &&& mask) := by
  refine eq_place ?_ ?_
  · rw [Nat.and_mod_two_pow, ← Nat.and_one_is_mod]
    congr 1 <;> omega
  · rw [Nat.and_div_two_pow]
    congr 1 <;> omega

theorem xor_place {first second : Nat} (number other : Nat) (firstSmall : first ≤ 1)
    (secondSmall : second ≤ 1) :
    (first + 65536 * number) ^^^ (second + 65536 * other) =
      (first + second) % 2 + 65536 * (number ^^^ other) := by
  refine eq_place ?_ ?_
  · rw [Nat.xor_mod_two_pow, show (first + 65536 * number) % 2 ^ 16 = first by omega,
      show (second + 65536 * other) % 2 ^ 16 = second by omega]
    interval_cases first <;> interval_cases second <;> rfl
  · rw [Nat.xor_div_two_pow]
    congr 1 <;> omega

/-- The polynomial that a number codes if all coefficients are binary. -/
theorem exists_codes_land (R : Type) [CommRing R] (point : R) (places number : Nat) :
    ∃ value, Codes point 1 places (number &&& ones places) value := by
  induction places generalizing number with
  | zero =>
    rw [ones, Nat.and_zero]
    exact ⟨0, .zero⟩
  | succ places inductionHypothesis =>
    obtain ⟨value, codes⟩ := inductionHypothesis (number / 65536)
    have low : number % 65536 % 2 ≤ 1 := by omega
    refine ⟨_, .place_of_eq low codes ?_ rfl⟩
    rw [← land_place _ _ (Nat.mod_lt number (by decide)), Nat.mod_add_div, ones]

/-- The value of a polynomial whose coefficients are the binary digits of a number. -/
def valueOf {R : Type} [Semiring R] (point : R) : (places bits : Nat) → R
  | 0, _ => 0
  | places + 1, bits => (bits % 2 : Nat) + point * valueOf point places (bits / 2)

theorem map_valueOf {Map R S : Type} [Semiring R] [Semiring S] [FunLike Map R S]
    [RingHomClass Map R S] (map : Map) (point : R) (places bits : Nat) :
    map (valueOf point places bits) = valueOf (map point) places bits := by
  induction places generalizing bits with
  | zero => exact map_zero map
  | succ places inductionHypothesis =>
    rw [valueOf, map_add, map_natCast, map_mul, inductionHypothesis, valueOf]

section Binary

variable {R : Type} [CommRing R] {point : R} {bound places number : Nat} {value : R}

theorem codes_spaced (point : R) (places bits : Nat) :
    Codes point 1 places (spaced places bits) (valueOf point places bits) := by
  induction places generalizing bits with
  | zero => exact .zero
  | succ places inductionHypothesis =>
    exact .place (by omega) (inductionHypothesis (bits / 2))

variable (two : (2 : R) = 0)

include two

theorem cast_mod_two (coefficient : Nat) : ((coefficient % 2 : Nat) : R) = coefficient := by
  have split := congrArg (Nat.cast (R := R)) (Nat.mod_add_div coefficient 2)
  rwa [Nat.cast_add, Nat.cast_mul, Nat.cast_ofNat, two, zero_mul, add_zero] at split

/-- Where two is zero, only the parity of the coefficients matters. -/
theorem Codes.land (codes : Codes point bound places number value) (few : bound < 65536) :
    Codes point 1 places (number &&& ones places) value := by
  induction codes with
  | zero => exact .zero
  | @place coefficient _ _ _ small _ inductionHypothesis =>
    have parity : coefficient % 2 ≤ 1 := by omega
    refine .place_of_eq parity inductionHypothesis (land_place _ _ (by omega)) ?_
    rw [cast_mod_two two]

theorem Codes.xor {otherNumber : Nat} {otherValue : R}
    (codes : Codes point 1 places number value)
    (others : Codes point 1 places otherNumber otherValue) :
    Codes point 1 places (number ^^^ otherNumber) (value + otherValue) := by
  induction codes generalizing otherNumber otherValue with
  | zero =>
    cases others
    exact Codes.zero.congr rfl (add_zero 0)
  | @place coefficient _ _ _ small _ inductionHypothesis =>
    cases others with
    | @place otherCoefficient _ _ _ otherSmall more =>
      have parity : (coefficient + otherCoefficient) % 2 ≤ 1 := by omega
      refine .place_of_eq parity (inductionHypothesis more) (xor_place _ _ small otherSmall) ?_
      rw [cast_mod_two two, Nat.cast_add, mul_add, add_add_add_comm]

end Binary

/-! ### Products modulo a polynomial -/

/-- A polynomial to reduce by. -/
structure Modulus where
  /-- The degree of the polynomial. -/
  degree : Nat
  /-- The number that codes the polynomial. -/
  number : Nat
  /-- The number that estimates the quotient of a product. -/
  reciprocal : Nat

namespace Modulus

variable (modulus : Modulus)

/-- An estimate of the quotient of a product by the polynomial. -/
def quotient (product : Nat) : Nat :=
  ((product >>> (16 * modulus.degree)) * modulus.reciprocal) >>> (16 * modulus.degree)

/-- The product of two coded polynomials, reduced by an estimated quotient. There is none if the
remainder is too long. -/
def multiply (first second : Nat) : Option Nat :=
  let product := first * second &&& ones (modulus.degree + modulus.degree)
  let multiple := (modulus.quotient product &&& ones modulus.degree) * modulus.number &&&
    ones (modulus.degree + (modulus.degree + 1))
  let remainder := product ^^^ multiple
  if remainder >>> (16 * modulus.degree) = 0 then some remainder else none

section Values

variable {modulus} {R : Type} [CommRing R] {point : R} (two : (2 : R) = 0)
  (vanishes : Codes point 1 (modulus.degree + 1) modulus.number 0)
  (few : modulus.degree < 65536)

include two vanishes few

theorem codes_multiply {first second result : Nat} {value otherValue : R}
    (codes : Codes point 1 modulus.degree first value)
    (others : Codes point 1 modulus.degree second otherValue)
    (multiplies : modulus.multiply first second = some result) :
    Codes point 1 modulus.degree result (value * otherValue) := by
  unfold multiply at multiplies
  simp only at multiplies
  split at multiplies
  · next short =>
    obtain rfl := Option.some.inj multiplies
    have product := (codes.mul others).land two few
    obtain ⟨factor, quotient⟩ := exists_codes_land R point modulus.degree
      (modulus.quotient (first * second &&& ones (modulus.degree + modulus.degree)))
    have multiple := (quotient.mul vanishes).land two few
    rw [mul_zero] at multiple
    -- Adding the multiple changes the coefficients, but not the value.
    have remainder := (product.widen 1).xor two multiple
    rw [add_zero, Nat.add_assoc] at remainder
    refine remainder.narrow (by decide) ?_
    rwa [Nat.shiftRight_eq_div_pow, Nat.div_eq_zero_iff_lt (Nat.two_pow_pos _)] at short
  · cases multiplies

/-- The powers of a coded polynomial. -/
theorem codes_power {base digits exponent result : Nat} {value : R}
    (codes : Codes point 1 modulus.degree base value) (positive : 0 < modulus.degree)
    (fits : exponent < 2 ^ digits)
    (powers : power modulus.multiply base digits exponent = some result) :
    Codes point 1 modulus.degree result (value ^ exponent) := by
  refine represents_power (Codes point 1 modulus.degree) ?_
    (fun first second multiplies => codes_multiply two vanishes few first second multiplies)
    codes fits powers
  obtain ⟨places, degree⟩ := Nat.exists_eq_add_one.mpr positive
  rw [degree]
  exact .one point places

end Values

end Modulus

end Combinational.CarryLess
