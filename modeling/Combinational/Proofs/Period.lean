/-
This file shows that the random number generator goes through all states but zero.

Its step is linear for the exclusive or of states, so polynomials act on the states, with a step for
the variable. A polynomial of degree 256 takes a certain state to zero. Modulo the polynomials that
do so, the variable has the order `2 ^ 256 - 1`: its power with this exponent is one, and those with
the quotients of this exponent by its prime factors are not. The generator comes back to that state
after `2 ^ 256 - 1` steps and not before, so it has gone through all the states that are not zero.
-/

import Combinational.Proofs.CarryLess
import Combinational.Random.Xoshiro
import Mathlib.Algebra.Polynomial.AlgebraMap
import Mathlib.Dynamics.PeriodicPts.Lemmas
import Mathlib.GroupTheory.OrderOfElement
import Mathlib.RingTheory.Ideal.Quotient.Basic

namespace Combinational.Random.Xoshiro

open CarryLess Polynomial

/-! ### The group of states -/

instance : Zero Xoshiro where
  zero := { s0 := 0, s1 := 0, s2 := 0, s3 := 0 }

/-- The sum of states is their exclusive or. -/
instance : Add Xoshiro where
  add first second := {
    s0 := first.s0 ^^^ second.s0
    s1 := first.s1 ^^^ second.s1
    s2 := first.s2 ^^^ second.s2
    s3 := first.s3 ^^^ second.s3 }

instance : Neg Xoshiro where
  neg state := state

theorem add_eq (first second : Xoshiro) : first + second =
    { s0 := first.s0 ^^^ second.s0, s1 := first.s1 ^^^ second.s1,
      s2 := first.s2 ^^^ second.s2, s3 := first.s3 ^^^ second.s3 } := rfl

theorem zero_eq : (0 : Xoshiro) = { s0 := 0, s1 := 0, s2 := 0, s3 := 0 } := rfl

theorem add_self (state : Xoshiro) : state + state = 0 := by
  simp only [add_eq, zero_eq, UInt64.xor_self]

instance : AddCommGroup Xoshiro where
  add_assoc _ _ _ := by simp only [add_eq, UInt64.xor_assoc]
  zero_add _ := by simp only [add_eq, zero_eq, UInt64.zero_xor]
  add_zero _ := by simp only [add_eq, zero_eq, UInt64.xor_zero]
  neg_add_cancel := add_self
  add_comm _ _ := by simp only [add_eq, UInt64.xor_comm]
  nsmul := nsmulRec
  zsmul := zsmulRec

/-! ### Linear steps -/

/-- The state after one step. -/
def advance (state : Xoshiro) : Xoshiro :=
  state.next.2

theorem rotateLeft_xor (first second : UInt64) :
    rotateLeft (first ^^^ second) 45 = rotateLeft first 45 ^^^ rotateLeft second 45 := by
  apply UInt64.toBitVec_inj.mp
  ext index inside
  by_cases low : index < 45
  · simp [rotateLeft, low]
  · simp [rotateLeft, low, BitVec.getLsbD_of_ge, show 64 ≤ 19 + index by omega]

theorem xor_exchange (first second third fourth : UInt64) :
    (first ^^^ second) ^^^ (third ^^^ fourth) = (first ^^^ third) ^^^ (second ^^^ fourth) := by
  ac_rfl

theorem advance_eq (state : Xoshiro) : state.advance =
    { s0 := state.s0 ^^^ (state.s3 ^^^ state.s1), s1 := state.s1 ^^^ (state.s2 ^^^ state.s0),
      s2 := (state.s2 ^^^ state.s0) ^^^ state.s1 <<< 17,
      s3 := rotateLeft (state.s3 ^^^ state.s1) 45 } := rfl

theorem advance_add (first second : Xoshiro) :
    (first + second).advance = first.advance + second.advance := by
  simp only [advance_eq, add_eq, mk.injEq]
  refine ⟨?_, ?_, ?_, ?_⟩
  · rw [xor_exchange first.s3, xor_exchange first.s0]
  · rw [xor_exchange first.s2, xor_exchange first.s1]
  · rw [xor_exchange first.s2, UInt64.shiftLeft_xor, xor_exchange (first.s2 ^^^ first.s0)]
  · rw [xor_exchange first.s3, rotateLeft_xor]

theorem advance_zero : (0 : Xoshiro).advance = 0 := by
  decide

/-- The step as a linear map. -/
def step : Module.End ℤ Xoshiro :=
  AddMonoidHom.toIntLinearMap {
    toFun := advance
    map_zero' := advance_zero
    map_add' := advance_add }

theorem step_apply (state : Xoshiro) : step state = state.advance := rfl

theorem step_pow_apply (steps : Nat) (state : Xoshiro) :
    (step ^ steps) state = advance^[steps] state := by
  rw [Module.End.pow_apply]
  rfl

/-! ### Polynomials that take a state to zero -/

/-- The polynomials that take a state to zero, with a step for the variable. -/
def annihilator (state : Xoshiro) : Ideal ℤ[X] where
  carrier := {polynomial | aeval step polynomial state = 0}
  add_mem' {first second} firstZero secondZero := by
    show aeval step (first + second) state = 0
    rw [map_add, LinearMap.add_apply, firstZero, secondZero, add_zero]
  zero_mem' := by
    show aeval step 0 state = 0
    rw [map_zero, LinearMap.zero_apply]
  smul_mem' factor polynomial isZero := by
    show aeval step (factor * polynomial) state = 0
    rw [map_mul, Module.End.mul_apply, isZero, map_zero]

theorem mem_annihilator {state : Xoshiro} {polynomial : ℤ[X]} :
    polynomial ∈ annihilator state ↔ aeval step polynomial state = 0 := Iff.rfl

/-- The state whose only bit is the lowest one of the second word. -/
def first : Xoshiro where
  s0 := 0
  s1 := 1
  s2 := 0
  s3 := 0

/-- The polynomials modulo those that take the first state to zero. -/
abbrev Residue : Type :=
  ℤ[X] ⧸ annihilator first

/-- The residue of a polynomial. -/
noncomputable def residue : ℤ[X] →+* Residue :=
  Ideal.Quotient.mk (annihilator first)

theorem residue_eq_zero_iff {polynomial : ℤ[X]} :
    residue polynomial = 0 ↔ aeval step polynomial first = 0 := by
  rw [residue, Ideal.Quotient.eq_zero_iff_mem, mem_annihilator]

theorem two_eq_zero : (2 : Residue) = 0 := by
  have twice : residue 2 = 0 := by
    rw [residue_eq_zero_iff, map_ofNat, ← one_add_one_eq_two, LinearMap.add_apply,
      Module.End.one_apply, add_self]
  rwa [map_ofNat] at twice

instance : Nontrivial Residue := by
  refine ⟨1, 0, fun same => ?_⟩
  rw [← map_one residue, residue_eq_zero_iff, map_one, Module.End.one_apply] at same
  revert same
  decide

/-- Powers of the variable count steps. -/
theorem residue_X_pow_eq_one_iff (steps : Nat) :
    residue X ^ steps = 1 ↔ advance^[steps] first = first := by
  rw [← sub_eq_zero, ← map_pow, ← map_one residue, ← map_sub, residue_eq_zero_iff, map_sub, map_pow,
    aeval_X, map_one, LinearMap.sub_apply, step_pow_apply, Module.End.one_apply, sub_eq_zero]

/-! ### The modulus -/

/-- The binary coefficients of a polynomial of degree 256 that takes the first state to zero. -/
def coefficients : Nat :=
  0x10003c03c3f3ecb1904b4edcf26259f850280002bcefd1a5e9d116f2bb0f0f001

/-- This polynomial, and the quotient of the power of the variable with exponent 512 by it. -/
def modulus : Modulus where
  degree := 256
  number := spaced 257 coefficients
  reciprocal := spaced 257 0x10003c0396f32c298132b61f2778b69e1aa1297eadd5e76b793a906d956fbc489

/-- The state that a polynomial with binary coefficients makes of a state. -/
def combination (state : Xoshiro) : (places bits : Nat) → Xoshiro
  | 0, _ => 0
  | places + 1, bits =>
    (if bits % 2 = 1 then state else 0) + (combination state places (bits / 2)).advance

theorem valueOf_step_apply (places bits : Nat) (state : Xoshiro) :
    valueOf step places bits state = combination state places bits := by
  induction places generalizing bits with
  | zero => rfl
  | succ places inductionHypothesis =>
    rw [valueOf, LinearMap.add_apply, Module.End.mul_apply, inductionHypothesis, step_apply,
      combination]
    congr 1
    obtain even | odd := Nat.mod_two_eq_zero_or_one bits
    · rw [even, if_neg (by decide), Nat.cast_zero, LinearMap.zero_apply]
    · rw [odd, if_pos rfl, Nat.cast_one, Module.End.one_apply]

theorem combination_first : combination first 257 coefficients = 0 := by
  decide +kernel

theorem valueOf_residue_X : valueOf (residue X) 257 coefficients = 0 := by
  rw [← map_valueOf, residue_eq_zero_iff, map_valueOf, aeval_X, valueOf_step_apply,
    combination_first]

theorem codes_modulus : Codes (residue X) 1 (modulus.degree + 1) modulus.number 0 := by
  have codes := codes_spaced (residue X) 257 coefficients
  rwa [valueOf_residue_X] at codes

/-! ### The order of the variable -/

/-- The number of states that are not zero. -/
def period : Nat :=
  2 ^ 256 - 1

theorem power_period : power modulus.multiply 65536 256 period = some 1 := by
  decide +kernel

/-- The power with the period divided by a factor differs from one by a unit, whose power with the
period is one. -/
def differsAt (factor : Nat) : Bool :=
  (power modulus.multiply 65536 256 (period / factor)).any fun result =>
    power modulus.multiply (result ^^^ 1) 256 period == some 1

theorem differsAt_periodFactors : ∀ factor ∈ periodFactors, differsAt factor = true := by
  decide +kernel

theorem codes_power_X {exponent result : Nat} (fits : exponent < 2 ^ 256)
    (powers : power modulus.multiply 65536 256 exponent = some result) :
    Codes (residue X) 1 256 result (residue X ^ exponent) :=
  Modulus.codes_power two_eq_zero codes_modulus (by decide) (.base (residue X) 254) (by decide) fits
    powers

theorem residue_X_pow_period : residue X ^ period = 1 :=
  (codes_power_X (by decide) power_period).value_eq (.one (residue X) 255) (by decide)

theorem residue_X_pow_ne_one {factor : Nat} (differs : differsAt factor = true) :
    residue X ^ (period / factor) ≠ 1 := by
  intro same
  obtain ⟨result, powers, isUnit⟩ := Option.any_eq_true _ _ |>.mp differs
  have fits : period / factor < 2 ^ 256 := (Nat.div_le_self _ _).trans_lt (by decide)
  have difference := (codes_power_X fits powers).xor two_eq_zero (.one (residue X) 255)
  have isOne := Modulus.codes_power two_eq_zero codes_modulus (by decide) difference (by decide)
    (show period < 2 ^ 256 by decide) (beq_iff_eq.mp isUnit)
  have value := isOne.value_eq (.one (residue X) 255) (by decide)
  rw [same, one_add_one_eq_two, two_eq_zero, zero_pow (by decide)] at value
  exact zero_ne_one value

theorem orderOf_residue_X : orderOf (residue X) = period :=
  orderOf_eq_of_pow_and_pow_div_prime (by decide) residue_X_pow_period
    fun _ prime divides => residue_X_pow_ne_one
      (differsAt_periodFactors _ (mem_periodFactors prime divides))

/-! ### All states -/

theorem iterate_period_first : advance^[period] first = first :=
  (residue_X_pow_eq_one_iff period).mp residue_X_pow_period

theorem minimalPeriod_advance : Function.minimalPeriod advance first = period := by
  refine Nat.dvd_antisymm ?_ ?_
  · exact Function.IsPeriodicPt.minimalPeriod_dvd iterate_period_first
  · rw [← orderOf_residue_X]
    refine orderOf_dvd_of_pow_eq_one ((residue_X_pow_eq_one_iff _).mpr ?_)
    exact Function.iterate_minimalPeriod

theorem iterate_advance_zero (steps : Nat) : advance^[steps] 0 = 0 :=
  Function.iterate_fixed advance_zero steps

/-- The number whose binary digits are the bits of a state. -/
def toNat (state : Xoshiro) : Nat :=
  state.s0.toNat + 2 ^ 64 * (state.s1.toNat + 2 ^ 64 * (state.s2.toNat + 2 ^ 64 * state.s3.toNat))

theorem toNat_injective : Function.Injective toNat := by
  rintro ⟨s0, s1, s2, s3⟩ ⟨t0, t1, t2, t3⟩ same
  simp only [toNat] at same
  have small0 := s0.toNat_lt
  have small1 := s1.toNat_lt
  have small2 := s2.toNat_lt
  have otherSmall0 := t0.toNat_lt
  have otherSmall1 := t1.toNat_lt
  have otherSmall2 := t2.toNat_lt
  rw [mk.injEq, ← UInt64.toNat_inj, ← UInt64.toNat_inj, ← UInt64.toNat_inj, ← UInt64.toNat_inj]
  omega

theorem toNat_lt (state : Xoshiro) : state.toNat < 2 ^ 256 := by
  have small0 := state.s0.toNat_lt
  have small1 := state.s1.toNat_lt
  have small2 := state.s2.toNat_lt
  have small3 := state.s3.toNat_lt
  unfold toNat
  omega

theorem toNat_pos {state : Xoshiro} (nonzero : state ≠ 0) : 0 < state.toNat :=
  Nat.pos_of_ne_zero fun isZero => nonzero (toNat_injective isZero)

theorem iterate_first_ne_zero {steps : Nat} (early : steps < period) :
    advance^[steps] first ≠ 0 := by
  intro isZero
  have comesBack := iterate_period_first
  rw [← Nat.sub_add_cancel early.le, Function.iterate_add_apply, isZero,
    iterate_advance_zero] at comesBack
  revert comesBack
  decide

/-- Every state but zero is reached from the first one within a period. -/
theorem exists_iterate_first {state : Xoshiro} (nonzero : state ≠ 0) :
    ∃ steps < period, advance^[steps] first = state := by
  have distinct : Set.InjOn (fun steps => (advance^[steps] first).toNat) (Finset.range period) := by
    rw [Finset.coe_range, ← minimalPeriod_advance]
    exact fun _ early _ otherEarly same =>
      Function.iterate_injOn_Iio_minimalPeriod early otherEarly (toNat_injective same)
  have nonzeros : (Finset.range period).image (fun steps => (advance^[steps] first).toNat) ⊆
      Finset.Ico 1 (2 ^ 256) := by
    intro number member
    obtain ⟨steps, early, rfl⟩ := Finset.mem_image.mp member
    exact Finset.mem_Ico.mpr
      ⟨toNat_pos (iterate_first_ne_zero (Finset.mem_range.mp early)), toNat_lt _⟩
  have all := Finset.eq_of_subset_of_card_le nonzeros (by
    rw [Finset.card_image_of_injOn distinct, Finset.card_range, Nat.card_Ico, period])
  have listed : state.toNat ∈ Finset.Ico 1 (2 ^ 256) :=
    Finset.mem_Ico.mpr ⟨toNat_pos nonzero, toNat_lt state⟩
  rw [← all] at listed
  obtain ⟨steps, early, same⟩ := Finset.mem_image.mp listed
  exact ⟨steps, Finset.mem_range.mp early, toNat_injective same⟩

/-- From every state but zero, the first one is reached within a period. -/
theorem exists_iterate_eq_first {state : Xoshiro} (nonzero : state ≠ 0) :
    ∃ steps ≤ period, advance^[steps] state = first := by
  obtain ⟨before, early, rfl⟩ := exists_iterate_first nonzero
  refine ⟨period - before, Nat.sub_le _ _, ?_⟩
  rw [← Function.iterate_add_apply, Nat.sub_add_cancel early.le]
  exact iterate_period_first

end Combinational.Random.Xoshiro
