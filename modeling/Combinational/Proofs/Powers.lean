/-
This file computes large powers, and shows with them which primes divide `2 ^ 256 - 1`.

A power is computed by halving its exponent, with any multiplication of numbers that stand for the
elements of a monoid. Residues stand for themselves: a number is prime if the powers of some root
are one for the first time at the number less one. For this it is enough to look at that exponent
and at its quotients by its prime factors.
-/

import Mathlib.Data.List.Prime
import Mathlib.NumberTheory.LucasPrimality
import Mathlib.Tactic.NormNum.Prime

namespace Combinational

/-! ### Powers by halving -/

/-- The power with an exponent of some binary digits, by a multiplication that may fail. -/
def power (multiply : Nat → Nat → Option Nat) (base : Nat) : (digits exponent : Nat) → Option Nat
  | 0, _ => some 1
  | digits + 1, exponent => do
    let root ← power multiply base digits (exponent / 2)
    let square ← multiply root root
    if exponent % 2 = 1 then multiply square base else some square

/-- If products stand for products, powers stand for powers. -/
theorem represents_power {M : Type} [Monoid M] (Represents : Nat → M → Prop)
    {multiply : Nat → Nat → Option Nat} (one : Represents 1 1)
    (product : ∀ {first second result value otherValue}, Represents first value →
      Represents second otherValue → multiply first second = some result →
      Represents result (value * otherValue))
    {base : Nat} {value : M} (represents : Represents base value) {digits exponent result : Nat}
    (fits : exponent < 2 ^ digits) (powers : power multiply base digits exponent = some result) :
    Represents result (value ^ exponent) := by
  induction digits generalizing exponent result with
  | zero =>
    obtain rfl : exponent = 0 := by omega
    obtain rfl := Option.some.inj powers
    rwa [pow_zero]
  | succ digits inductionHypothesis =>
    obtain ⟨root, roots, further⟩ := Option.bind_eq_some_iff.mp powers
    obtain ⟨square, squares, last⟩ := Option.bind_eq_some_iff.mp further
    rw [Nat.pow_succ] at fits
    have half := inductionHypothesis (by omega) roots
    have whole := product half half squares
    rw [← pow_add, ← Nat.two_mul] at whole
    split at last
    · next odd =>
      have more := product whole represents last
      rwa [← pow_succ, show 2 * (exponent / 2) + 1 = exponent by omega] at more
    · next even =>
      obtain rfl := Option.some.inj last
      rwa [show 2 * (exponent / 2) = exponent by omega] at whole

/-! ### Primality by factors -/

/-- The power modulo a number, with an exponent up to this number. -/
def powerModulo (number root exponent : Nat) : Option Nat :=
  power (fun first second => some (first * second % number)) root (number.log2 + 1) exponent

theorem cast_powerModulo {number root exponent result : Nat} (small : exponent ≤ number)
    (powers : powerModulo number root exponent = some result) :
    (result : ZMod number) = root ^ exponent := by
  refine represents_power (fun residue value => (residue : ZMod number) = value)
    Nat.cast_one ?_ rfl (small.trans_lt Nat.lt_log2_self) powers
  rintro first second result _ _ rfl rfl multiplies
  obtain rfl := Option.some.inj multiplies
  rw [ZMod.natCast_mod, Nat.cast_mul]

/-- The powers of the root are one at the number less one, and not at its quotients by the
factors. -/
def isFirstAt (number root : Nat) (factors : List Nat) : Bool :=
  factors.prod == number - 1 && powerModulo number root (number - 1) == some 1 &&
    factors.all fun factor => (powerModulo number root ((number - 1) / factor)).any fun residue =>
      1 < residue && residue < number

/-- A prime that divides the product of some primes is one of them. -/
theorem mem_of_prime_dvd {primes : List Nat} (prime : ∀ factor ∈ primes, factor.Prime)
    {divisor : Nat} (isPrime : divisor.Prime) (divides : divisor ∣ primes.prod) :
    divisor ∈ primes :=
  mem_list_primes_of_dvd_prod isPrime.prime (fun factor listed => (prime factor listed).prime)
    divides

theorem prime_of_isFirstAt {number : Nat} (root : Nat) (factors : List Nat)
    (prime : ∀ factor ∈ factors, factor.Prime) (first : isFirstAt number root factors = true) :
    number.Prime := by
  simp only [isFirstAt, Bool.and_eq_true, beq_iff_eq, List.all_eq_true, Option.any_eq_true,
    decide_eq_true_eq] at first
  obtain ⟨⟨product, full⟩, parts⟩ := first
  have below (divisor : Nat) : (number - 1) / divisor ≤ number :=
    (Nat.div_le_self _ _).trans (Nat.sub_le _ _)
  refine lucas_primality number (root : ZMod number) ?_ fun factor isPrime divides same => ?_
  · rw [← cast_powerModulo (Nat.sub_le _ _) full, Nat.cast_one]
  · rw [← product] at divides
    obtain ⟨residue, powers, large, small⟩ := parts factor (mem_of_prime_dvd prime isPrime divides)
    rw [← cast_powerModulo (below factor) powers, ← Nat.cast_one,
      ZMod.natCast_eq_natCast_iff', Nat.mod_eq_of_lt small,
      Nat.mod_eq_of_lt (large.trans small)] at same
    exact large.ne' same

/-! ### The factors of the period -/

theorem prime_18533742247 : Nat.Prime 18533742247 :=
  prime_of_isFirstAt 6 [2, 3, 3, 3, 181, 1896229] (by norm_num) (by decide +kernel)

theorem prime_116503103764643 : Nat.Prime 116503103764643 :=
  prime_of_isFirstAt 2 [18533742247, 2, 7, 449]
    (List.forall_mem_cons.mpr ⟨prime_18533742247, by norm_num⟩) (by decide +kernel)

theorem prime_733803839347 : Nat.Prime 733803839347 :=
  prime_of_isFirstAt 2 [2, 3, 2203, 55515497] (by norm_num) (by decide +kernel)

theorem prime_67280421310721 : Nat.Prime 67280421310721 :=
  prime_of_isFirstAt 3 [2, 2, 2, 2, 2, 2, 2, 2, 5, 47, 373, 2998279] (by norm_num)
    (by decide +kernel)

theorem prime_59649589127497217 : Nat.Prime 59649589127497217 :=
  prime_of_isFirstAt 3 [116503103764643, 2, 2, 2, 2, 2, 2, 2, 2, 2]
    (List.forall_mem_cons.mpr ⟨prime_116503103764643, by norm_num⟩) (by decide +kernel)

theorem prime_5704689200685129054721 : Nat.Prime 5704689200685129054721 :=
  prime_of_isFirstAt 21
    [733803839347, 2, 2, 2, 2, 2, 2, 2, 2, 2, 3, 3, 3, 3, 3, 5, 12497]
    (List.forall_mem_cons.mpr ⟨prime_733803839347, by norm_num⟩) (by decide +kernel)

/-- The primes that divide `2 ^ 256 - 1`, each of them once. -/
def periodFactors : List Nat :=
  [3, 5, 17, 257, 641, 65537, 274177, 6700417, 67280421310721, 59649589127497217,
    5704689200685129054721]

theorem prod_periodFactors : periodFactors.prod = 2 ^ 256 - 1 := by
  decide +kernel

theorem prime_of_mem_periodFactors : ∀ factor ∈ periodFactors, factor.Prime := by
  have small : ∀ factor ∈ [3, 5, 17, 257, 641, 65537, 274177, 6700417], factor.Prime := by
    norm_num
  have large : ∀ factor ∈ [67280421310721, 59649589127497217, 5704689200685129054721],
      factor.Prime := by
    simp only [List.forall_mem_cons, prime_67280421310721, prime_59649589127497217,
      prime_5704689200685129054721, true_and]
    exact fun _ none => absurd none List.not_mem_nil
  exact List.forall_mem_append.mpr ⟨small, large⟩

/-- Every prime that divides `2 ^ 256 - 1` is listed. -/
theorem mem_periodFactors {factor : Nat} (prime : factor.Prime) (divides : factor ∣ 2 ^ 256 - 1) :
    factor ∈ periodFactors := by
  rw [← prod_periodFactors] at divides
  exact mem_of_prime_dvd prime_of_mem_periodFactors prime divides

end Combinational
