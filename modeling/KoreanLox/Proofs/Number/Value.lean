import KoreanLox.Number.Parts
import Mathlib.Algebra.Order.Field.Power
import Mathlib.Algebra.Order.Ring.Rat
import Mathlib.Tactic.Linarith
import Mathlib.Tactic.Positivity

/-!
# The value of a number

A finite number is an exact multiple of a power of two, and so a rational number. Whether a number
is a natural one is decided on its bits, but it means what it says: the number equals the natural
number, both zeros equal zero, and what is not finite equals none
(`Number.natural?_eq_some_iff`).
-/

namespace KoreanLox

namespace Number

/-- The natural number that a number equals, if there is one; both zeros equal zero. -/
def Parts.natural? : Parts → Option Nat
  | .finite negative mantissa exponent =>
    if mantissa = 0 then some 0
    else if negative || !isWhole mantissa exponent then none
    else some (wholePart mantissa exponent)
  | _ => none

/-- The natural number that a number equals, if there is one. -/
def natural? (x : Float) : Option Nat :=
  (parts x).natural?

/-- The value of a number taken apart, if it is finite. -/
def Parts.value? : Parts → Option ℚ
  | .finite negative mantissa exponent =>
    some ((if negative then -1 else 1) * (mantissa * (2 : ℚ) ^ exponent))
  | _ => none

/-- The value of a number, if it is finite. -/
def value? (x : Float) : Option ℚ := (parts x).value?

/-- A power of two with a natural exponent is a natural number. -/
theorem two_zpow_of_nonneg {exponent : Int} (whole : 0 ≤ exponent) :
    (2 : ℚ) ^ exponent = (2 ^ exponent.toNat : Nat) := by
  have same : ((exponent.toNat : Nat) : Int) = exponent := Int.toNat_of_nonneg whole
  conv_lhs => rw [← same]
  rw [zpow_natCast]
  push_cast
  rfl

/-- A power of two with a negative exponent is a fraction. -/
theorem two_zpow_of_neg {exponent : Int} (below : exponent < 0) :
    (2 : ℚ) ^ exponent = ((2 ^ (-exponent).toNat : Nat) : ℚ)⁻¹ := by
  have inverse : (2 : ℚ) ^ exponent = ((2 : ℚ) ^ (-exponent))⁻¹ := by rw [zpow_neg, inv_inv]
  rw [inverse, two_zpow_of_nonneg (by omega)]

/-- A multiple of a power of two is a natural number exactly if it has no fraction, and then it is
its whole part. -/
theorem mul_two_zpow_eq_natCast_iff (mantissa : Nat) (exponent : Int) (n : Nat) :
    (mantissa : ℚ) * 2 ^ exponent = n ↔
      isWhole mantissa exponent = true ∧ wholePart mantissa exponent = n := by
  unfold isWhole wholePart
  by_cases whole : 0 ≤ exponent
  · rw [two_zpow_of_nonneg whole, if_pos whole]
    simp only [whole, decide_true, Bool.true_or, true_and]
    rw [← Nat.cast_mul, Nat.cast_inj]
    rfl
  · have below : exponent < 0 := by omega
    have positive : 0 < 2 ^ (-exponent).toNat := Nat.two_pow_pos _
    rw [two_zpow_of_neg below, if_neg whole]
    simp only [whole, decide_false, Bool.false_or, beq_iff_eq]
    rw [mul_inv_eq_iff_eq_mul₀ (by positivity), ← Nat.cast_mul, Nat.cast_inj]
    show mantissa = n * 2 ^ (-exponent).toNat ↔
      mantissa % 2 ^ (-exponent).toNat = 0 ∧ mantissa / 2 ^ (-exponent).toNat = n
    constructor
    · rintro rfl
      exact ⟨Nat.mul_mod_left _ _, Nat.mul_div_cancel _ positive⟩
    · rintro ⟨divides, rfl⟩
      exact (Nat.div_mul_cancel (Nat.dvd_of_mod_eq_zero divides)).symm

/-- The natural number of a number taken apart is the one that equals its value. -/
theorem Parts.natural?_eq_some_iff (parts : Parts) (n : Nat) :
    parts.natural? = some n ↔ parts.value? = some (n : ℚ) := by
  cases parts with
  | undefined => simp [natural?, value?]
  | infinite negative => simp [natural?, value?]
  | finite negative mantissa exponent =>
    rw [natural?, value?, Option.some.injEq]
    by_cases zero : mantissa = 0
    · rw [if_pos zero, zero]
      simp [eq_comm]
    · rw [if_neg zero]
      have positive : (0 : ℚ) < mantissa * 2 ^ exponent := by
        have mantissa_pos : (0 : ℚ) < mantissa := by
          exact_mod_cast Nat.pos_of_ne_zero zero
        positivity
      cases negative with
      | true =>
        have below : -((mantissa : ℚ) * 2 ^ exponent) < n := by
          have small : (0 : ℚ) ≤ n := Nat.cast_nonneg n
          linarith
        simp [below.ne]
      | false =>
        have same := mul_two_zpow_eq_natCast_iff mantissa exponent n
        cases whole : isWhole mantissa exponent <;> simp_all

/-- A number stands for a natural number exactly if it equals it. -/
theorem natural?_eq_some_iff (x : Float) (n : Nat) :
    natural? x = some n ↔ value? x = some (n : ℚ) :=
  (parts x).natural?_eq_some_iff n

/-- Negative zero stands for zero, and a fraction, an infinity and an undefined number for none. -/
example : natural? (-0.0) = some 0 ∧ natural? 0.5 = none ∧ natural? (1.0 / 0.0) = none ∧
    natural? (0.0 / 0.0) = none := by decide +kernel

end Number

end KoreanLox
