import KoreanLox.Number.Shortest
import KoreanLox.Proofs.Number.Value
import Mathlib.Tactic.Ring

/-!
# The reals that round to a number

The intervals of two numbers never overlap: that of the smaller one ends where that of the greater
one begins, at a midpoint that belongs to at most one of them (`Number.admitted_lt_of_precedes`).
The shortest decimal of a number lies in its interval (`Number.shortest_admitted`), so numbers
with equal shortest decimals are equal.
-/

namespace KoreanLox.Number

/-! ## Fractions and decimals as rational numbers -/

/-- The value of a decimal. -/
def Decimal.value (decimal : Decimal) : ℚ := decimal.digits * (10 : ℚ) ^ decimal.exponent

namespace Fraction

/-- The value of a fraction. -/
def value (fraction : Fraction) : ℚ := fraction.numerator / fraction.denominator

/-- A scaled factor has the value that its name says. -/
theorem value_scaled (factor base : Nat) (exponent : Int) :
    (scaled factor base exponent).value = factor * (base : ℚ) ^ exponent := by
  unfold scaled value
  by_cases whole : 0 ≤ exponent
  · rw [if_pos whole]
    have same : ((exponent.toNat : Nat) : Int) = exponent := Int.toNat_of_nonneg whole
    conv_rhs => rw [← same]
    rw [zpow_natCast]
    show ((factor * base ^ exponent.toNat : Nat) : ℚ) / ((1 : Nat) : ℚ) = _
    push_cast
    ring
  · rw [if_neg whole]
    have same : (((-exponent).toNat : Nat) : Int) = -exponent := Int.toNat_of_nonneg (by omega)
    have inverse : (base : ℚ) ^ exponent = ((base : ℚ) ^ (-exponent).toNat)⁻¹ := by
      rw [← zpow_natCast, same, zpow_neg, inv_inv]
    rw [inverse]
    show (factor : ℚ) / ((base ^ (-exponent).toNat : Nat) : ℚ) = _
    push_cast
    ring

/-- A scaled factor has a denominator. -/
theorem denominator_scaled_pos (factor : Nat) {base : Nat} (positive : 0 < base) (exponent : Int) :
    0 < (scaled factor base exponent).denominator := by
  unfold scaled
  split
  · exact Nat.one_pos
  · exact Nat.pow_pos positive

variable {first second : Fraction}

/-- Fractions are compared as their values are. -/
theorem le_iff (one : 0 < first.denominator) (other : 0 < second.denominator) :
    first.le second = true ↔ first.value ≤ second.value := by
  have one : (0 : ℚ) < first.denominator := by exact_mod_cast one
  have other : (0 : ℚ) < second.denominator := by exact_mod_cast other
  rw [le, value, value, div_le_div_iff₀ one other, decide_eq_true_eq]
  exact_mod_cast Iff.rfl

/-- Fractions are compared strictly as their values are. -/
theorem lt_iff (one : 0 < first.denominator) (other : 0 < second.denominator) :
    first.lt second = true ↔ first.value < second.value := by
  have one : (0 : ℚ) < first.denominator := by exact_mod_cast one
  have other : (0 : ℚ) < second.denominator := by exact_mod_cast other
  rw [lt, value, value, div_lt_div_iff₀ one other, decide_eq_true_eq]
  exact_mod_cast Iff.rfl

end Fraction

/-! ## The interval of a number -/

namespace Interval

/-- The rational numbers of an interval: its ends belong to it if it is closed. -/
structure Admits (interval : Interval) (value : ℚ) : Prop where
  /-- The value is not below the lower end. -/
  above : interval.lower.value ≤ value
  /-- The value is not above the upper end. -/
  below : value ≤ interval.upper.value
  /-- Only a closed interval has its ends. -/
  ends : interval.closed = false →
    interval.lower.value ≠ value ∧ value ≠ interval.upper.value

/-- A fraction is found in an interval exactly if its value is. -/
theorem contains_iff {interval : Interval} {fraction : Fraction}
    (lower : 0 < interval.lower.denominator) (upper : 0 < interval.upper.denominator)
    (inner : 0 < fraction.denominator) :
    interval.contains fraction = true ↔ interval.Admits fraction.value := by
  unfold contains
  cases closed : interval.closed with
  | true =>
    rw [if_pos rfl, Bool.and_eq_true, Fraction.le_iff lower inner, Fraction.le_iff inner upper]
    constructor
    · rintro ⟨above, below⟩
      exact ⟨above, below, by simp [closed]⟩
    · exact fun admits => ⟨admits.above, admits.below⟩
  | false =>
    rw [if_neg Bool.false_ne_true, Bool.and_eq_true, Fraction.lt_iff lower inner,
      Fraction.lt_iff inner upper]
    constructor
    · rintro ⟨above, below⟩
      exact ⟨above.le, below.le, fun _ => ⟨above.ne, below.ne⟩⟩
    · intro admits
      obtain ⟨apart, apart'⟩ := admits.ends closed
      exact ⟨lt_of_le_of_ne admits.above apart, lt_of_le_of_ne admits.below apart'⟩

section

variable (mantissa : Nat) (exponent : Int)

/-- The ends of the interval of a number have denominators. -/
theorem around_denominators : 0 < (around mantissa exponent).lower.denominator ∧
    0 < (around mantissa exponent).upper.denominator := by
  refine ⟨?_, Fraction.denominator_scaled_pos _ Nat.two_pos _⟩
  unfold around
  dsimp only
  split
  · exact Fraction.denominator_scaled_pos _ Nat.two_pos _
  · exact Fraction.denominator_scaled_pos _ Nat.two_pos _

/-- The upper end is half a unit above the number. -/
theorem upper_around :
    (around mantissa exponent).upper.value = (2 * mantissa + 1) * 2 ^ (exponent - 1) := by
  unfold around
  rw [Fraction.value_scaled]
  push_cast
  rfl

variable {mantissa exponent}

/-- The lower end is half a unit below the number, if the next smaller number is as far away. -/
theorem lower_around (positive : 0 < mantissa)
    (usual : ¬(mantissa = leadingOne ∧ leastExponent < exponent)) :
    (around mantissa exponent).lower.value = (2 * mantissa - 1) * 2 ^ (exponent - 1) := by
  unfold around
  rw [if_neg usual, Fraction.value_scaled, Nat.cast_sub (by omega)]
  push_cast
  rfl

/-- The lower end is a quarter of a unit below the least number of an exponent. -/
theorem lower_around_leadingOne (least : leastExponent < exponent) :
    (around leadingOne exponent).lower.value = (4 * leadingOne - 1) * 2 ^ (exponent - 2) := by
  unfold around
  rw [if_pos ⟨rfl, least⟩, Fraction.value_scaled, Nat.cast_sub (by decide)]
  push_cast
  rfl

/-- What lies in the interval of a positive number is positive. -/
theorem Admits.pos {value : ℚ} (positive : 0 < mantissa)
    (admits : (around mantissa exponent).Admits value) : 0 < value := by
  have lower : 0 < (around mantissa exponent).lower.value := by
    have atLeast : (1 : ℚ) ≤ mantissa := by exact_mod_cast positive
    by_cases usual : mantissa = leadingOne ∧ leastExponent < exponent
    · obtain ⟨rfl, least⟩ := usual
      rw [lower_around_leadingOne least]
      exact mul_pos (by linarith) (by positivity)
    · rw [lower_around positive usual]
      exact mul_pos (by linarith) (by positivity)
  exact lower.trans_le admits.above

end

end Interval

/-! ## Intervals do not overlap -/

/-- The numbers taken apart that bits give: the mantissa has at most fifty-three bits, and exactly
so many unless the exponent is the least one. -/
structure Normal (mantissa : Nat) (exponent : Int) : Prop where
  /-- The mantissa has at most fifty-three bits. -/
  short : mantissa < 2 * leadingOne
  /-- No exponent is less than the least one. -/
  least : leastExponent ≤ exponent
  /-- Every greater exponent has a leading one. -/
  led : leastExponent < exponent → leadingOne ≤ mantissa

/-- The order of positive numbers by their parts. -/
def Precedes (mantissa : Nat) (exponent : Int) (mantissa' : Nat) (exponent' : Int) : Prop :=
  exponent < exponent' ∨ exponent = exponent' ∧ mantissa < mantissa'

section

variable {mantissa mantissa' : Nat} {exponent exponent' : Int}

/-- The midpoint between two numbers of one exponent belongs to at most one of them. -/
theorem upper_le_lower_of_lt (first : Normal mantissa exponent)
    (less : mantissa < mantissa') :
    (Interval.around mantissa exponent).upper.value ≤
        (Interval.around mantissa' exponent).lower.value ∧
      ((Interval.around mantissa exponent).upper.value =
          (Interval.around mantissa' exponent).lower.value → mantissa' = mantissa + 1) := by
  have usual : ¬(mantissa' = leadingOne ∧ leastExponent < exponent) := by
    rintro ⟨rfl, least⟩
    exact absurd (first.led least) (by omega)
  have unit : (0 : ℚ) < 2 ^ (exponent - 1) := by positivity
  have next : (mantissa : ℚ) + 1 ≤ mantissa' := by exact_mod_cast less
  rw [Interval.upper_around, Interval.lower_around (by omega) usual]
  constructor
  · exact mul_le_mul_of_nonneg_right (by linarith) unit.le
  · intro same
    have ends := mul_right_cancel₀ unit.ne' same
    have : (mantissa' : ℚ) = (mantissa + 1 : Nat) := by
      push_cast
      linarith
    exact_mod_cast this

/-- The midpoint between two numbers of different exponents belongs to at most one of them. -/
theorem upper_le_lower_of_exponent_lt (first : Normal mantissa exponent)
    (second : Normal mantissa' exponent') (less : exponent < exponent') :
    (Interval.around mantissa exponent).upper.value ≤
        (Interval.around mantissa' exponent').lower.value ∧
      ((Interval.around mantissa exponent).upper.value =
          (Interval.around mantissa' exponent').lower.value →
        mantissa + 1 = 2 * leadingOne) := by
  have least : leastExponent < exponent' := by
    have := first.least
    omega
  -- The unit of the smaller number, and half the unit of the greater one.
  have scale : (2 : ℚ) ^ (exponent - 1) ≤ 2 ^ (exponent' - 2) :=
    zpow_le_zpow_right₀ one_le_two (by omega)
  have unit : (0 : ℚ) < 2 ^ (exponent - 1) := by positivity
  have short : (mantissa : ℚ) + 1 ≤ 2 * leadingOne := by exact_mod_cast first.short
  rw [Interval.upper_around]
  by_cases edge : mantissa' = leadingOne
  · subst edge
    rw [Interval.lower_around_leadingOne least]
    have lead : (0 : ℚ) ≤ 4 * leadingOne - 1 := by norm_num [leadingOne]
    have upper : (2 * (mantissa : ℚ) + 1) * 2 ^ (exponent - 1) ≤
        (4 * leadingOne - 1) * 2 ^ (exponent - 1) :=
      mul_le_mul_of_nonneg_right (by linarith) unit.le
    have lower := mul_le_mul_of_nonneg_left scale lead
    refine ⟨upper.trans lower, fun same => ?_⟩
    have ends := mul_right_cancel₀ unit.ne' (le_antisymm upper (lower.trans same.ge))
    have : ((mantissa + 1 : Nat) : ℚ) = (2 * leadingOne : Nat) := by
      push_cast
      linarith
    exact_mod_cast this
  · have more : (leadingOne : ℚ) + 1 ≤ mantissa' := by
      have := second.led least
      exact_mod_cast (by omega : leadingOne + 1 ≤ mantissa')
    have double : (2 : ℚ) ^ (exponent' - 1) = 2 * 2 ^ (exponent' - 2) := by
      rw [show exponent' - 1 = exponent' - 2 + 1 by ring, zpow_add₀ two_ne_zero, zpow_one]
      ring
    have strict : (2 * (mantissa : ℚ) + 1) * 2 ^ (exponent - 1) <
        (2 * mantissa' - 1) * 2 ^ (exponent' - 1) := by
      calc (2 * (mantissa : ℚ) + 1) * 2 ^ (exponent - 1)
          < (2 * (2 * mantissa' - 1)) * 2 ^ (exponent - 1) :=
            mul_lt_mul_of_pos_right (by linarith) unit
        _ ≤ (2 * (2 * mantissa' - 1)) * 2 ^ (exponent' - 2) :=
            mul_le_mul_of_nonneg_left scale (by
              have : (0 : ℚ) ≤ leadingOne := Nat.cast_nonneg _
              linarith)
        _ = (2 * mantissa' - 1) * 2 ^ (exponent' - 1) := by rw [double]; ring
    rw [Interval.lower_around (by have := second.led least; unfold leadingOne at this; omega)
      fun usual => edge usual.1]
    exact ⟨strict.le, fun same => absurd same strict.ne⟩

/-- What rounds to one number is less than what rounds to a greater one. -/
theorem admitted_lt_of_precedes (first : Normal mantissa exponent)
    (second : Normal mantissa' exponent')
    (before : Precedes mantissa exponent mantissa' exponent') {value value' : ℚ}
    (one : (Interval.around mantissa exponent).Admits value)
    (other : (Interval.around mantissa' exponent').Admits value') : value < value' := by
  have ordered : (Interval.around mantissa exponent).upper.value ≤
        (Interval.around mantissa' exponent').lower.value ∧
      ((Interval.around mantissa exponent).upper.value =
          (Interval.around mantissa' exponent').lower.value →
        mantissa % 2 = 1 ∨ mantissa' % 2 = 1) := by
    rcases before with less | ⟨rfl, less⟩
    · obtain ⟨below, touch⟩ := upper_le_lower_of_exponent_lt first second less
      refine ⟨below, fun same => .inl ?_⟩
      have := touch same
      omega
    · obtain ⟨below, touch⟩ := upper_le_lower_of_lt first less
      refine ⟨below, fun same => ?_⟩
      have := touch same
      omega
  obtain ⟨below, touch⟩ := ordered
  have order : value ≤ value' := one.below.trans (below.trans other.above)
  refine lt_of_le_of_ne order fun same => ?_
  -- Equal values are both the common end, which an odd mantissa does not have.
  have upper : value = (Interval.around mantissa exponent).upper.value :=
    le_antisymm one.below (by rw [same]; exact below.trans other.above)
  have lower : (Interval.around mantissa' exponent').lower.value = value' :=
    le_antisymm other.above (by rw [← same]; exact one.below.trans below)
  rcases touch (by rw [← upper, lower, same]) with odd | odd
  · exact (one.ends (by simp [Interval.around, odd])).2 upper
  · exact (other.ends (by simp [Interval.around, odd])).1 lower

/-- A value rounds to at most one positive number. -/
theorem eq_of_admitted (first : Normal mantissa exponent) (second : Normal mantissa' exponent')
    {value : ℚ} (one : (Interval.around mantissa exponent).Admits value)
    (other : (Interval.around mantissa' exponent').Admits value) :
    mantissa = mantissa' ∧ exponent = exponent' := by
  have apart : ¬Precedes mantissa exponent mantissa' exponent' :=
    fun before => lt_irrefl _ (admitted_lt_of_precedes first second before one other)
  have apart' : ¬Precedes mantissa' exponent' mantissa exponent :=
    fun before => lt_irrefl _ (admitted_lt_of_precedes second first before other one)
  unfold Precedes at apart apart'
  omega

end

/-! ## The shortest decimal lies in the interval -/

namespace Interval

variable {interval : Interval}

/-- What is tried with some number of digits is taken only if the interval contains it. -/
theorem contains_of_withDigits? {size : Int} {count : Nat} {decimal : Decimal}
    (found : interval.withDigits? size count = some decimal) :
    interval.contains (.scaled decimal.digits 10 decimal.exponent) = true := by
  unfold withDigits? at found
  dsimp only at found
  split at found
  next below above =>
    split at found
    · obtain rfl := Option.some.inj found
      exact below
    · obtain rfl := Option.some.inj found
      exact above
  next below above =>
    obtain rfl := Option.some.inj found
    exact below
  next below above =>
    obtain rfl := Option.some.inj found
    exact above
  next => simp at found

/-- What the search finds is contained in the interval. -/
theorem contains_of_search {size : Int} {bound count : Nat} {decimal : Decimal}
    (found : interval.search size bound count = some decimal) :
    interval.contains (.scaled decimal.digits 10 decimal.exponent) = true := by
  induction bound generalizing count with
  | zero => simp [search] at found
  | succ bound ih =>
    rw [search] at found
    split at found
    next decimal' tried =>
      obtain rfl := Option.some.inj found
      exact contains_of_withDigits? tried
    next => exact ih found

end Interval

/-- The exact decimal of a number has its value. -/
theorem value_exactDecimal (mantissa : Nat) (exponent : Int) :
    (exactDecimal mantissa exponent).value = mantissa * 2 ^ exponent := by
  unfold exactDecimal Decimal.value
  by_cases whole : 0 ≤ exponent
  · rw [if_pos whole, two_zpow_of_nonneg whole]
    show ((mantissa * 2 ^ exponent.toNat : Nat) : ℚ) * 10 ^ (0 : Int) = _
    rw [zpow_zero, mul_one]
    push_cast
    rfl
  · rw [if_neg whole]
    have same : (((-exponent).toNat : Nat) : Int) = -exponent := Int.toNat_of_nonneg (by omega)
    show ((mantissa * 5 ^ (-exponent).toNat : Nat) : ℚ) * 10 ^ exponent = _
    have fives : ((5 : ℚ) ^ (-exponent).toNat) = (5 ^ exponent)⁻¹ := by
      rw [← zpow_natCast, same, zpow_neg]
    rw [Nat.cast_mul, Nat.cast_pow, show ((5 : Nat) : ℚ) = 5 by norm_num, fives,
      show (10 : ℚ) = 5 * 2 by norm_num, mul_zpow, mul_assoc, ← mul_assoc ((5 ^ exponent)⁻¹),
      inv_mul_cancel₀ (by positivity), one_mul]

/-- Dropping final zeros keeps the value. -/
theorem Decimal.value_trim (bound : Nat) (decimal : Decimal) :
    (decimal.trim bound).value = decimal.value := by
  induction bound generalizing decimal with
  | zero => rfl
  | succ bound ih =>
    rw [trim]
    split
    next final =>
      rw [ih]
      have digits : decimal.digits = decimal.digits / 10 * 10 := by omega
      show ((decimal.digits / 10 : Nat) : ℚ) * 10 ^ (decimal.exponent + 1) = _
      conv_rhs => rw [Decimal.value, digits]
      rw [zpow_add₀ (by norm_num), zpow_one]
      push_cast
      ring
    next => rfl

/-- A positive number lies in its own interval. -/
theorem admits_self {mantissa : Nat} {exponent : Int} (positive : 0 < mantissa) :
    (Interval.around mantissa exponent).Admits (mantissa * 2 ^ exponent) := by
  have half : (2 : ℚ) ^ exponent = 2 * 2 ^ (exponent - 1) := by
    rw [show exponent = exponent - 1 + 1 by ring, zpow_add₀ two_ne_zero, zpow_one]
    ring_nf
  have quarter : (2 : ℚ) ^ (exponent - 1) = 2 * 2 ^ (exponent - 2) := by
    rw [show exponent - 1 = exponent - 2 + 1 by ring, zpow_add₀ two_ne_zero, zpow_one]
    ring
  have unit : (0 : ℚ) < 2 ^ (exponent - 2) := by positivity
  have upper : (mantissa : ℚ) * 2 ^ exponent < (Interval.around mantissa exponent).upper.value := by
    rw [Interval.upper_around, half, quarter]
    linarith
  have lower : (Interval.around mantissa exponent).lower.value < (mantissa : ℚ) * 2 ^ exponent := by
    by_cases usual : mantissa = leadingOne ∧ leastExponent < exponent
    · obtain ⟨rfl, least⟩ := usual
      rw [Interval.lower_around_leadingOne least, half, quarter]
      linarith
    · rw [Interval.lower_around positive usual, half, quarter]
      linarith
  exact ⟨lower.le, upper.le, fun _ => ⟨lower.ne, upper.ne⟩⟩

/-- The shortest decimal of a positive number rounds to it. -/
theorem shortest_admitted {mantissa : Nat} (exponent : Int) (positive : 0 < mantissa) :
    (Interval.around mantissa exponent).Admits (shortest mantissa exponent).value := by
  unfold shortest
  rw [Decimal.value_trim]
  cases found : (Interval.around mantissa exponent).search
      (Interval.size (Interval.around mantissa exponent).value) 17 1 with
  | none =>
    rw [Option.getD_none, value_exactDecimal]
    exact admits_self positive
  | some decimal =>
    rw [Option.getD_some]
    obtain ⟨lower, upper⟩ := Interval.around_denominators mantissa exponent
    have inside := (Interval.contains_iff lower upper
      (Fraction.denominator_scaled_pos _ (by decide) _)).mp (Interval.contains_of_search found)
    rw [Fraction.value_scaled] at inside
    exact inside

end KoreanLox.Number
