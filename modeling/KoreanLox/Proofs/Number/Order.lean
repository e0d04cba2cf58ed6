import KoreanLox.Proofs.Number.Text
import KoreanLox.Proofs.Number.Whole
import KoreanLox.Store.Array

/-!
# The order of numbers

Numbers are compared by their signs, exponents and mantissas, and that is the order of their values
(`Number.compare_eq`). So what the checks of an index let through are the natural numbers below the
length of the array, and each of them stands for the position that it equals
(`Store.position?_eq_natural?`).
-/

namespace KoreanLox

namespace Number

open Float.Model (UnpackedFloat)
open Float.Model.UnpackedFloat

/-- Positive numbers are ordered by their exponents first and then by their mantissas. -/
theorem value_lt_of_precedes {mantissa mantissa' : Nat} {exponent exponent' : Int}
    (first : Normal mantissa exponent) (second : Normal mantissa' exponent')
    (positive : 0 < mantissa) (positive' : 0 < mantissa')
    (before : Precedes mantissa exponent mantissa' exponent') :
    (mantissa : ℚ) * 2 ^ exponent < mantissa' * 2 ^ exponent' :=
  admitted_lt_of_precedes first second before (admits_self positive) (admits_self positive')

/-- Comparing exponents first and then mantissas compares positive numbers. -/
theorem compare_magnitudes {mantissa mantissa' : Nat} {exponent exponent' : Int}
    (first : Normal mantissa exponent) (second : Normal mantissa' exponent')
    (positive : 0 < mantissa) (positive' : 0 < mantissa') :
    (compare exponent exponent').then (compare mantissa mantissa') =
      compare ((mantissa : ℚ) * 2 ^ exponent) (mantissa' * 2 ^ exponent') := by
  have less := value_lt_of_precedes first second positive positive'
  have greater := value_lt_of_precedes second first positive' positive
  rcases lt_trichotomy exponent exponent' with below | rfl | above
  · rw [compare_lt_iff_lt.mpr below, compare_lt_iff_lt.mpr (less (.inl below))]
    rfl
  · rw [compare_eq_iff_eq.mpr rfl]
    show compare mantissa mantissa' = _
    rcases lt_trichotomy mantissa mantissa' with below | rfl | above
    · rw [compare_lt_iff_lt.mpr below, compare_lt_iff_lt.mpr (less (.inr ⟨rfl, below⟩))]
    · rw [compare_eq_iff_eq.mpr rfl, compare_eq_iff_eq.mpr rfl]
    · rw [compare_gt_iff_gt.mpr above, compare_gt_iff_gt.mpr (greater (.inr ⟨rfl, above⟩))]
  · rw [compare_gt_iff_gt.mpr above, compare_gt_iff_gt.mpr (greater (.inl above))]
    rfl

/-- Comparing opposites swaps the result. -/
theorem compare_neg_neg (p q : ℚ) : compare (-p) (-q) = (compare p q).swap := by
  rcases lt_trichotomy p q with below | rfl | above
  · rw [compare_lt_iff_lt.mpr below, compare_gt_iff_gt.mpr (neg_lt_neg below)]
    rfl
  · rw [compare_eq_iff_eq.mpr rfl, compare_eq_iff_eq.mpr rfl]
    rfl
  · rw [compare_gt_iff_gt.mpr above, compare_lt_iff_lt.mpr (neg_lt_neg above)]
    rfl

/-- The value of an unpacked number, if it is finite. -/
def unpackedValue? : UnpackedFloat → Option ℚ
  | .zero _ => some 0
  | .finite .positive mantissa exponent _ => some (mantissa * 2 ^ exponent)
  | .finite .negative mantissa exponent _ => some (-(mantissa * 2 ^ exponent))
  | .infinity _ | .notANumber => none

/-- The value of a number is that of the unpacked number. -/
theorem value?_eq_unpackedValue? (x : Float) : value? x = unpackedValue? x.toModel.unpack := by
  rw [value?, parts_eq_ofUnpacked]
  cases x.toModel.unpack with
  | notANumber | infinity => rfl
  | zero sign => simp [Parts.ofUnpacked, Parts.value?, unpackedValue?]
  | finite sign => cases sign <;> simp [Parts.ofUnpacked, Parts.value?, unpackedValue?]

/-- A number that is neither zero nor without a value is unpacked to a normal one. -/
theorem normal_of_unpack {x : Float} {sign : Sign} {mantissa : Nat} {exponent : Int}
    {positive : 0 < mantissa}
    (unpacked : x.toModel.unpack = .finite sign mantissa exponent positive) :
    Normal mantissa exponent := by
  have told := parts_eq_ofUnpacked x
  rw [unpacked] at told
  obtain ⟨negative, m, e, same, normal⟩ := exists_finite (x := x) (by rw [value?, told]; rfl)
  rw [told] at same
  cases same
  exact normal

/-- Finite numbers are compared as their values are. -/
theorem compare_eq {x y : Float} {p q : ℚ} (first : value? x = some p)
    (second : value? y = some q) :
    x.toModel.unpack.compare y.toModel.unpack = some (compare p q) := by
  rw [value?_eq_unpackedValue?] at first second
  have normal := @normal_of_unpack x
  have normal' := @normal_of_unpack y
  have size {mantissa : Nat} (exponent : Int) (positive : 0 < mantissa) :
      (0 : ℚ) < mantissa * 2 ^ exponent := by positivity
  generalize x.toModel.unpack = unpacked at first normal ⊢
  generalize y.toModel.unpack = unpacked' at second normal' ⊢
  -- The signs decide unless they are the same, and then the magnitudes do.
  match unpacked, unpacked', first, second with
  | .zero _, .zero _, rfl, rfl => rfl
  | .zero _, .finite .positive _ exponent positive, rfl, rfl =>
    rw [compare_lt_iff_lt.mpr (size exponent positive)]
    rfl
  | .zero _, .finite .negative _ exponent positive, rfl, rfl =>
    rw [compare_gt_iff_gt.mpr (neg_lt_zero.mpr (size exponent positive))]
    rfl
  | .finite .positive _ exponent positive, .zero _, rfl, rfl =>
    rw [compare_gt_iff_gt.mpr (size exponent positive)]
    rfl
  | .finite .negative _ exponent positive, .zero _, rfl, rfl =>
    rw [compare_lt_iff_lt.mpr (neg_lt_zero.mpr (size exponent positive))]
    rfl
  | .finite .positive _ exponent positive, .finite .negative _ exponent' positive', rfl, rfl =>
    rw [compare_gt_iff_gt.mpr
      ((neg_lt_zero.mpr (size exponent' positive')).trans (size exponent positive))]
    rfl
  | .finite .negative _ exponent positive, .finite .positive _ exponent' positive', rfl, rfl =>
    rw [compare_lt_iff_lt.mpr
      ((neg_lt_zero.mpr (size exponent positive)).trans (size exponent' positive'))]
    rfl
  | .finite .positive _ _ positive, .finite .positive _ _ positive', rfl, rfl =>
    rw [← compare_magnitudes (normal rfl) (normal' rfl) positive positive']
    rfl
  | .finite .negative _ _ positive, .finite .negative _ _ positive', rfl, rfl =>
    rw [compare_neg_neg, ← compare_magnitudes (normal rfl) (normal' rfl) positive positive']
    rfl

variable {x y : Float} {p q : ℚ}

/-- A finite number is less than another exactly if its value is. -/
theorem lt_iff_of_value? (first : value? x = some p) (second : value? y = some q) :
    x < y ↔ p < q := by
  have compared : x < y ↔ (x.toModel.unpack.compare y.toModel.unpack == some .lt) = true :=
    decide_eq_true_iff
  rw [compared, compare_eq first second, ← compare_lt_iff_lt]
  simp

/-- A finite number is at most another exactly if its value is. -/
theorem le_iff_of_value? (first : value? x = some p) (second : value? y = some q) :
    x ≤ y ↔ p ≤ q := by
  have compared : x ≤ y ↔ (x.toModel.unpack.compare y.toModel.unpack).any (·.isLE) = true :=
    decide_eq_true_iff
  rw [compared, compare_eq first second, ← compare_le_iff_le]
  cases compare p q <;> simp

/-- A number without a fraction equals an integer. -/
theorem value?_of_isWhole {negative : Bool} {mantissa : Nat} {exponent : Int}
    (same : parts x = .finite negative mantissa exponent)
    (whole : isWhole mantissa exponent = true) :
    value? x = some (if negative then -wholePart mantissa exponent else wholePart mantissa exponent
      : ℚ) := by
  rw [value?, same, Parts.value?,
    (mul_two_zpow_eq_natCast_iff mantissa exponent _).mpr ⟨whole, rfl⟩]
  cases negative <;> simp

/-- The value of zero. -/
theorem value?_zero : value? 0 = some (0 : ℚ) := by
  simpa using (natural?_eq_some_iff 0 0).mp (by decide +kernel)

/-- Zero has no fraction. -/
theorem isWhole_zero (exponent : Int) : isWhole 0 exponent = true := by simp [isWhole]

/-- Nothing is left of zero. -/
theorem wholePart_zero (exponent : Int) : wholePart 0 exponent = 0 := by simp [wholePart]

/-- The whole part of what has no fraction is positive. -/
theorem wholePart_pos {mantissa : Nat} {exponent : Int} (positive : mantissa ≠ 0)
    (whole : isWhole mantissa exponent = true) : 0 < wholePart mantissa exponent := by
  have value := (mul_two_zpow_eq_natCast_iff mantissa exponent _).mpr ⟨whole, rfl⟩
  have size : (0 : ℚ) < mantissa := by exact_mod_cast Nat.pos_of_ne_zero positive
  have : (0 : ℚ) < wholePart mantissa exponent := by
    rw [← value]
    positivity
  exact_mod_cast this

end Number

namespace Store

variable {length : Nat} {index : Float}

/-- An index that equals a natural number stands for it if it is below the length. -/
theorem position?_of_natural {n : Nat} (short : length < 2 ^ 53)
    (equals : Number.value? index = some (n : ℚ)) (whole : Number.hasFraction index = false)
    (left : Number.truncated index = .integer n) :
    position? length index = if n < length then some n else none := by
  have below : ¬ index < 0 := by
    rw [Number.lt_iff_of_value? equals Number.value?_zero]
    exact not_lt.mpr (Nat.cast_nonneg n)
  have beyond : Float.ofNat length ≤ index ↔ length ≤ n := by
    rw [Number.le_iff_of_value? (Number.value?_ofNat short) equals, Nat.cast_le]
  unfold position?
  rw [whole, left]
  by_cases inside : n < length
  · have position : min n (Number.positions - 1) = n := by
      unfold Number.positions
      omega
    simp [below, beyond, inside, Number.Truncated.position, position]
  · simp [below, beyond, inside]

/-- An index is let through exactly if it equals a natural number below the length, and stands for
that number. -/
theorem position?_eq_natural? (short : length < 2 ^ 53) (index : Float) :
    position? length index = (Number.natural? index).filter (· < length) := by
  have natural {n : Nat} (found : Number.natural? index = some n)
      (whole : Number.hasFraction index = false) (left : Number.truncated index = .integer n) :
      position? length index = (Number.natural? index).filter (· < length) := by
    have equals := (Number.natural?_eq_some_iff index n).mp found
    rw [position?_of_natural short equals whole left, found, Option.filter_some]
    simp
  cases parts : Number.parts index with
  | undefined | infinite =>
    simp [position?, Number.hasFraction, Number.natural?, parts, Number.Parts.hasFraction,
      Number.Parts.natural?]
  | finite negative mantissa exponent =>
    have fraction : Number.hasFraction index = !Number.isWhole mantissa exponent := by
      rw [Number.hasFraction, parts, Number.Parts.hasFraction]
    have found : Number.natural? index =
        (Number.Parts.finite negative mantissa exponent).natural? := by
      rw [Number.natural?, parts]
    have left : Number.truncated index =
        (Number.Parts.finite negative mantissa exponent).truncated := by
      rw [Number.truncated, parts]
    by_cases none : mantissa = 0
    · subst none
      refine natural (n := 0) (by simpa [Number.Parts.natural?] using found)
        (by rw [fraction, Number.isWhole_zero]; rfl) ?_
      rw [left, Number.Parts.truncated, Number.wholePart_zero]
      simp
    · cases whole : Number.isWhole mantissa exponent with
      | false =>
        rw [found, position?, fraction, whole]
        simp [Number.Parts.natural?, whole, none]
      | true =>
        cases negative with
        | false =>
          refine natural (n := Number.wholePart mantissa exponent)
            (by simpa [Number.Parts.natural?, whole, none] using found)
            (by rw [fraction, whole]; rfl) ?_
          rw [left, Number.Parts.truncated]
          simp
        | true =>
          have below : index < 0 := by
            have value := Number.value?_of_isWhole parts whole
            rw [if_pos rfl] at value
            rw [Number.lt_iff_of_value? value Number.value?_zero]
            have positive := Number.wholePart_pos none whole
            simpa using positive
          rw [found, position?]
          simp [below, Number.Parts.natural?, none]

/-- An index stands for the position below the length that it equals. -/
theorem position?_eq_some_iff (short : length < 2 ^ 53) (index : Float) (position : Nat) :
    position? length index = some position ↔
      position < length ∧ Number.value? index = some (position : ℚ) := by
  rw [position?_eq_natural? short, Option.filter_eq_some_iff, ← Number.natural?_eq_some_iff,
    decide_eq_true_eq, and_comm]

/-- An index stands for no position exactly if it equals none below the length. -/
theorem position?_eq_none_iff (short : length < 2 ^ 53) (index : Float) :
    position? length index = none ↔
      ∀ position < length, Number.value? index ≠ some (position : ℚ) := by
  simp only [Option.eq_none_iff_forall_ne_some, ne_eq, position?_eq_some_iff short, not_and]

end Store

end KoreanLox
