import KoreanLox.Number.Text
import KoreanLox.Proofs.Number.Rounding
import KoreanLox.Token.Piece
import Mathlib.Data.List.TakeWhile

/-!
# Numbers told by their texts

The plain text of a number is its sign and a decimal written out around the point. Reading the
decimal back gives the value that was written (`Number.readBack_positional`), and only one number
rounds from that value, so finite numbers of equal plain texts are equal
(`Number.plain_injective`). The text consists of digits, of points and of minus signs, and it
begins with no point (`Number.exists_plain`).
-/

namespace KoreanLox.Number

/-! ## Reading a decimal back -/

/-- Digits that follow others count beside them. -/
theorem digitsValue_append (digits more : List Char) :
    digitsValue (digits ++ more) = digitsValue digits * 10 ^ more.length + digitsValue more := by
  induction more using List.reverseRecOn with
  | nil => simp [digitsValue]
  | append_singleton more last ih =>
    have next (text : List Char) :
        digitsValue (text ++ [last]) = digitsValue text * 10 + (last.toNat - '0'.toNat) := by
      simp [digitsValue]
    rw [← List.append_assoc, next, next, ih, List.length_append, List.length_singleton, pow_succ]
    ring

/-- Zeros have no value. -/
theorem digitsValue_zeros (count : Nat) : digitsValue (zeros count) = 0 := by
  induction count with
  | zero => rfl
  | succ count ih =>
    show digitsValue (['0'] ++ zeros count) = 0
    rw [digitsValue_append, ih]
    simp [digitsValue]

/-- The digits of a natural number have its value. -/
theorem digitsValue_toDigits (n : Nat) : digitsValue (Nat.toDigits 10 n) = n := by
  have read := Nat.ofDigitChars_toDigits (b := 10) (n := n) (by decide) (by decide)
  rw [Nat.ofDigitChars] at read
  simpa only [digitsValue, Nat.mul_comm] using read

/-- The value of digits around a decimal point. -/
def readBack (text : List Char) : ℚ :=
  digitsValue (text.filter (· != '.')) / 10 ^ (text.dropWhile (· != '.')).tail.length

/-- Digits are no points. -/
theorem ne_point_of_isDigit {c : Char} (digit : c.isDigit) : (c != '.') = true := by
  rw [bne_iff_ne]
  rintro rfl
  exact absurd digit (by decide)

/-- Digits without a point are read as they stand. -/
theorem readBack_digits {digits : List Char} (decimal : ∀ c ∈ digits, c.isDigit) :
    readBack digits = digitsValue digits := by
  have pure : ∀ c ∈ digits, (c != '.') = true := fun c mem => ne_point_of_isDigit (decimal c mem)
  have all : digits.filter (· != '.') = digits := List.filter_eq_self.mpr pure
  have none : digits.dropWhile (· != '.') = [] := List.dropWhile_eq_nil_iff.mpr pure
  rw [readBack, all, none, List.tail_nil, List.length_nil, pow_zero, div_one]

/-- Digits with a point are divided by a power of ten for the places after it. -/
theorem readBack_point {digits places : List Char} (decimal : ∀ c ∈ digits, c.isDigit)
    (further : ∀ c ∈ places, c.isDigit) :
    readBack (digits ++ '.' :: places) = digitsValue (digits ++ places) / 10 ^ places.length := by
  have pure : ∀ c ∈ digits, (c != '.') = true := fun c mem => ne_point_of_isDigit (decimal c mem)
  have pure' : ∀ c ∈ places, (c != '.') = true := fun c mem => ne_point_of_isDigit (further c mem)
  have all : (digits ++ '.' :: places).filter (· != '.') = digits ++ places := by
    rw [List.filter_append, List.filter_eq_self.mpr pure, List.filter_cons_of_neg (by simp),
      List.filter_eq_self.mpr pure']
  have after : (digits ++ '.' :: places).dropWhile (· != '.') = '.' :: places := by
    rw [List.dropWhile_append_of_pos pure, List.dropWhile_cons_of_neg (by simp)]
  rw [readBack, all, after, List.tail_cons]

/-- Zeros are digits. -/
theorem isDigit_zeros (count : Nat) : ∀ c ∈ zeros count, c.isDigit := by
  intro c mem
  rw [List.eq_of_mem_replicate mem]
  decide

namespace Decimal

variable (decimal : Decimal)

/-- The digits of a decimal are digits. -/
theorem isDigit_text : ∀ c ∈ decimal.text, c.isDigit :=
  fun _ mem => Nat.isDigit_of_mem_toDigits (by decide) (by decide) mem

/-- A decimal is written as digits, or as digits on both sides of a point, and the text has the
value of the decimal. -/
theorem positional_cases :
    ∃ digits, digits ≠ [] ∧ (∀ c ∈ digits, c.isDigit) ∧
      (decimal.positional "" = digits ∧ (digitsValue digits : ℚ) = decimal.value ∨
        ∃ places, (∀ c ∈ places, c.isDigit) ∧ decimal.positional "" = digits ++ '.' :: places ∧
          (digitsValue (digits ++ places) : ℚ) / 10 ^ places.length = decimal.value) := by
  have written : digitsValue decimal.text = decimal.digits := digitsValue_toDigits _
  have present : decimal.text ≠ [] := Nat.toDigits_ne_nil
  have decimals := decimal.isDigit_text
  unfold positional
  dsimp only
  by_cases whole : 0 ≤ decimal.exponent
  · -- All digits stand before the point, with zeros after them.
    rw [if_pos whole]
    refine ⟨decimal.text ++ zeros decimal.exponent.toNat, by simp [present], ?_, .inl ⟨?_, ?_⟩⟩
    · intro c mem
      rcases List.mem_append.mp mem with mem | mem
      · exact decimals c mem
      · exact isDigit_zeros _ c mem
    · simp
    · have same : ((decimal.exponent.toNat : Nat) : Int) = decimal.exponent :=
        Int.toNat_of_nonneg whole
      have power : (10 : ℚ) ^ decimal.exponent = 10 ^ decimal.exponent.toNat := by
        rw [← zpow_natCast, same]
      rw [digitsValue_append, digitsValue_zeros, written, value, power]
      simp [zeros]
  · rw [if_neg whole]
    have same : (((-decimal.exponent).toNat : Nat) : Int) = -decimal.exponent :=
      Int.toNat_of_nonneg (by omega)
    have power : (10 : ℚ) ^ decimal.exponent = (10 ^ (-decimal.exponent).toNat)⁻¹ := by
      rw [← zpow_natCast, same, zpow_neg, inv_inv]
    have quotient : decimal.value = decimal.digits / 10 ^ (-decimal.exponent).toNat := by
      rw [value, power, div_eq_mul_inv]
    by_cases inside : (-decimal.exponent).toNat < decimal.text.length
    · -- The point stands among the digits.
      rw [if_pos inside]
      refine ⟨decimal.text.take (decimal.text.length - (-decimal.exponent).toNat), ?_,
        fun c mem => decimals c (List.mem_of_mem_take mem), .inr
        ⟨_, fun c mem => decimals c (List.mem_of_mem_drop mem), rfl, ?_⟩⟩
      · intro none
        rw [List.take_eq_nil_iff] at none
        rcases none with none | none
        · omega
        · exact present none
      · rw [List.take_append_drop, written, List.length_drop, quotient]
        congr 2
        omega
    · -- The digits stand after the point, with zeros before them.
      rw [if_neg inside]
      refine ⟨['0'], by simp, by simp, .inr
        ⟨zeros ((-decimal.exponent).toNat - decimal.text.length) ++ decimal.text, ?_, ?_, ?_⟩⟩
      · intro c mem
        rcases List.mem_append.mp mem with mem | mem
        · exact isDigit_zeros _ c mem
        · exact decimals c mem
      · simp
      · have zero : digitsValue ['0'] = 0 := rfl
        rw [digitsValue_append, digitsValue_append, digitsValue_zeros, written, zero, quotient]
        simp only [Nat.zero_mul, Nat.zero_add, List.length_append, zeros, List.length_replicate]
        congr 2
        omega

end Decimal

/-- The text of a decimal is read back as its value. -/
theorem readBack_positional (decimal : Decimal) :
    readBack (decimal.positional "") = decimal.value := by
  obtain ⟨digits, -, pure, ⟨text, value⟩ | ⟨places, pure', text, value⟩⟩ :=
    decimal.positional_cases
  · rw [text, readBack_digits pure, value]
  · rw [text, readBack_point pure pure', value]

/-! ## The plain text -/

/-- The plain text of a positive mantissa or zero, without a sign. -/
def magnitude (mantissa : Nat) (exponent : Int) : List Char :=
  if mantissa = 0 then ['0'] else (shortest mantissa exponent).positional ""

/-- The plain text of a finite number is its sign and its magnitude. -/
theorem parts_plain (negative : Bool) (mantissa : Nat) (exponent : Int) :
    Layout.plain.parts (.finite negative mantissa exponent) =
      signed negative (magnitude mantissa exponent) := by
  simp only [Layout.parts, Layout.plain, Layout.decimal, magnitude]
  rfl

/-- A magnitude begins with a digit, and all its characters are digits and points. -/
theorem exists_magnitude (mantissa : Nat) (exponent : Int) :
    ∃ first rest, magnitude mantissa exponent = first :: rest ∧ first.isDigit ∧
      ∀ c ∈ rest, c.isDigit ∨ c = '.' := by
  unfold magnitude
  split
  · exact ⟨'0', [], rfl, by decide, by simp⟩
  · obtain ⟨digits, present, pure, text⟩ := (shortest mantissa exponent).positional_cases
    obtain ⟨first, rest, rfl⟩ := List.exists_cons_of_ne_nil present
    rw [List.forall_mem_cons] at pure
    obtain ⟨text, -⟩ | ⟨places, pure', text, -⟩ := text
    · exact ⟨first, rest, text, pure.1, fun c mem => .inl (pure.2 c mem)⟩
    · refine ⟨first, rest ++ '.' :: places, text, pure.1, fun c mem => ?_⟩
      rw [List.mem_append, List.mem_cons] at mem
      rcases mem with mem | rfl | mem
      · exact .inl (pure.2 c mem)
      · exact .inr rfl
      · exact .inl (pure' c mem)

/-- Numbers of equal magnitudes are equal but for their signs. -/
theorem magnitude_injective {mantissa mantissa' : Nat} {exponent exponent' : Int}
    (first : Normal mantissa exponent) (second : Normal mantissa' exponent')
    (same : magnitude mantissa exponent = magnitude mantissa' exponent') :
    mantissa = mantissa' ∧ exponent = exponent' := by
  have zero : readBack ['0'] = 0 := by
    rw [readBack_digits (by simp)]
    simp [digitsValue]
  -- The value that a magnitude stands for, and that it rounds to the number.
  have value {m : Nat} {e : Int} (positive : m ≠ 0) :
      (Interval.around m e).Admits (readBack (magnitude m e)) := by
    rw [magnitude, if_neg positive, readBack_positional]
    exact shortest_admitted e (Nat.pos_of_ne_zero positive)
  have apart {m : Nat} {e : Int} (positive : m ≠ 0) :
      readBack (magnitude m e) ≠ readBack ['0'] := by
    rw [zero]
    exact ((value positive).pos (Nat.pos_of_ne_zero positive)).ne'
  have least {m : Nat} {e : Int} (normal : Normal m e) (none : m = 0) : e = leastExponent := by
    have lower := normal.least
    by_contra other
    have lead := normal.led (by omega)
    rw [none] at lead
    exact absurd lead (by decide)
  by_cases none : mantissa = 0
  · by_cases none' : mantissa' = 0
    · exact ⟨by rw [none, none'], by rw [least first none, least second none']⟩
    · rw [show magnitude mantissa exponent = ['0'] from if_pos none] at same
      exact absurd (congrArg readBack same).symm (apart none')
  · by_cases none' : mantissa' = 0
    · rw [show magnitude mantissa' exponent' = ['0'] from if_pos none'] at same
      exact absurd (congrArg readBack same) (apart none)
    · refine eq_of_admitted first second (value none) ?_
      rw [same]
      exact value none'

/-! ## Finite numbers -/

/-- A finite number is a normal one, and its bits are told by its parts. -/
theorem exists_finite {x : Float} (finite : (value? x).isSome = true) :
    ∃ negative mantissa exponent, parts x = .finite negative mantissa exponent ∧
      Normal mantissa exponent := by
  unfold value? parts at finite
  unfold parts
  generalize x.toBits.toNat = bits at finite ⊢
  unfold Parts.ofBits at finite ⊢
  dsimp only at finite ⊢
  have code : bits / leadingOne % exponentCodes < exponentCodes := Nat.mod_lt _ (by decide)
  have fraction : bits % leadingOne < leadingOne := Nat.mod_lt _ (by decide)
  split
  next last =>
    rw [if_pos last] at finite
    split at finite <;> simp [Parts.value?] at finite
  next =>
    split
    next => exact ⟨_, _, _, rfl, by omega, le_rfl, fun less => absurd less (lt_irrefl _)⟩
    next => exact ⟨_, _, _, rfl, by omega, by omega, fun _ => by omega⟩

/-- Numbers of the same bits are equal. -/
theorem eq_of_toBits {x y : Float} (same : x.toBits = y.toBits) : x = y := by
  obtain ⟨⟨bits, valid⟩⟩ := x
  obtain ⟨⟨bits', valid'⟩⟩ := y
  have : bits = bits' := same
  subst this
  rfl

/-- The bits of a finite number are told by its parts. -/
theorem Parts.bits_of_ofBits {bits : Nat} (bound : bits < 2 ^ 64) {negative : Bool} {mantissa : Nat}
    {exponent : Int} (same : Parts.ofBits bits = .finite negative mantissa exponent) :
    (bits / signBit = if negative then 1 else 0) ∧
      bits % signBit = if mantissa < leadingOne then mantissa
        else (exponent - leastExponent).toNat * leadingOne + mantissa := by
  have sign : bits / signBit < 2 := by unfold signBit; omega
  have fraction : bits % leadingOne < leadingOne := Nat.mod_lt _ (by decide)
  have magnitude : bits % signBit =
      bits / leadingOne % exponentCodes * leadingOne + bits % leadingOne := by
    unfold signBit leadingOne exponentCodes
    omega
  unfold Parts.ofBits at same
  dsimp only at same
  generalize bits / signBit = top at *
  have told : (if (top % 2 == 1) = true then 1 else 0) = top := by
    simp only [beq_iff_eq]
    split <;> omega
  split at same
  · split at same <;> simp at same
  · split at same
    next none =>
      rw [Parts.finite.injEq] at same
      obtain ⟨rfl, rfl, rfl⟩ := same
      rw [told, if_pos fraction, magnitude, none]
      omega
    next some =>
      rw [Parts.finite.injEq] at same
      obtain ⟨rfl, rfl, rfl⟩ := same
      generalize bits / leadingOne % exponentCodes = code at *
      have next : (leastExponent + code - 1 - leastExponent).toNat + 1 = code := by omega
      have split : code * leadingOne =
          (leastExponent + code - 1 - leastExponent).toNat * leadingOne + leadingOne := by
        rw [← Nat.succ_mul, Nat.succ_eq_add_one, next]
      rw [told, if_neg (by omega), magnitude, split]
      omega

/-- Numbers with the same finite parts are equal. -/
theorem eq_of_parts {x y : Float} {negative : Bool} {mantissa : Nat} {exponent : Int}
    (first : parts x = .finite negative mantissa exponent)
    (second : parts y = .finite negative mantissa exponent) : x = y := by
  obtain ⟨sign, rest⟩ := Parts.bits_of_ofBits x.toBits.toNat_lt first
  obtain ⟨sign', rest'⟩ := Parts.bits_of_ofBits y.toBits.toNat_lt second
  refine eq_of_toBits (UInt64.toNat_inj.mp ?_)
  rw [← Nat.div_add_mod x.toBits.toNat signBit, sign, rest, ← sign', ← rest', Nat.div_add_mod]

/-- The plain text of a finite number is a digit or a minus sign and then digits and points. -/
theorem exists_plain {x : Float} (finite : (value? x).isSome = true) :
    ∃ first rest, (plain x).toList = first :: rest ∧ (first.isDigit ∨ first = '-') ∧
      ∀ c ∈ rest, c.isDigit ∨ c = '.' := by
  obtain ⟨negative, mantissa, exponent, same, -⟩ := exists_finite finite
  obtain ⟨first, rest, text, digit, pure⟩ := exists_magnitude mantissa exponent
  rw [plain, Layout.text, String.toList_ofList, same, parts_plain, text]
  cases negative with
  | false => exact ⟨first, rest, rfl, .inl digit, pure⟩
  | true =>
    refine ⟨'-', first :: rest, rfl, .inr rfl, fun c mem => ?_⟩
    rcases List.mem_cons.mp mem with rfl | mem
    · exact .inl digit
    · exact pure c mem

/-- Finite numbers of equal plain texts are equal. -/
theorem plain_injective {x y : Float} (finite : (value? x).isSome = true)
    (finite' : (value? y).isSome = true) (same : plain x = plain y) : x = y := by
  obtain ⟨negative, mantissa, exponent, first, normal⟩ := exists_finite finite
  obtain ⟨negative', mantissa', exponent', second, normal'⟩ := exists_finite finite'
  have texts : signed negative (magnitude mantissa exponent) =
      signed negative' (magnitude mantissa' exponent') := by
    rw [← parts_plain, ← parts_plain, ← first, ← second]
    exact String.ofList_inj.mp same
  -- A magnitude begins with a digit, so the sign is told by the first character.
  have unsigned (m : Nat) (e : Int) (text : List Char) : magnitude m e ≠ '-' :: text := by
    obtain ⟨c, rest, found, digit, -⟩ := exists_magnitude m e
    rw [found]
    intro other
    rw [List.cons.injEq] at other
    rw [other.1] at digit
    exact absurd digit (by decide)
  have both : negative = negative' ∧
      magnitude mantissa exponent = magnitude mantissa' exponent' := by
    cases negative <;> cases negative'
    · exact ⟨rfl, texts⟩
    · exact absurd texts (unsigned _ _ _)
    · exact absurd texts.symm (unsigned _ _ _)
    · exact ⟨rfl, (List.cons.inj texts).2⟩
  obtain ⟨rfl, magnitudes⟩ := both
  obtain ⟨rfl, rfl⟩ := magnitude_injective normal normal' magnitudes
  exact eq_of_parts first second

end KoreanLox.Number
