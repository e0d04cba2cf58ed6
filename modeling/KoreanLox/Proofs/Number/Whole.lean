import KoreanLox.Proofs.Number.Value
import Mathlib

/-!
# Whole numbers

The parts of a number are those of the unpacked number that the operations on numbers work with
(`Number.parts_eq_ofUnpacked`). So a count of at most fifty-three bits is the number that equals it:
its mantissa is moved up to the leading one, which loses nothing, and multiplying by one changes
nothing (`Number.value?_ofNat`). And a number without its fraction is the integer next to its value
in the direction of zero (`Number.truncated_eq_integer_iff`).
-/

namespace KoreanLox.Number

open Float.Model (Format UnpackedFloat totalExponent)
open Float.Model.UnpackedFloat

/-! ## Unpacked numbers -/

/-- The parts of an unpacked number. -/
def Parts.ofUnpacked : UnpackedFloat → Parts
  | .notANumber => .undefined
  | .infinity sign => .infinite (sign == .negative)
  | .zero sign => .finite (sign == .negative) 0 leastExponent
  | .finite sign mantissa exponent _ => .finite (sign == .negative) mantissa exponent

section

variable (bits : BitVec Format.binary64.numBits)

/-- The mantissa is stored in the last fifty-two bits. -/
theorem toNat_unpackMantissa : (unpackMantissa bits).toNat = bits.toNat % leadingOne := by
  show (bits.toNat >>> 0) % 2 ^ 52 = _
  rw [Nat.shiftRight_zero]
  rfl

/-- The exponent is stored in the eleven bits before them. -/
theorem toNat_unpackExponent :
    (unpackExponent bits).toNat = bits.toNat / leadingOne % exponentCodes := by
  show (bits.toNat >>> 52) % 2 ^ 11 = _
  rw [Nat.shiftRight_eq_div_pow]
  rfl

/-- The sign is stored in the first bit. -/
theorem sign_unpackSign :
    (Sign.ofBitVec (unpackSign bits) == .negative) = (bits.toNat / signBit % 2 == 1) := by
  have stored : (unpackSign bits).toNat = bits.toNat / signBit % 2 := by
    show (bits.toNat >>> 63) % 2 ^ 1 = _
    rw [Nat.shiftRight_eq_div_pow]
    rfl
  rw [← stored]
  generalize unpackSign bits = sign
  revert sign
  decide

/-- A stored mantissa with the leading one before it. -/
theorem toNat_leadingOne_append (mantissa : BitVec 52) :
    (1#1 ++ mantissa).toNat = leadingOne + mantissa.toNat := by
  rw [BitVec.toNat_append, Nat.shiftLeft_eq, Nat.or_comm]
  show _ ||| 1 * 2 ^ 52 = 2 ^ 52 + _
  rw [Nat.one_mul, Nat.or_two_pow_eq_add_of_lt mantissa.isLt, Nat.add_comm]

/-- The sign is put before the other components. -/
theorem unpackSign_packComponents (sign : Sign) (code : BitVec 11) (mantissa : BitVec 52) :
    unpackSign (packComponents Format.binary64 sign code mantissa) = sign.toBitVec := by
  show BitVec.extractLsb' 63 1 (sign.toBitVec ++ code ++ mantissa) = sign.toBitVec
  rw [BitVec.extractLsb'_append_eq_of_le (by decide),
    BitVec.extractLsb'_append_eq_of_le (by decide)]
  cases sign <;> rfl

/-- Taking bits apart is unpacking them. -/
theorem ofBits_eq_ofUnpacked :
    Parts.ofBits bits.toNat = .ofUnpacked (unpack Format.binary64 bits) := by
  have mantissa := toNat_unpackMantissa bits
  have code := toNat_unpackExponent bits
  have lead : (1#1 ++ unpackMantissa bits).toNat = leadingOne + (unpackMantissa bits).toNat :=
    toNat_leadingOne_append _
  have bias : (Format.binary64.exponentBias : Int) + Format.binary64.mantissaBitsWithoutImplicit =
      1 - leastExponent := rfl
  have zero : unpackMantissa bits = 0#_ ↔ bits.toNat % leadingOne = 0 := by
    rw [← mantissa, ← BitVec.toNat_inj]
    rfl
  have last : unpackExponent bits = -1#_ ↔
      bits.toNat / leadingOne % exponentCodes + 1 = exponentCodes := by
    rw [← code, ← BitVec.toNat_inj]
    show _ = 2047 ↔ _ + 1 = 2048
    omega
  have least : unpackExponent bits = 0#_ ↔ bits.toNat / leadingOne % exponentCodes = 0 := by
    rw [← code, ← BitVec.toNat_inj]
    rfl
  unfold Parts.ofBits unpack
  simp only [zero, last, least, bias, lead, mantissa, code, ← sign_unpackSign bits]
  split
  next => split <;> rfl
  next =>
    split
    next subnormal =>
      split
      next blank =>
        rw [blank]
        rfl
      next =>
        rw [subnormal]
        rfl
    next =>
      simp only [Parts.ofUnpacked]
      congr 1
      omega

end

/-- Taking a number apart is unpacking it. -/
theorem parts_eq_ofUnpacked (x : Float) : parts x = .ofUnpacked x.toModel.unpack :=
  ofBits_eq_ofUnpacked x.toModel.toBits.toBitVec

/-- A number is no number exactly if it has no parts. -/
theorem isNaN_iff (x : Float) : x.isNaN = true ↔ parts x = .undefined := by
  rw [parts_eq_ofUnpacked]
  show x.toModel.unpack.isNaN = true ↔ _
  cases x.toModel.unpack with
  | notANumber => exact ⟨fun _ => rfl, fun _ => rfl⟩
  | infinity | zero | finite => exact ⟨nofun, nofun⟩

/-! ## Nothing is lost -/

/-- A mantissa of exactly fifty-three bits over an exponent that numbers may have. -/
structure Led (mantissa : Nat) (exponent : Int) : Prop where
  /-- The mantissa has a leading one. -/
  led : leadingOne ≤ mantissa
  /-- Nothing stands before the leading one. -/
  short : mantissa < 2 * leadingOne
  /-- The exponent is not too small. -/
  least : leastExponent ≤ exponent
  /-- The exponent is not too great. -/
  most : exponent < leastExponent + exponentCodes - 2

/-- Zeros that are shifted out leave no trace. -/
theorem shiftRight_exact (mantissa shift : Nat) :
    ExtendedMantissa.ofMantissaAndAccuracy (mantissa * 2 ^ shift) .exact >>> shift =
      .ofMantissaAndAccuracy mantissa .exact := by
  show shift.repeat ExtendedMantissa.shiftRightOne _ = _
  induction shift generalizing mantissa with
  | zero => simp [Nat.repeat]
  | succ shift ih =>
    rw [Nat.repeat, Nat.pow_succ', ← Nat.mul_assoc, ih]
    simp [ExtendedMantissa.shiftRightOne, ExtendedMantissa.ofMantissaAndAccuracy]

namespace Led

variable {mantissa : Nat} {exponent : Int}

/-- A led mantissa is positive. -/
theorem pos (led : Led mantissa exponent) : 0 < mantissa :=
  Nat.lt_of_lt_of_le (by decide) led.led

/-- A mantissa that was shifted up is to be shifted back. -/
theorem targetExponent_scaled (led : Led mantissa exponent) (shift : Nat) :
    Format.binary64.targetExponent (totalExponent (mantissa * 2 ^ shift) (exponent - shift)) =
      exponent := by
  have scaled : mantissa * 2 ^ shift ≠ 0 :=
    Nat.ne_of_gt (Nat.mul_pos led.pos (Nat.two_pow_pos shift))
  have log : (mantissa * 2 ^ shift).log2 = 52 + shift := by
    rw [Nat.log2_eq_iff scaled, Nat.add_right_comm, Nat.pow_add, Nat.pow_add]
    exact ⟨Nat.mul_le_mul_right _ led.led,
      Nat.mul_lt_mul_of_pos_right led.short (Nat.two_pow_pos shift)⟩
  have least : -1074 ≤ exponent := led.least
  unfold Format.targetExponent totalExponent
  rw [log]
  show max (((52 + shift : Nat) : Int) + 1 + (exponent - shift) - 53) (-1074) = exponent
  omega

/-- Shifting back is exact. -/
theorem shiftToTargetExponent_scaled (led : Led mantissa exponent) (shift : Nat) :
    shiftToTargetExponent Format.binary64 (mantissa * 2 ^ shift) (exponent - shift) .exact =
      (.ofMantissaAndAccuracy mantissa .exact, exponent) := by
  have amount : (exponent - (exponent - shift)).toNat = shift := by omega
  unfold shiftToTargetExponent shiftToExponent
  simp only [led.targetExponent_scaled shift, amount, shiftRight_exact]
  congr 1
  omega

/-- Rounding a mantissa that was shifted up gives it back. -/
theorem roundWithAccuracy_scaled (led : Led mantissa exponent) (sign : Sign) (shift : Nat) :
    roundWithAccuracy Format.binary64 sign (mantissa * 2 ^ shift) (exponent - shift) .exact =
      .finite sign mantissa exponent led.pos := by
  have again := led.shiftToTargetExponent_scaled 0
  simp only [Nat.pow_zero, Nat.mul_one, Nat.cast_zero, sub_zero] at again
  have rounded : (ExtendedMantissa.ofMantissaAndAccuracy mantissa .exact).roundedMantissa =
      mantissa := rfl
  unfold roundWithAccuracy
  simp only [led.shiftToTargetExponent_scaled shift, rounded, again]
  exact dif_neg (Nat.ne_of_gt led.pos)

/-- The stored exponent of a led mantissa. -/
theorem exists_code (led : Led mantissa exponent) :
    ∃ code : Nat, exponent + 1075 = code ∧ 0 < code ∧ code < 2047 := by
  have least : -1074 ≤ exponent := led.least
  have most : exponent < -1074 + 2048 - 2 := led.most
  exact ⟨(exponent + 1075).toNat, by omega⟩

/-- A led mantissa is stored as it is, without its leading one. -/
theorem pack_eq (led : Led mantissa exponent) (sign : Sign) {code : Nat}
    (coded : exponent + 1075 = code) (most : code < 2047) :
    pack Format.binary64 (.finite sign mantissa exponent led.pos) =
      packComponents Format.binary64 sign (BitVec.ofNat _ code) (BitVec.ofNat _ mantissa) := by
  have log : mantissa.log2 = 52 :=
    (Nat.log2_eq_iff (Nat.ne_of_gt led.pos)).mpr ⟨led.led, led.short⟩
  have biased : (exponent + Format.binary64.exponentBias +
      Format.binary64.mantissaBitsWithoutImplicit).toNat = code := by
    show (exponent + 1023 + 52).toNat = code
    omega
  unfold pack
  simp only [biased, log]
  rw [if_neg (show ¬ 2048 ≤ code + 1 by omega),
    if_pos (show 52 + 1 = Format.binary64.mantissaBits from rfl)]

/-- A led mantissa is found as it was stored. -/
theorem unpack_packComponents (led : Led mantissa exponent) (sign : Sign) {code : Nat}
    (coded : exponent + 1075 = code) (least : 0 < code) (most : code < 2047) :
    unpack Format.binary64
        (packComponents Format.binary64 sign (BitVec.ofNat _ code) (BitVec.ofNat _ mantissa)) =
      .finite sign mantissa exponent led.pos := by
  have same : Sign.ofBitVec sign.toBitVec = sign := by cases sign <;> rfl
  have size : (BitVec.ofNat 11 code).toNat = code := by
    rw [BitVec.toNat_ofNat]
    omega
  have notLast : BitVec.ofNat 11 code ≠ -1#11 := by
    rw [ne_eq, ← BitVec.toNat_inj, size]
    exact Nat.ne_of_lt most
  have notLeast : BitVec.ofNat 11 code ≠ 0#11 := by
    rw [ne_eq, ← BitVec.toNat_inj, size]
    exact Nat.ne_of_gt least
  have whole : (1#1 ++ BitVec.ofNat 52 mantissa).toNat = mantissa := by
    have low : 2 ^ 52 ≤ mantissa := led.led
    have high : mantissa < 2 * 2 ^ 52 := led.short
    rw [toNat_leadingOne_append, BitVec.toNat_ofNat]
    show 2 ^ 52 + mantissa % 2 ^ 52 = mantissa
    omega
  have unbiased : (code : Int) - (Format.binary64.exponentBias +
      Format.binary64.mantissaBitsWithoutImplicit) = exponent := by
    show (code : Int) - 1075 = exponent
    omega
  unfold unpack
  simp only [unpackMantissa_packComponents, unpackExponent_packComponents,
    unpackSign_packComponents, if_neg notLast, if_neg notLeast, whole, size, unbiased, same]

/-- A number that was packed is unpacked as it was. -/
theorem unpack_pack (led : Led mantissa exponent) (sign : Sign) :
    unpack Format.binary64 (pack Format.binary64 (.finite sign mantissa exponent led.pos)) =
      .finite sign mantissa exponent led.pos := by
  obtain ⟨code, coded, least, most⟩ := led.exists_code
  rw [led.pack_eq sign coded most, led.unpack_packComponents sign coded least most]

/-- Multiplying a number by one gives it back. -/
theorem unpack_mul_one (led : Led mantissa exponent) {x : Float}
    (unpacked : x.toModel.unpack = .finite .positive mantissa exponent led.pos) :
    (x * 1.0).toModel.unpack = .finite .positive mantissa exponent led.pos := by
  have one : (1.0 : Float).toModel.unpack = .finite .positive (2 ^ 52) (-52) (by decide) := rfl
  show unpack Format.binary64 (pack Format.binary64
    (mul Format.binary64 x.toModel.unpack (1.0 : Float).toModel.unpack)) = _
  rw [unpacked, one]
  show unpack Format.binary64 (pack Format.binary64 (roundWithAccuracy Format.binary64 .positive
    (mantissa * 2 ^ 52) (exponent - (52 : Nat)) .exact)) = _
  rw [led.roundWithAccuracy_scaled .positive 52, led.unpack_pack]

end Led

/-! ## Counts -/

/-- A positive count of at most fifty-three bits, moved up to the leading one. -/
theorem led_of_lt {count : Nat} (positive : 0 < count) (below : count < 2 ^ 53) :
    Led (count * 2 ^ (52 - count.log2)) (count.log2 - 52) := by
  obtain ⟨low, high⟩ := (Nat.log2_eq_iff (Nat.ne_of_gt positive)).mp rfl
  have fits : count.log2 < 53 := (Nat.log2_lt (Nat.ne_of_gt positive)).mpr below
  have total : leadingOne = 2 ^ count.log2 * 2 ^ (52 - count.log2) := by
    rw [← Nat.pow_add, show count.log2 + (52 - count.log2) = 52 by omega]
    rfl
  constructor
  · rw [total]
    exact Nat.mul_le_mul_right _ low
  · rw [total, ← Nat.mul_assoc, ← Nat.pow_succ']
    exact Nat.mul_lt_mul_of_pos_right high (Nat.two_pow_pos _)
  · unfold leastExponent
    omega
  · unfold leastExponent exponentCodes
    omega

/-- A count of at most fifty-three bits is converted without loss. -/
theorem ofNat_eq_finite {count : Nat} (positive : 0 < count) (below : count < 2 ^ 53) :
    UnpackedFloat.ofNat Format.binary64 count =
      .finite .positive (count * 2 ^ (52 - count.log2)) (count.log2 - 52)
        (led_of_lt positive below).pos := by
  have led := led_of_lt positive below
  have fits : count.log2 < 53 := (Nat.log2_lt (Nat.ne_of_gt positive)).mpr below
  have target : Format.binary64.targetExponent (totalExponent count 0) = count.log2 - 52 := by
    show max ((count.log2 : Int) + 1 + 0 - 53) (-1074) = _
    omega
  have amount : ((0 : Int) - (count.log2 - 52)).toNat = 52 - count.log2 := by omega
  have lowered : (0 : Int) - (52 - count.log2 : Nat) = count.log2 - 52 := by omega
  have greater : compare (count : Int) 0 = .gt := Int.compare_eq_gt.mpr (by omega)
  have rounded := led.roundWithAccuracy_scaled .positive 0
  simp only [Nat.pow_zero, Nat.mul_one, Nat.cast_zero, sub_zero] at rounded
  unfold UnpackedFloat.ofNat UnpackedFloat.ofInt UnpackedFloat.normalize
  simp only [greater, Int.toNat_natCast]
  unfold Float.Model.UnpackedFloat.round decreaseExponent
  simp only [target, amount, lowered, Nat.shiftLeft_eq]
  exact rounded

/-- The number of a count of at most fifty-three bits equals the count. -/
theorem value?_ofNat {count : Nat} (below : count < 2 ^ 53) :
    value? (Float.ofNat count) = some (count : ℚ) := by
  rcases Nat.eq_zero_or_pos count with rfl | positive
  · exact (natural?_eq_some_iff _ 0).mp (by decide +kernel)
  · have led := led_of_lt positive below
    have word : count.toUInt64.toNat = count := Nat.mod_eq_of_lt (by omega)
    have converted : count.toUInt64.toFloat.toModel.unpack = .finite .positive
        (count * 2 ^ (52 - count.log2)) (count.log2 - 52) led.pos := by
      show unpack Format.binary64 (pack Format.binary64
        (UnpackedFloat.ofNat Format.binary64 count.toUInt64.toNat)) = _
      rw [word, ofNat_eq_finite positive below, led.unpack_pack]
    have scaled : Float.ofNat count = count.toUInt64.toFloat * 1.0 := by
      show Float.ofScientific count false 0 = _
      unfold Float.ofScientific
      rw [dif_pos ⟨below, by decide⟩]
      rfl
    have fits : count.log2 < 53 := (Nat.log2_lt (Nat.ne_of_gt positive)).mpr below
    have inverse : (count.log2 : Int) - 52 = -((52 - count.log2 : Nat) : Int) := by omega
    rw [value?, parts_eq_ofUnpacked, scaled, led.unpack_mul_one converted]
    show some ((1 : ℚ) *
      ((count * 2 ^ (52 - count.log2) : Nat) * 2 ^ ((count.log2 : Int) - 52))) = _
    rw [one_mul, inverse, zpow_neg, zpow_natCast, Nat.cast_mul, Nat.cast_pow, Nat.cast_ofNat,
      mul_inv_cancel_right₀ (by positivity)]

/-! ## Cutting the fraction off -/

/-- The integer next to a rational number in the direction of zero. -/
def towardZero (q : ℚ) : ℤ := if q < 0 then ⌈q⌉ else ⌊q⌋

/-- The whole part of a multiple of a power of two is the integer below it. -/
theorem floor_mul_two_zpow (mantissa : Nat) (exponent : Int) :
    ⌊(mantissa : ℚ) * 2 ^ exponent⌋ = wholePart mantissa exponent := by
  unfold wholePart
  split
  next whole =>
    rw [two_zpow_of_nonneg whole, ← Nat.cast_mul, Int.floor_natCast]
    rfl
  next below =>
    rw [two_zpow_of_neg (by omega), ← div_eq_mul_inv, Rat.floor_natCast_div_natCast]
    rfl

/-- In the direction of zero, a number that is not negative comes down. -/
theorem towardZero_of_nonneg {q : ℚ} (size : 0 ≤ q) : towardZero q = ⌊q⌋ :=
  if_neg (not_lt.mpr size)

/-- In the direction of zero, the opposite of a number comes to the opposite. -/
theorem towardZero_neg {q : ℚ} (size : 0 ≤ q) : towardZero (-q) = -⌊q⌋ := by
  rcases size.eq_or_lt with rfl | positive
  · simp [towardZero]
  · rw [towardZero, if_pos (neg_lt_zero.mpr positive), Int.ceil_neg]

/-- The fraction of a finite number is cut off in the direction of zero. -/
theorem truncated_eq_integer_iff (x : Float) (integer : ℤ) :
    truncated x = .integer integer ↔ ∃ q, value? x = some q ∧ towardZero q = integer := by
  unfold truncated value?
  cases parts x with
  | undefined => simp [Parts.truncated, Parts.value?]
  | infinite negative => simp [Parts.truncated, Parts.value?]
  | finite negative mantissa exponent =>
    have whole := floor_mul_two_zpow mantissa exponent
    have size : (0 : ℚ) ≤ mantissa * 2 ^ exponent := by positivity
    cases negative with
    | false => simp [Parts.truncated, Parts.value?, towardZero_of_nonneg size, whole]
    | true => simp [Parts.truncated, Parts.value?, towardZero_neg size, whole]

end KoreanLox.Number
