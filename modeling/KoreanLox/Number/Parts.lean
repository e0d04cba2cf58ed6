/-!
# The parts of a number

Numbers of the language are binary floating-point numbers of 64 bits. This module reads a number
as an exact integer multiple of a power of two, tells whether it is a whole number, cuts its
fraction off, and turns it into a position. All of it is integer arithmetic on the bits, so each
function can be reasoned about without any floating-point operation.
-/

namespace KoreanLox.Number

/-- A number taken apart. -/
inductive Parts where
  /-- No number at all. -/
  | undefined
  /-- An infinity, negative or positive. -/
  | infinite (negative : Bool)
  /-- The number `mantissa * 2 ^ exponent`, negated if `negative`; zero keeps its sign. -/
  | finite (negative : Bool) (mantissa : Nat) (exponent : Int)
  deriving DecidableEq, Repr

/-- The number of bits of the stored fraction. -/
def fractionBits : Nat := 52

/-- The weight of the leading one, in units of the last bit of the fraction. -/
def leadingOne : Nat := 0x10000000000000

/-- The number of codes for an exponent; the last one marks what is not finite. -/
def exponentCodes : Nat := 2048

/-- The weight of the sign bit. -/
def signBit : Nat := 0x8000000000000000

/-- The exponent shared by all numbers too small for a leading one. -/
def leastExponent : Int := -1074

/-- Takes a bit pattern apart: one sign bit, eleven exponent bits, fifty-two fraction bits. -/
def Parts.ofBits (bits : Nat) : Parts :=
  let negative := bits / signBit % 2 == 1
  let code := bits / leadingOne % exponentCodes
  let fraction := bits % leadingOne
  if code + 1 = exponentCodes then
    if fraction = 0 then .infinite negative else .undefined
  else if code = 0 then .finite negative fraction leastExponent
  else .finite negative (leadingOne + fraction) (leastExponent + code - 1)

/-- Takes a number apart. -/
def parts (x : Float) : Parts :=
  Parts.ofBits x.toBits.toNat

/-- The whole part of `mantissa * 2 ^ exponent`. -/
def wholePart (mantissa : Nat) (exponent : Int) : Nat :=
  if 0 ≤ exponent then mantissa * Nat.pow 2 exponent.toNat
  else mantissa / Nat.pow 2 (-exponent).toNat

/-- Whether `mantissa * 2 ^ exponent` has no fraction. -/
def isWhole (mantissa : Nat) (exponent : Int) : Bool :=
  0 ≤ exponent || mantissa % Nat.pow 2 (-exponent).toNat == 0

/-- Whether the fraction of a number taken apart differs from zero. An infinity and an undefined
number have an undefined fraction, which differs. -/
def Parts.hasFraction : Parts → Bool
  | .finite _ mantissa exponent => !isWhole mantissa exponent
  | _ => true

/-- Whether the fraction of a number differs from zero. -/
def hasFraction (x : Float) : Bool :=
  (parts x).hasFraction

/-- The number of positions: a position is a word of 64 bits. -/
def positions : Nat := 0x10000000000000000

/-- What is left of a number when its fraction is cut off. -/
inductive Truncated where
  /-- Nothing is left of an undefined number. -/
  | undefined
  /-- An infinity stays what it is. -/
  | infinite (negative : Bool)
  /-- The integer between zero and the number that is nearest to the number. -/
  | integer (value : Int)
  deriving DecidableEq, Repr

namespace Truncated

/-- Strict order; an undefined value is in no order with any other. -/
def lt : Truncated → Truncated → Bool
  | .integer first, .integer second => first < second
  | .infinite first, .infinite second => first && !second
  | .infinite first, .integer _ => first
  | .integer _, .infinite second => !second
  | _, _ => false

/-- The position nearest to a value; an undefined value stands for the first one. -/
def position : Truncated → Nat
  | .undefined => 0
  | .infinite negative => if negative then 0 else positions - 1
  | .integer value => min value.toNat (positions - 1)

end Truncated

/-- Cuts the fraction off. -/
def Parts.truncated : Parts → Truncated
  | .undefined => .undefined
  | .infinite negative => .infinite negative
  | .finite negative mantissa exponent =>
    let whole : Int := wholePart mantissa exponent
    .integer (if negative then -whole else whole)

/-- A number with its fraction cut off, as an exact integer. -/
def truncated (x : Float) : Truncated :=
  (parts x).truncated

/-- A number with its fraction cut off, as a number again: the bits that weigh less than one are
cleared and the sign stays. -/
def truncate (x : Float) : Float :=
  match parts x with
  | .finite negative mantissa exponent =>
    let bits := x.toBits.toNat
    let below := (-exponent).toNat
    if 0 ≤ exponent then x
    else if fractionBits < below then
      Float.ofBits (UInt64.ofNat (if negative then signBit else 0))
    else Float.ofBits (UInt64.ofNat (bits - mantissa % Nat.pow 2 below))
  | _ => x

/-- The number nearest to a decimal fraction `digits / 10 ^ places`, a half going to the even
neighbour, and infinity if it is too large. -/
def ofDecimal (digits places : Nat) : Float :=
  Float.ofScientific digits true places

end KoreanLox.Number
