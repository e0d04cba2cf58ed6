import KoreanLox.Number.Parts

/-!
# The shortest decimal of a number

Every positive number is the nearest one to all reals of an interval around it. The shortest
decimal of the number is the decimal with the fewest digits in that interval, and of several
with as few digits the nearest one. The search compares exact fractions of natural numbers.
-/

namespace KoreanLox.Number

/-- The decimal `digits * 10 ^ exponent`. -/
structure Decimal where
  /-- All digits as one natural number. -/
  digits : Nat
  /-- The power of ten that the last digit counts. -/
  exponent : Int
  deriving DecidableEq, Repr

/-- A fraction of natural numbers, compared and scaled exactly. -/
structure Fraction where
  /-- What is divided. -/
  numerator : Nat
  /-- What it is divided by. -/
  denominator : Nat
  deriving DecidableEq, Repr

namespace Fraction

/-- The fraction `factor * base ^ exponent`. -/
def scaled (factor base : Nat) (exponent : Int) : Fraction :=
  if 0 ≤ exponent then ⟨factor * Nat.pow base exponent.toNat, 1⟩
  else ⟨factor, Nat.pow base (-exponent).toNat⟩

/-- Order by cross multiplication. -/
def le (first second : Fraction) : Bool :=
  first.numerator * second.denominator ≤ second.numerator * first.denominator

/-- Strict order by cross multiplication. -/
def lt (first second : Fraction) : Bool :=
  first.numerator * second.denominator < second.numerator * first.denominator

end Fraction

/-- The reals that round to one number: the number itself, the ends of the interval, and whether
the ends belong to it. -/
structure Interval where
  /-- The number itself. -/
  value : Fraction
  /-- The midpoint between the number and the next smaller one. -/
  lower : Fraction
  /-- The midpoint between the number and the next greater one. -/
  upper : Fraction
  /-- Whether the midpoints round to this number. -/
  closed : Bool

namespace Interval

/-- The interval of `mantissa * 2 ^ exponent`. The next smaller number is only half as far away
where the mantissa is the least one with a leading one. Midpoints go to the even mantissa. -/
def around (mantissa : Nat) (exponent : Int) : Interval where
  value := .scaled mantissa 2 exponent
  lower :=
    if mantissa = leadingOne ∧ leastExponent < exponent then
      .scaled (4 * mantissa - 1) 2 (exponent - 2)
    else .scaled (2 * mantissa - 1) 2 (exponent - 1)
  upper := .scaled (2 * mantissa + 1) 2 (exponent - 1)
  closed := mantissa % 2 == 0

/-- Whether a fraction lies in the interval. -/
def contains (interval : Interval) (fraction : Fraction) : Bool :=
  if interval.closed then interval.lower.le fraction && fraction.le interval.upper
  else interval.lower.lt fraction && fraction.lt interval.upper

/-- The least `size` at or after the given one with `value < 10 ^ size`, looking at no more than
`bound` candidates. -/
def sizeFrom (value : Fraction) : Nat → Int → Int
  | 0, size => size
  | bound + 1, size =>
    if value.lt (.scaled 1 10 size) then size else sizeFrom value bound (size + 1)

/-- The number of digits that a value has before its decimal point: the least `size` with
`value < 10 ^ size`. The numbers of bits of the fraction give a size at most a few too small. -/
def size (value : Fraction) : Int :=
  let bits : Int := value.numerator.log2 - value.denominator.log2
  sizeFrom value 6 ((bits - 2) * 30103 / 100000 - 1)

/-- The decimal with `count` digits that lies in the interval, if there is one: of the two
neighbours of the value the nearer one, and the greater of two as near. -/
def withDigits? (interval : Interval) (size : Int) (count : Nat) : Option Decimal :=
  let exponent := size - count
  let unit := Fraction.scaled 1 10 exponent
  let value := interval.value
  let below := value.numerator * unit.denominator / (value.denominator * unit.numerator)
  let remainder := value.numerator * unit.denominator % (value.denominator * unit.numerator)
  let above := below + 1
  let fits (digits : Nat) : Bool := interval.contains (.scaled digits 10 exponent)
  match fits below, fits above with
  | true, true =>
    if 2 * remainder < value.denominator * unit.numerator then some ⟨below, exponent⟩
    else some ⟨above, exponent⟩
  | true, false => some ⟨below, exponent⟩
  | false, true => some ⟨above, exponent⟩
  | false, false => none

/-- The first success when trying `count`, `count + 1`, and so on, at most `bound` of them. -/
def search (interval : Interval) (size : Int) : Nat → Nat → Option Decimal
  | 0, _ => none
  | bound + 1, count =>
    match interval.withDigits? size count with
    | some decimal => some decimal
    | none => search interval size bound (count + 1)

end Interval

/-- The decimal that equals `mantissa * 2 ^ exponent`. -/
def exactDecimal (mantissa : Nat) (exponent : Int) : Decimal :=
  if 0 ≤ exponent then ⟨mantissa * Nat.pow 2 exponent.toNat, 0⟩
  else ⟨mantissa * Nat.pow 5 (-exponent).toNat, exponent⟩

/-- Drops final zeros of the digits, at most `bound` of them. -/
def Decimal.trim : Nat → Decimal → Decimal
  | 0, decimal => decimal
  | bound + 1, decimal =>
    if decimal.digits ≠ 0 ∧ decimal.digits % 10 = 0 then
      trim bound ⟨decimal.digits / 10, decimal.exponent + 1⟩
    else decimal

/-- The shortest decimal that reads back as the positive number `mantissa * 2 ^ exponent`.
Seventeen digits always suffice; the exact decimal stands behind the search. -/
def shortest (mantissa : Nat) (exponent : Int) : Decimal :=
  let interval := Interval.around mantissa exponent
  let decimal :=
    (interval.search (Interval.size interval.value) 17 1).getD (exactDecimal mantissa exponent)
  decimal.trim 20

end KoreanLox.Number
