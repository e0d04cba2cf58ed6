/-!
# Reading integers of 32 bits

An optional sign is followed by decimal digits. The characters are read from left to right, and
the first one that is no digit, or that takes the value out of range, decides the error.
-/

namespace KoreanLox.Text

/-- Why a text is no integer of 32 bits. -/
inductive IntegerError where
  /-- There is no text. -/
  | empty
  /-- A character is no digit, or there is a sign only. -/
  | invalidDigit
  /-- The value is above the greatest integer. -/
  | tooLarge
  /-- The value is below the least integer. -/
  | tooSmall
  deriving DecidableEq, Repr

/-- The wording of an error. -/
def IntegerError.message : IntegerError → String
  | .empty => "cannot parse integer from empty string"
  | .invalidDigit => "invalid digit found in string"
  | .tooLarge => "number too large to fit in target type"
  | .tooSmall => "number too small to fit in target type"

/-- The value of a decimal digit. -/
def digit? (c : Char) : Option Nat :=
  if '0' ≤ c ∧ c ≤ '9' then some (c.toNat - '0'.toNat) else none

/-- The magnitude that digits spell after those of `value`, none of it above `limit`. -/
def magnitude (limit : Nat) (overflow : IntegerError) (value : Nat) :
    List Char → Except IntegerError Nat
  | [] => .ok value
  | c :: rest =>
    match digit? c with
    | none => .error .invalidDigit
    | some digit =>
      if value * 10 + digit ≤ limit then magnitude limit overflow (value * 10 + digit) rest
      else .error overflow

/-- The greatest integer of 32 bits. -/
def greatestInteger : Nat := 2147483647

/-- Reads digits as an integer that is not negative. -/
def positive? (digits : List Char) : Except IntegerError Int :=
  (magnitude greatestInteger .tooLarge 0 digits).map fun value => (value : Int)

/-- Reads digits as an integer that is not positive; there is one more of these. -/
def negative? (digits : List Char) : Except IntegerError Int :=
  (magnitude (greatestInteger + 1) .tooSmall 0 digits).map fun value => -(value : Int)

/-- Reads an integer of 32 bits. -/
def integer? : List Char → Except IntegerError Int
  | [] => .error .empty
  | '-' :: c :: rest => negative? (c :: rest)
  | '+' :: c :: rest => positive? (c :: rest)
  | text => positive? text

end KoreanLox.Text
