import KoreanLox.Number.Shortest

/-!
# The text of a number

Numbers are written with their shortest decimal. A layout decides which numbers are written
positionally, how whole numbers end and what infinity is called. The language has three: the
plain one of tokens, trees and index errors, the one of printed values, and the one of token
listings.
-/

namespace KoreanLox.Number

/-- How the digits of a number are laid out. -/
structure Layout where
  /-- The least and the greatest power of ten of a leading digit that is written positionally;
  without bounds every number is. -/
  positional : Option (Int × Int)
  /-- What follows the digits of a whole number. -/
  wholeEnding : String
  /-- The name of infinity. -/
  infinity : String

/-- Tokens, trees and index errors: always positional, with no ending after whole numbers. -/
def Layout.plain : Layout := ⟨none, "", "inf"⟩

/-- Printed values: as plain, with infinity written out. -/
def Layout.printed : Layout := ⟨none, "", "Infinity"⟩

/-- Token listings: whole numbers end in `.0`, and from `1e16` on and below `1e-4` a power of ten
is written. -/
def Layout.listing : Layout := ⟨some (-4, 15), ".0", "inf"⟩

/-- A run of zeros. -/
def zeros (count : Nat) : List Char := List.replicate count '0'

/-- The digits of a decimal. -/
def Decimal.text (decimal : Decimal) : List Char := Nat.toDigits 10 decimal.digits

/-- The power of ten of the leading digit. -/
def Decimal.magnitude (decimal : Decimal) : Int :=
  decimal.exponent + decimal.text.length - 1

/-- All digits around the decimal point, with zeros where the decimal has none. -/
def Decimal.positional (wholeEnding : String) (decimal : Decimal) : List Char :=
  let digits := decimal.text
  if 0 ≤ decimal.exponent then
    digits ++ zeros decimal.exponent.toNat ++ wholeEnding.toList
  else
    let places := (-decimal.exponent).toNat
    if places < digits.length then
      digits.take (digits.length - places) ++ '.' :: digits.drop (digits.length - places)
    else '0' :: '.' :: zeros (places - digits.length) ++ digits

/-- The leading digit, the other digits as its fraction, and the power of ten. -/
def Decimal.scientific (decimal : Decimal) : List Char :=
  let exponent := 'e' :: (toString decimal.magnitude).toList
  match decimal.text with
  | leading :: next :: rest => leading :: '.' :: next :: rest ++ exponent
  | digits => digits ++ exponent

/-- Lays a decimal out. -/
def Layout.decimal (layout : Layout) (decimal : Decimal) : List Char :=
  match layout.positional with
  | none => decimal.positional layout.wholeEnding
  | some (least, greatest) =>
    if least ≤ decimal.magnitude ∧ decimal.magnitude ≤ greatest then
      decimal.positional layout.wholeEnding
    else decimal.scientific

/-- A minus sign in front of what is negative. -/
def signed (negative : Bool) (text : List Char) : List Char :=
  if negative then '-' :: text else text

/-- The text of a number taken apart. -/
def Layout.parts (layout : Layout) : Parts → List Char
  | .undefined => "NaN".toList
  | .infinite negative => signed negative layout.infinity.toList
  | .finite negative mantissa exponent =>
    signed negative
      (if mantissa = 0 then '0' :: layout.wholeEnding.toList
       else layout.decimal (shortest mantissa exponent))

/-- The text of a number in a layout. -/
def Layout.text (layout : Layout) (x : Float) : String :=
  String.ofList (layout.parts (Number.parts x))

/-- The plain text of a number. -/
def plain (x : Float) : String := Layout.plain.text x

/-- The text of a number as a printed value. -/
def printed (x : Float) : String := Layout.printed.text x

/-- The text of a number in a token listing. -/
def listing (x : Float) : String := Layout.listing.text x

end KoreanLox.Number
