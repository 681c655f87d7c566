/-!
# Numerals

A numeral is a sign, digits with a point among them, and a power of ten after the letter `e`, each
but the digits optional.  Without a point and a power it stands for a whole number, which
`Numeral.integer` reads; `Numeral.real` reads any numeral as the nearest floating point number.
-/

set_option autoImplicit false
set_option relaxedAutoImplicit false

namespace BridgeBidding.Numeral

/-- The number that decimal digits stand for. -/
def natural (digits : List Char) : Nat :=
  digits.foldl (fun number digit ↦ 10 * number + (digit.toNat - '0'.toNat)) 0

/-- The number that digits after an optional sign stand for. -/
def integer : List Char → Int
  | '-' :: digits => -natural digits
  | '+' :: digits => natural digits
  | digits => natural digits

/-- The character divides the digits of a numeral from its power of ten. -/
def isPower (character : Char) : Bool := character == 'e' || character == 'E'

/-- The floating point number nearest to what a numeral without a sign stands for. -/
def size (numeral : List Char) : Float :=
  let digits := numeral.takeWhile fun character ↦ !isPower character
  let power := (numeral.dropWhile fun character ↦ !isPower character).drop 1
  let fraction := (digits.dropWhile fun character ↦ character != '.').drop 1
  let exponent := integer power - fraction.length
  Float.ofScientific (natural (digits.filter fun character ↦ character != '.'))
    (decide (exponent < 0)) exponent.natAbs

/-- The floating point number nearest to what a numeral stands for. -/
def real : List Char → Float
  | '-' :: numeral => -size numeral
  | numeral => size numeral

end BridgeBidding.Numeral
