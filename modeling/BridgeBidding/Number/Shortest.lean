import BridgeBidding.Number.Binary

/-!
# The shortest text of a number

A floating point number is written with the fewest digits that read back as the same number; of
several such digits those nearest to the number are taken, and of two that are equally near the even
ones.  `Decimal.shortest` finds the digits and `Decimal.text` lays them out.
-/

set_option autoImplicit false
set_option relaxedAutoImplicit false

namespace BridgeBidding

/-- The number `digits · 10 ^ exponent`. -/
structure Decimal where
  digits : Nat
  exponent : Int

namespace Decimal

/-- The floating point number nearest to the decimal. -/
def toFloat (decimal : Decimal) : Float :=
  Float.ofScientific decimal.digits (decide (decimal.exponent < 0)) decimal.exponent.natAbs

/-- How many digits a number has. -/
def width (number : Nat) : Nat := (Nat.toDigits 10 number).length

/-- The fraction is at least as large as the power of ten. -/
def reaches (numerator denominator : Nat) (power : Int) : Bool :=
  decide (denominator * Nat.pow 10 power.toNat ≤ numerator * Nat.pow 10 (-power).toNat)

/-- The greatest power of ten that the fraction reaches. -/
def leadingPower (numerator denominator : Nat) : Int :=
  let guess : Int := (width numerator : Int) - width denominator
  if reaches numerator denominator guess then guess else guess - 1

/-- The decimals with the exponent that lie next to the fraction, the nearer one first. -/
def neighbours (numerator denominator : Nat) (exponent : Int) : List Decimal :=
  let scaled := numerator * Nat.pow 10 (-exponent).toNat
  let unit := denominator * Nat.pow 10 exponent.toNat
  let below := scaled / unit
  let excess := 2 * (scaled % unit)
  if excess < unit ∨ excess = unit ∧ below % 2 = 0 then
    [⟨below, exponent⟩, ⟨below + 1, exponent⟩]
  else
    [⟨below + 1, exponent⟩, ⟨below, exponent⟩]

/-- All digits of the number. -/
def exact (number : Binary) : Decimal where
  digits := number.size * Nat.pow 5 (-number.exponent).toNat
  exponent := min number.exponent 0

/-- The decimal with the fewest digits that reads back as the positive number. -/
def shortest (number : Float) : Decimal :=
  let binary := Binary.ofFloat number
  let leading := leadingPower binary.size binary.denominator
  let found := (List.range 17).findSome? fun (more : Nat) ↦
    (neighbours binary.size binary.denominator (leading - more)).find? fun decimal ↦
      decimal.toFloat == number
  found.getD (exact binary)

/-- An exponent with its sign and two digits or more. -/
def exponentText (exponent : Int) : String :=
  let sign := if exponent < 0 then "-" else "+"
  let padding := if exponent.natAbs < 10 then "0" else ""
  sign ++ padding ++ toString exponent.natAbs

/-- The digits with the point after the first `point` of them.  It is written where it stands if
that is not far from the digits; else it follows the first digit, and a power of ten moves it. -/
def layout (digits : List Char) (point : Int) : String :=
  let zeros (count : Int) : List Char := List.replicate count.toNat '0'
  if point ≤ -4 ∨ 16 < point then
    let rest := if digits.length = 1 then [] else '.' :: digits.tail
    String.ofList (digits.take 1 ++ rest) ++ "e" ++ exponentText (point - 1)
  else if point ≤ 0 then
    String.ofList (['0', '.'] ++ zeros (-point) ++ digits)
  else if digits.length ≤ point then
    String.ofList (digits ++ zeros (point - digits.length) ++ ['.', '0'])
  else
    String.ofList (digits.take point.toNat ++ ['.'] ++ digits.drop point.toNat)

/-- The text of a decimal that is not zero. -/
def text (decimal : Decimal) : String :=
  let digits := Nat.toDigits 10 decimal.digits
  let significant := (digits.reverse.dropWhile fun digit ↦ digit == '0').reverse
  layout significant (decimal.exponent + digits.length)

end Decimal

/-- The shortest text of a floating point number, with the given texts for one that is undefined
and one that is infinite. -/
def shortestText (undefined infinite : String) (number : Float) : String :=
  let sign := if (Binary.ofFloat number).isNegative then "-" else ""
  let size := number.abs
  if number.isNaN then
    undefined
  else if number.isInf then
    sign ++ infinite
  else if size == 0 then
    sign ++ "0.0"
  else
    sign ++ (Decimal.shortest size).text

end BridgeBidding
