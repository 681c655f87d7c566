/-!
# Floating point numbers without rounding

A floating point number that is finite is a fraction whose denominator is a power of two.  `Binary`
is such a fraction, so that the whole numbers around it, and the one that it may be equal to, are
worked out exactly.
-/

set_option autoImplicit false
set_option relaxedAutoImplicit false

namespace BridgeBidding

/-- The number `significand · 2 ^ exponent` with a sign. -/
structure Binary where
  isNegative : Bool
  significand : Nat
  exponent : Int

namespace Binary

/-- What the bits of a finite number stand for: a sign, eleven bits of scale, and fifty-two bits of
the significand, which starts with one more bit unless the scale is the least. -/
def ofFloat (number : Float) : Binary :=
  let bits := number.toBits.toNat
  let isNegative := decide (0x8000000000000000 ≤ bits)
  let scale := bits / 0x10000000000000 % 0x800
  let fraction := bits % 0x10000000000000
  if scale = 0 then
    { isNegative, significand := fraction, exponent := -1074 }
  else
    { isNegative, significand := 0x10000000000000 + fraction, exponent := (scale : Int) - 1075 }

/-- The numerator of the fraction without its sign. -/
def size (number : Binary) : Nat := number.significand * Nat.pow 2 number.exponent.toNat

/-- The numerator of the fraction. -/
def numerator (number : Binary) : Int :=
  if number.isNegative then -number.size else number.size

/-- The denominator of the fraction. -/
def denominator (number : Binary) : Nat := Nat.pow 2 (-number.exponent).toNat

/-- The greatest whole number that is not above the fraction. -/
def floor (number : Binary) : Int := number.numerator.fdiv number.denominator

/-- The least whole number that is not below the fraction. -/
def ceiling (number : Binary) : Int := -(-number.numerator).fdiv number.denominator

/-- The whole number that the fraction is equal to. -/
def whole? (number : Binary) : Option Int :=
  if number.floor = number.ceiling then some number.floor else none

end Binary

end BridgeBidding
