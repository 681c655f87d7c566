import BridgeBidding.Value

/-!
# Values as amounts

A value that is a number, or a truth value, which counts as zero or one, is an amount: it can be
compared with a whole number and be raised by one.  The comparisons are exact, also with a floating
point number.
-/

set_option autoImplicit false
set_option relaxedAutoImplicit false

namespace BridgeBidding

/-- A number that a whole number can be compared with. -/
inductive Amount where
  | whole (number : Int)
  | real (number : Float)

namespace Amount

/-- The fraction that a floating point number is, unless it is infinite or undefined. -/
def finite? (number : Float) : Option Binary :=
  if number.isFinite then some (.ofFloat number) else none

/-- The least whole number that is not below the amount. -/
def ceiling? : Amount → Option Int
  | whole number => some number
  | real number => (finite? number).map Binary.ceiling

/-- The greatest whole number that is not above the amount. -/
def floor? : Amount → Option Int
  | whole number => some number
  | real number => (finite? number).map Binary.floor

/-- The amount is not above the whole number. -/
def isAtMost (held : Int) : Amount → Bool
  | whole number => decide (number ≤ held)
  | real number =>
    match finite? number with
    | some size => decide (size.ceiling ≤ held)
    | none => decide (number < 0)

/-- The amount is not below the whole number. -/
def isAtLeast (held : Int) : Amount → Bool
  | whole number => decide (held ≤ number)
  | real number =>
    match finite? number with
    | some size => decide (held ≤ size.floor)
    | none => decide (0 < number)

/-- The amount is above the whole number. -/
def isAbove (held : Int) : Amount → Bool
  | whole number => decide (held < number)
  | real number =>
    match finite? number with
    | some size => decide (held < size.ceiling)
    | none => decide (0 < number)

/-- The whole number that the amount is equal to. -/
def whole? : Amount → Option Int
  | whole number => some number
  | real number => (finite? number).bind Binary.whole?

/-- The amount with a whole number added. -/
def plus (change : Int) : Amount → Value
  | whole number => .int (number + change)
  | real number => .real (number + Float.ofInt change)

end Amount

namespace Value

/-- The amount that a value is. -/
def amount? : Value → Option Amount
  | int number => some (.whole number)
  | bool truth => some (.whole (if truth then 1 else 0))
  | real number => some (.real number)
  | _ => none

/-- The whole number that a value is equal to. -/
def whole? (value : Value) : Option Int := value.amount?.bind Amount.whole?

/-- The value with a whole number added, if it is an amount. -/
def plus? (value : Value) (change : Int) : Option Value := value.amount?.map (Amount.plus change)

@[simp] theorem amount?_int (number : Int) : (int number).amount? = some (.whole number) := rfl

@[simp] theorem whole?_int (number : Int) : (int number).whole? = some number := rfl

@[simp] theorem plus?_int (number change : Int) :
    (int number).plus? change = some (int (number + change)) := rfl

end Value

end BridgeBidding
