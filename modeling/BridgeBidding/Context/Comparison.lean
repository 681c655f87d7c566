import BridgeBidding.Context.Failure
import BridgeBidding.Value.Amount

/-!
# Comparing with what is asked for

A question may ask for any value.  What is held, points or cards or honours, is a whole number, and
comparing the two fails if what is asked for is no amount; whether they are equal can always be
said.
-/

set_option autoImplicit false
set_option relaxedAutoImplicit false

namespace BridgeBidding.Comparison

/-- At least the minimum is held. -/
def atLeast (held : Int) (minimum : Value) : Except Failure Bool :=
  match minimum.amount? with
  | some amount => .ok (amount.isAtMost held)
  | none => .error (.notOrdered ">=" (Value.int held).kind minimum.kind)

/-- At most the maximum is held. -/
def atMost (held : Int) (maximum : Value) : Except Failure Bool :=
  match maximum.amount? with
  | some amount => .ok (amount.isAtLeast held)
  | none => .error (.notOrdered "<=" (Value.int held).kind maximum.kind)

/-- Less than the threshold is held. -/
def below (held : Int) (threshold : Value) : Except Failure Bool :=
  match threshold.amount? with
  | some amount => .ok (amount.isAbove held)
  | none => .error (.notOrdered "<" (Value.int held).kind threshold.kind)

/-- What is held lies between both bounds, of which the lower one is looked at first. -/
def within (held : Int) (minimum maximum : Value) : Except Failure Bool :=
  match minimum.amount? with
  | some amount => if amount.isAtMost held then atMost held maximum else .ok false
  | none => .error (.notOrdered "<=" minimum.kind (Value.int held).kind)

/-- Exactly the value is held. -/
def exactly (held : Int) (count : Value) : Bool := decide (count.whole? = some held)

/-- What is held is one of the items of a list; no name in a record is a number. -/
def among (held : Int) : Value → Except Failure Bool
  | .list counts => .ok (counts.any (exactly held))
  | .text _ => .error .soughtInText
  | _ => .ok false

@[simp] theorem atLeast_int (held minimum : Int) :
    atLeast held (.int minimum) = .ok (decide (minimum ≤ held)) := rfl

@[simp] theorem atMost_int (held maximum : Int) :
    atMost held (.int maximum) = .ok (decide (held ≤ maximum)) := rfl

@[simp] theorem below_int (held threshold : Int) :
    below held (.int threshold) = .ok (decide (held < threshold)) := rfl

@[simp] theorem within_int (held minimum maximum : Int) :
    within held (.int minimum) (.int maximum) =
      .ok (decide (minimum ≤ held) && decide (held ≤ maximum)) := by
  by_cases h : minimum ≤ held <;> simp [within, Amount.isAtMost, h]

@[simp] theorem exactly_int (held count : Int) :
    exactly held (.int count) = decide (count = held) := by
  simp [exactly]

end BridgeBidding.Comparison
