import BridgeBidding.Card
import BridgeBidding.Value.Amount

/-!
# Inferences

An inference tells what a passed condition says about the hand: a kind and its parameters.
`Inference.inverse` is what the failed condition says, where that is again an inference: a lower
bound turns into an upper bound one below it and the other way round, and balanced into unbalanced.
Inferences of any other kind have no inverse.
-/

set_option autoImplicit false
set_option relaxedAutoImplicit false

namespace BridgeBidding

/-- What a condition says about the hand. -/
structure Inference where
  kind : String
  parameters : Fields

/-- Why the parameters of an inference cannot be inverted. -/
inductive InferenceError where
  | missing (parameter : String)
  | notNumber (parameter : String)

namespace Inference

/-- At least so many high card points. -/
def pointsMin (minimum : Value) : Inference := ⟨"hcp-min", [("min", minimum)]⟩

/-- At most so many high card points. -/
def pointsMax (maximum : Value) : Inference := ⟨"hcp-max", [("max", maximum)]⟩

/-- High card points within bounds. -/
def pointsRange (minimum maximum : Value) : Inference :=
  ⟨"hcp-range", [("min", minimum), ("max", maximum)]⟩

/-- At least so many cards in a suit, which is given by its letter. -/
def suitMin (suit minimum : Value) : Inference :=
  ⟨"suit-min", [("suit", suit), ("min", minimum)]⟩

/-- At most so many cards in a suit, which is given by its letter. -/
def suitMax (suit maximum : Value) : Inference :=
  ⟨"suit-max", [("suit", suit), ("max", maximum)]⟩

/-- A balanced shape, or an unbalanced one. -/
def balanced (truth : Bool) : Inference := ⟨"balanced", [("balanced", .bool truth)]⟩

/-- Exactly so many aces. -/
def aceCount (count : Value) : Inference := ⟨"ace-count", [("count", count)]⟩

/-- Exactly so many kings. -/
def kingCount (count : Value) : Inference := ⟨"king-count", [("count", count)]⟩

/-- A longest and a second suit of at least the given lengths. -/
def twoSuited (longest second : Value) : Inference :=
  ⟨"two-suited", [("min_long", longest), ("min_short", second)]⟩

/-- The inference that a record gives by its kind and its parameters. -/
def ofValue (given : Value) : Inference where
  kind := ((given.field? "type").getD .null).shown
  parameters := ((given.field? "params").getD .null).fields

/-- The value of a parameter. -/
def parameter (inference : Inference) (name : String) : Except InferenceError Value :=
  match Fields.get? inference.parameters name with
  | some value => .ok value
  | none => .error (.missing name)

/-- The parameter with a whole number added. -/
def shifted (inference : Inference) (name : String) (change : Int) :
    Except InferenceError Value := do
  match (← inference.parameter name).plus? change with
  | some value => return value
  | none => throw (.notNumber name)

/-- The truth of the parameter that says whether a shape is balanced; it is taken as balanced if
there is no such parameter. -/
def saysBalanced (inference : Inference) : Bool :=
  match Fields.get? inference.parameters "balanced" with
  | some value => !value.isVoid
  | none => true

/-- What the opposite of the inference says, if that is an inference. -/
def inverse (inference : Inference) : Except InferenceError (Option Inference) := do
  if inference.kind = "hcp-min" then
    return some (pointsMax (← inference.shifted "min" (-1)))
  else if inference.kind = "hcp-max" then
    return some (pointsMin (← inference.shifted "max" 1))
  else if inference.kind = "suit-min" then
    return some (suitMax (← inference.parameter "suit") (← inference.shifted "min" (-1)))
  else if inference.kind = "suit-max" then
    return some (suitMin (← inference.parameter "suit") (← inference.shifted "max" 1))
  else if inference.kind = "balanced" then
    return some (balanced !inference.saysBalanced)
  else
    return none

/-- The inverse of an inference that may be absent. -/
def inverse? : Option Inference → Except InferenceError (Option Inference)
  | none => .ok none
  | some inference => inference.inverse

end Inference

/-- The letter of a suit as a parameter. -/
def Suit.parameter (suit : Suit) : Value := .text suit.letter.toString

end BridgeBidding
