import BridgeBidding.Bid

/-!
# Calls

A call is a pass, a bid, a double or a redouble.
-/

set_option autoImplicit false
set_option relaxedAutoImplicit false

namespace BridgeBidding

/-- What a player may say when it is their turn. -/
inductive Call where
  | pass
  | bid (made : Bid)
  | double
  | redouble
  deriving DecidableEq, Repr

namespace Call

/-- The call that bids a level in a strain. -/
abbrev of (level : Level) (strain : Strain) : Call := bid { level, strain }

/-- The text that stands for the call. -/
def text : Call → String
  | pass => "P"
  | bid made => made.text
  | double => "X"
  | redouble => "XX"

/-- The bid that the call makes, if it makes one. -/
def bid? : Call → Option Bid
  | bid made => some made
  | _ => none

def isPass : Call → Bool
  | pass => true
  | _ => false

/-- Every call, in the order in which they are offered. -/
def all : List Call :=
  pass :: Bid.all.map bid ++ [double, redouble]

end Call

end BridgeBidding
