import BridgeBidding.Condition.Report

/-!
# Rules

A rule is a call together with the conditions that must all hold for it: those about the auction
first, then those about the hand.  A condition that fails makes the rule not match.
-/

set_option autoImplicit false
set_option relaxedAutoImplicit false

namespace BridgeBidding

/-- How a bid works out its call. -/
abbrev CallRule := Context → Except Failure Call

/-- The call that is the same in every context. -/
def CallRule.fixed (call : Call) : CallRule := fun _ ↦ .ok call

/-- The call that always fails to be worked out. -/
def CallRule.failing (message : String) : CallRule := fun _ ↦ .error (.stated message)

/-- A call and the conditions for it. -/
structure Rule where
  name : String
  auctionConditions : List Condition
  handConditions : List Condition
  call : CallRule
  explanation : String

namespace Rule

/-- The rule of the conditions, of which those about the auction must carry no inference. -/
def make (name : String) (auctionConditions handConditions : List Condition) (call : CallRule)
    (explanation : String) : Except ConditionError Rule :=
  match auctionConditions.findSome? fun condition ↦
      condition.inference?.map fun inference ↦ (condition.name, inference) with
  | some (condition, inference) => .error (.auctionInference condition name inference)
  | none => .ok { name, auctionConditions, handConditions, call, explanation }

/-- All conditions in the order in which they are asked. -/
def conditions (rule : Rule) : List Condition :=
  rule.auctionConditions ++ rule.handConditions

/-- Every condition holds; one that fails does not. -/
def matchesIn (rule : Rule) (context : Context) : Bool :=
  rule.conditions.all fun condition ↦
    match condition.holds context with
    | .ok passed => passed
    | .error _ => false

/-- The reports on all conditions. -/
def reports (rule : Rule) (context : Context) : List Report :=
  rule.conditions.map (Condition.settledReport context)

end Rule

end BridgeBidding
