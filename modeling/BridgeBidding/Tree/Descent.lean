import BridgeBidding.Tree

/-!
# Descending a rule tree

A descent follows a tree from its root as the conditions say, a decision whose condition fails
counting as not passed, and ends at a bid whose call is worked out, at a bid whose call fails, or at
a dead end.  It records a `Step` for every decision on its way.

`Descent.forkPoint?` finds the last decision whose other branch also holds bids.
-/

set_option autoImplicit false
set_option relaxedAutoImplicit false

namespace BridgeBidding

/-- A decision on the way down: its key and name, the verdict, its depth, the decision above it, and
the branches taken and not taken. -/
structure Step where
  key : Nat
  name : String
  condition : Condition
  verdict : Verdict
  depth : Nat
  parent? : Option String
  taken : RuleTree
  untaken : RuleTree

/-- Where a descent ends. -/
inductive Ending where
  | bid (node : BidNode) (call : Call)
  | failedBid (node : BidNode) (failure : Failure)
  | deadEnd (reason : Option String)

/-- The decisions on the way down and where it ends. -/
structure Descent where
  steps : List Step
  ending : Ending

/-- The last decision on the way whose other branch holds bids, and their names. -/
structure ForkPoint where
  step : Step
  alternatives : List String

namespace Step

/-- The decision passed. -/
def passed (step : Step) : Bool := step.verdict.passed

/-- The node of the decision. -/
def node (step : Step) : RuleTree :=
  if step.passed then
    .decision step.key step.name step.condition step.taken step.untaken
  else
    .decision step.key step.name step.condition step.untaken step.taken

end Step

namespace Ending

/-- The bid reached whose call was worked out. -/
def node? : Ending → Option BidNode
  | bid node _ => some node
  | _ => none

/-- The call worked out. -/
def call? : Ending → Option Call
  | bid _ call => some call
  | _ => none

/-- Why there is no call. -/
def reason? : Ending → Option String
  | bid _ _ => none
  | failedBid node failure => some ("Bid '" ++ node.name ++ "' failed: " ++ failure.message)
  | deadEnd reason => reason

end Ending

namespace RuleTree

/-- The ending at a bid. -/
def endAt (context : Context) (node : BidNode) : Ending :=
  match node.call context with
  | .ok call => .bid node call
  | .error failure => .failedBid node failure

/-- The descent from a node at a depth, below the decision `parent?`. -/
def descendFrom (context : Context) (depth : Nat) (parent? : Option String) : RuleTree → Descent
  | decision key name condition yes no =>
    let verdict := condition.verdict context
    let below :=
      if verdict.passed then
        yes.descendFrom context (depth + 1) (some name)
      else
        no.descendFrom context (depth + 1) (some name)
    { steps :=
        { key
          name
          condition
          verdict
          depth
          parent?
          taken := if verdict.passed then yes else no
          untaken := if verdict.passed then no else yes } :: below.steps
      ending := below.ending }
  | bid key name call meaning =>
    { steps := [], ending := endAt context { key, name, call, meaning } }
  | deadEnd _ reason => { steps := [], ending := .deadEnd reason }

/-- The descent from the root. -/
def descend (context : Context) (tree : RuleTree) : Descent :=
  tree.descendFrom context 0 none

end RuleTree

namespace Descent

/-- The decisions that passed. -/
def passedSteps (descent : Descent) : List Step :=
  descent.steps.filter Step.passed

/-- The decisions that did not pass. -/
def failedSteps (descent : Descent) : List Step :=
  descent.steps.filter fun step ↦ !step.passed

/-- The fork point of a step: its other branch holds bids. -/
def forkAt? (step : Step) : Option ForkPoint :=
  match step.untaken.bids with
  | [] => none
  | bids => some { step, alternatives := bids.map BidNode.name }

/-- The last decision whose other branch holds bids. -/
def forkPoint? (descent : Descent) : Option ForkPoint :=
  descent.steps.reverse.findSome? forkAt?

end Descent

end BridgeBidding
