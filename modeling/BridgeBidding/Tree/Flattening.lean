import BridgeBidding.Tree.Structure

/-!
# Flattening a rule tree

Every bid of a tree becomes a rule whose conditions are those on the path to it, the opposite of a
condition where the path takes the no branch.  A node must not stand in two places, since the rules
would then no longer tell the places apart.
-/

set_option autoImplicit false
set_option relaxedAutoImplicit false

namespace BridgeBidding

/-- Why a tree cannot be flattened. -/
inductive FlattenError where
  | tree (error : TreeError)
  | condition (error : ConditionError)

namespace FlattenError

/-- The message of the error. -/
def message : FlattenError → String
  | tree error => error.message
  | condition error => error.message

end FlattenError

namespace RuleTree

/-- The name of a node that has one; a dead end is called a fallback. -/
def nodeName (name : String) : String :=
  if name.isEmpty then "fallback" else name

/-- The rule of a bid below the conditions of `path`. -/
def ruleAt (path : List Condition) (node : BidNode) : Except FlattenError Rule :=
  (Rule.make node.name (path.filter Condition.isAuction)
    (path.filter fun condition ↦ !condition.isAuction) node.call node.meaning).mapError
      FlattenError.condition

/-- The rules of the bids below `path`, having seen the nodes with the keys `seen`; with the keys of
all nodes seen by then. -/
def flattenFrom (path : List Condition) (seen : List Nat) :
    RuleTree → Except FlattenError (List Rule × List Nat)
  | decision key name condition yes no =>
    if seen.contains key then
      .error (.tree (.sharedNode (nodeName name)))
    else do
      let (yesRules, seen) ← yes.flattenFrom (path ++ [condition]) (key :: seen)
      let opposite ← condition.negate.mapError FlattenError.condition
      let (noRules, seen) ← no.flattenFrom (path ++ [opposite]) seen
      return (yesRules ++ noRules, seen)
  | bid key name call meaning =>
    if seen.contains key then
      .error (.tree (.sharedNode (nodeName name)))
    else do
      let rule ← ruleAt path { key, name, call, meaning }
      return ([rule], key :: seen)
  | deadEnd key _ =>
    if seen.contains key then
      .error (.tree (.sharedNode "fallback"))
    else
      .ok ([], key :: seen)

/-- One rule for every bid of the tree, in order. -/
def flatten (tree : RuleTree) : Except FlattenError (List Rule) := do
  return (← tree.flattenFrom [] []).1

end RuleTree

end BridgeBidding
