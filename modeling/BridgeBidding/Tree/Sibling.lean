import BridgeBidding.Tree.Structure

/-!
# Sibling bids

Once all decisions about the auction are taken, the bids of the remaining tree compete for the hand.
`RuleTree.siblings` lists those other than the one the hand reached, each with the conditions on its
path that turned out the other way.
-/

set_option autoImplicit false
set_option relaxedAutoImplicit false

namespace BridgeBidding

/-- A condition on the way to a sibling, whether it would have to pass, and whether it passed. -/
structure SiblingCondition where
  name : String
  description : String
  required : Bool
  actual : Bool

/-- Another bid with its call and the conditions that turned out the other way. -/
structure Sibling where
  name : String
  meaning : String
  call : Call
  failed : List SiblingCondition

namespace RuleTree

/-- The node where the decisions about the auction end, taken as the context says. -/
def handRoot (context : Context) : RuleTree → RuleTree
  | decision key name condition yes no =>
    if condition.isAuction then
      if (condition.verdict context).passed then yes.handRoot context else no.handRoot context
    else
      decision key name condition yes no
  | tree => tree

/-- The conditions of a path that did not turn out as it requires. -/
def failedOn (context : Context) (path : List (Condition × Bool)) : List SiblingCondition :=
  path.filterMap fun (condition, required) ↦
    let verdict := condition.verdict context
    if verdict.passed = required then
      none
    else
      some { name := condition.name, description := verdict.description, required,
             actual := verdict.passed }

/-- The siblings below `path`, leaving out the node with the key `matched?` and bids whose call
fails. -/
def siblingsFrom (context : Context) (matched? : Option Nat) (path : List (Condition × Bool)) :
    RuleTree → Except TreeError (List Sibling)
  | decision _ name condition yes no =>
    if condition.isAuction then
      .error (.auctionAmongHand condition.name name)
    else do
      let yesSiblings ← yes.siblingsFrom context matched? (path ++ [(condition, true)])
      let noSiblings ← no.siblingsFrom context matched? (path ++ [(condition, false)])
      return yesSiblings ++ noSiblings
  | bid key name call meaning =>
    if matched? = some key then
      .ok []
    else
      match call context with
      | .error _ => .ok []
      | .ok call => .ok [{ name, meaning, call, failed := failedOn context path }]
  | deadEnd .. => .ok []

/-- The bids that compete for the hand with the matched one; none if no decision about the hand is
left. -/
def siblings (context : Context) (matched? : Option Nat) (tree : RuleTree) :
    Except TreeError (List Sibling) :=
  match tree.handRoot context with
  | decision key name condition yes no =>
    (decision key name condition yes no).siblingsFrom context matched? []
  | _ => .ok []

end RuleTree

end BridgeBidding
