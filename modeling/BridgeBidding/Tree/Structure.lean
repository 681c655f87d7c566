import BridgeBidding.Tree

/-!
# Well-formed rule trees

A rule tree is well formed when no node stands in two places and, on every path from the root, all
decisions about the auction come before all decisions about the hand.  `RuleTree.examine` walks down
the tree, yes branches first, and reports the first offence.
-/

set_option autoImplicit false
set_option relaxedAutoImplicit false

namespace BridgeBidding

/-- What is wrong with a rule tree. -/
inductive TreeError where
  | reachedTwice (label : String)
  | auctionBelowHand (node hand : String)
  | sharedNode (name : String)
  | auctionAmongHand (condition node : String)
  | noRules (convention : String)

namespace TreeError

/-- The message of the error. -/
def message : TreeError → String
  | reachedTwice label => "Rule node '" ++ label ++ "' is reachable from more than one position"
  | auctionBelowHand node hand =>
    "Auction condition at '" ++ node ++ "' appears below hand condition at '" ++ hand ++ "'"
  | sharedNode name =>
    "Rule node '" ++ name ++ "' is shared between branches; flattening needs a strict tree"
  | auctionAmongHand condition node =>
    "Auction condition '" ++ condition ++ "' at '" ++ node ++ "' found inside hand subtree"
  | noRules convention =>
    "Convention \"" ++ convention ++ "\" has bids in its tree but no flattened rules"

/-- The node at fault, as the error names it. -/
def nodeName : TreeError → String
  | reachedTwice label => label
  | auctionBelowHand node _ => node
  | sharedNode name => name
  | auctionAmongHand _ node => node
  | noRules convention => convention

end TreeError

namespace RuleTree

/-- Walks down the tree below the decision about the hand `hand?`, if there is one above, having
seen the nodes with the keys `seen`, and returns the keys of all nodes seen by then. -/
def examineFrom (hand? : Option String) (seen : List Nat) : RuleTree → Except TreeError (List Nat)
  | decision key name condition yes no =>
    if seen.contains key then
      .error (.reachedTwice name)
    else
      match condition.isAuction, hand? with
      | true, some hand => .error (.auctionBelowHand name hand)
      | true, none => do
        let seen ← yes.examineFrom none (key :: seen)
        no.examineFrom none seen
      | false, hand? => do
        let hand? := hand?.or (some name)
        let seen ← yes.examineFrom hand? (key :: seen)
        no.examineFrom hand? seen
  | bid key name _ _ =>
    if seen.contains key then .error (.reachedTwice name) else .ok (key :: seen)
  | deadEnd key reason =>
    if seen.contains key then
      .error (.reachedTwice (deadEnd key reason).label)
    else
      .ok (key :: seen)

/-- Reports the first offence against the rules for trees. -/
def examine (tree : RuleTree) : Except TreeError Unit := do
  let _ ← tree.examineFrom none []

end RuleTree

end BridgeBidding
