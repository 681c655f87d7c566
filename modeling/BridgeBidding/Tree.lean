import BridgeBidding.Rule

/-!
# Rule trees

A rule tree decides on a call: a decision asks a condition and goes on down its `yes` or its `no`
branch, a bid works out a call, and a dead end has none, perhaps with a reason.

Every node has a key.  Two occurrences with one key are one node that stands in two places, which a
well-formed tree does not have; `RuleTree.numbered` gives every node of a tree a key of its own.
-/

set_option autoImplicit false
set_option relaxedAutoImplicit false

namespace BridgeBidding

/-- A node of a rule tree with all that lies below it. -/
inductive RuleTree where
  | decision (key : Nat) (name : String) (condition : Condition) (yes no : RuleTree)
  | bid (key : Nat) (name : String) (call : CallRule) (meaning : String)
  | deadEnd (key : Nat) (reason : Option String)

/-- A bid of a rule tree. -/
structure BidNode where
  key : Nat
  name : String
  call : CallRule
  meaning : String

namespace RuleTree

/-- The key of the node. -/
def key : RuleTree → Nat
  | decision key .. => key
  | bid key .. => key
  | deadEnd key _ => key

/-- The keys of the node and of all nodes below it, each before those below it. -/
def keys : RuleTree → List Nat
  | decision key _ _ yes no => key :: (yes.keys ++ no.keys)
  | bid key .. => [key]
  | deadEnd key _ => [key]

/-- The bids of the tree, those of yes branches before those of no branches. -/
def bids : RuleTree → List BidNode
  | decision _ _ _ yes no => yes.bids ++ no.bids
  | bid key name call meaning => [{ key, name, call, meaning }]
  | deadEnd .. => []

/-- The node as messages call it. -/
def label : RuleTree → String
  | decision _ name .. => name
  | bid _ name .. => name
  | deadEnd _ reason => "fallback(" ++ reason.getD "" ++ ")"

/-- The number of nodes. -/
def size : RuleTree → Nat
  | decision _ _ _ yes no => yes.size + no.size + 1
  | bid .. => 1
  | deadEnd .. => 1

/-- The tree with the keys of its nodes counted up from `first`, each node before those below it. -/
def numberedFrom (first : Nat) : RuleTree → RuleTree
  | decision _ name condition yes no =>
    decision first name condition (yes.numberedFrom (first + 1))
      (no.numberedFrom (first + 1 + yes.size))
  | bid _ name call meaning => bid first name call meaning
  | deadEnd _ reason => deadEnd first reason

/-- The tree with a key of its own for every node. -/
def numbered (tree : RuleTree) : RuleTree := tree.numberedFrom 0

/-! ### Outlines

Trees are laid out with these, and then numbered. -/

/-- A decision that has no key of its own yet. -/
def ask (name : String) (condition : Condition) (yes no : RuleTree) : RuleTree :=
  decision 0 name condition yes no

/-- A bid of a fixed call that has no key of its own yet. -/
def say (name : String) (call : Call) (meaning : String) : RuleTree :=
  bid 0 name (CallRule.fixed call) meaning

/-- A bid of a call yet to be worked out that has no key of its own yet. -/
def workOut (name : String) (call : CallRule) (meaning : String) : RuleTree :=
  bid 0 name call meaning

/-- A dead end that has no key of its own yet. -/
def stop (reason : Option String) : RuleTree :=
  deadEnd 0 reason

theorem keys_numberedFrom (tree : RuleTree) (first : Nat) :
    (tree.numberedFrom first).keys = List.range' first tree.size := by
  induction tree generalizing first with
  | decision key name condition yes no ihyes ihno =>
    simp only [numberedFrom, keys, size, ihyes, ihno]
    rw [List.range'_succ, ← List.range'_append_1]
  | bid key name call meaning => simp [numberedFrom, keys, size]
  | deadEnd key reason => simp [numberedFrom, keys, size]

/-- No two nodes of a numbered tree have one key. -/
theorem nodup_keys_numbered (tree : RuleTree) : tree.numbered.keys.Nodup := by
  rw [numbered, keys_numberedFrom]
  exact List.nodup_range'

end RuleTree

end BridgeBidding
