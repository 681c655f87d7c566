import BridgeBidding.Condition.Reading
import BridgeBidding.Tree

/-!
# Written rule trees

A rule tree is written as a record that tells its type: a decision with its name, its condition
under `if` and the trees under `yes` and `no`; a bid with its name, its meaning and its call, or
with the message under `raise` if the call fails; or else a dead end, perhaps with a reason.  A
node may have an id, and a `ref` to the id is that very node once more.

Nodes are read from the leaves up, `yes` before `no`, and get their keys in this order.
-/

set_option autoImplicit false
set_option relaxedAutoImplicit false

namespace BridgeBidding

/-- Why a value is no written rule tree. -/
inductive TreeReadingError where
  /-- A node is not a record. -/
  | noRecord (given : Value)
  /-- A node lacks a field. -/
  | noField (name : String)
  /-- No node read so far has the id. -/
  | noNode (id : String)
  /-- A condition cannot be read. -/
  | condition (error : ReadingError)
  /-- A call cannot be read. -/
  | call (error : CallError)

namespace TreeReadingError

/-- The message of the error. -/
def message : TreeReadingError → String
  | noRecord given => "A node is a record, got " ++ given.kind
  | noField name => "The node has no " ++ name
  | noNode id => "No node has the id " ++ id
  | condition error => error.message
  | call error => error.message

end TreeReadingError

namespace RuleTree

/-- The next free key, and the nodes that have an id. -/
structure NodesRead where
  key : Nat := 0
  known : List (String × RuleTree) := []

/-- Reads on from the nodes read so far. -/
abbrev NodeReader := StateT NodesRead (Except TreeReadingError)

/-- The field of a node, which it has to have. -/
def fieldOf (fields : Fields) (name : String) : Except TreeReadingError Value :=
  match Fields.get? fields name with
  | some value => .ok value
  | none => .error (.noField name)

/-- The text that a field of a node holds, or the fallback. -/
def textIn (fields : Fields) (name fallback : String) : String :=
  ((Fields.get? fields name).map Value.shown).getD fallback

/-- The node with the next key, remembered under its id, if it has one. -/
def remember (fields : Fields) (node : Nat → RuleTree) : NodeReader RuleTree :=
  modifyGet fun nodes ↦
    let made := node nodes.key
    (made,
      { key := nodes.key + 1
        known :=
          match Fields.get? fields "id" with
          | some id => Fields.put nodes.known id.shown made
          | none => nodes.known })

/-- The node that was remembered under the id of the fields. -/
def remembered (fields : Fields) : NodeReader RuleTree := do
  let id ← fieldOf fields "id"
  match Fields.get? (← get).known id.shown with
  | some node => return node
  | none => throw (.noNode id.shown)

/-- The bid that the fields write. -/
def readBid (fields : Fields) : NodeReader RuleTree := do
  let name ← fieldOf fields "name"
  let call : CallRule ←
    match Fields.get? fields "raise" with
    | some message => pure (CallRule.failing message.shown)
    | none =>
      let written ← fieldOf fields "call"
      CallRule.fixed <$> (Call.readValue written).mapError TreeReadingError.call
  remember fields fun key ↦ bid key name.shown call (textIn fields "meaning" "")

/-- The dead end that the fields write. -/
def readDeadEnd (fields : Fields) : NodeReader RuleTree :=
  remember fields fun key ↦
    match Fields.get? fields "reason" with
    | none | some .null => deadEnd key none
    | some reason => deadEnd key (some reason.shown)

/-- The tree that a value writes, after other nodes. -/
def readFrom : Value → NodeReader RuleTree
  | .record fields => do
    let kind := (← fieldOf fields "type").shown
    if kind = "ref" then
      remembered fields
    else if kind = "bid" then
      readBid fields
    else if kind = "decision" then
      let name ← fieldOf fields "name"
      let condition ←
        (Condition.read (← fieldOf fields "if")).mapError TreeReadingError.condition
      match _hyes : Fields.get? fields "yes" with
      | none => throw (.noField "yes")
      | some writtenYes => do
        let yes ← readFrom writtenYes
        match _hno : Fields.get? fields "no" with
        | none => throw (.noField "no")
        | some writtenNo => do
          let no ← readFrom writtenNo
          remember fields fun key ↦ decision key name.shown condition yes no
    else
      readDeadEnd fields
  | given => throw (.noRecord given)
  termination_by given => sizeOf given
  decreasing_by all_goals exact Value.sizeOf_lt_record (by assumption)

/-- The tree that a value writes. -/
def read (given : Value) : Except TreeReadingError RuleTree := (readFrom given).run' {}

end RuleTree

end BridgeBidding
