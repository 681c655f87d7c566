import BridgeBidding.Trainer
import BridgeBidding.Tree.Sibling

/-!
# Grading calls

`Trainer.expected?` is the call that a convention makes in a drill, and `Trainer.check` grades what
was said against it: the expected call is a pass if the convention makes none, and the grade comes
with the decisions that led to the expected call and with the bids that compete with it.
-/

set_option autoImplicit false
set_option relaxedAutoImplicit false

namespace BridgeBidding

/-- A call made in a drill, the suggestion it is compared with, the descent that led there, and the
bids that compete. -/
structure Grade where
  call : Call
  expected? : Option Suggestion
  descent : Descent
  siblings : List Sibling

namespace Grade

/-- The call that was expected, a pass if the convention makes none. -/
def expectedCall (grade : Grade) : Call :=
  match grade.expected? with
  | some suggestion => suggestion.call
  | none => .pass

/-- The call made is the one expected. -/
def isCorrect (grade : Grade) : Bool := decide (grade.call = grade.expectedCall)

/-- Why the expected call was expected. -/
def explanation (grade : Grade) : String :=
  match grade.expected? with
  | some suggestion => suggestion.explanation
  | none => "No convention bid applies - pass"

end Grade

namespace Drill

/-- The drill's settings say that illegal calls are skipped, as they do unless they say
otherwise. -/
def skipsIllegal (drill : Drill) : Except TrainerError Bool :=
  match drill.settings with
  | .record sections =>
    match (Fields.get? sections "evaluation").getD (.record []) with
    | .record values =>
      .ok !((Fields.get? values "skip_illegal_calls").getD (.bool true)).isVoid
    | other => .error (.settingsNotRecord other)
  | other => .error (.settingsNotRecord other)

end Drill

namespace Trainer

/-- What the seat that practises knows. -/
def contextOf (drill : Drill) : Except TrainerError Context :=
  drill.context.mapError TrainerError.deal

/-- The convention's call in a context of the drill. -/
def expectedIn (convention : Convention) (drill : Drill) (context : Context) :
    Except TrainerError (Option Suggestion) := do
  let skipIllegal ← drill.skipsIllegal
  (convention.suggest? context skipIllegal).mapError TrainerError.failure

/-- The call that the drill's convention makes. -/
def expected? (trainer : Trainer) (drill : Drill) : Except TrainerError (Option Suggestion) := do
  let convention ← trainer.convention drill.convention
  let context ← contextOf drill
  expectedIn convention drill context

/-- The grade of a call, which has to be legal for the seat that practises. -/
def grade (trainer : Trainer) (drill : Drill) (call : Call) : Except TrainerError Grade := do
  if drill.auction.permits call drill.seat then
    let convention ← trainer.convention drill.convention
    let context ← contextOf drill
    let expected? ← expectedIn convention drill context
    let descent := match expected? with
      | some suggestion => suggestion.descent
      | none => convention.tree.descend context
    let siblings ← (convention.tree.siblings context
      (descent.ending.node?.map BidNode.key)).mapError TrainerError.tree
    return { call, expected?, descent, siblings }
  else
    .error (.play (.illegal drill.auction { seat := drill.seat, call }))

/-- The grade of what was said in the drill. -/
def check (trainer : Trainer) (drill : Drill) : Value → Except TrainerError Grade
  | .text written => do
    trainer.grade drill (← (Call.read written).mapError TrainerError.call)
  | said =>
    if drill.auction.isOver then
      .error (.noCall (.illegal drill.auction drill.seat said))
    else
      .error (.noCall (.unknown said))

end Trainer

end BridgeBidding
