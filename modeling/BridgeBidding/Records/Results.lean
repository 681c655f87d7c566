import BridgeBidding.Records.Table
import BridgeBidding.Trainer.Grading

/-!
# Results as records

What a trainer shows, as plain values: reports on conditions, descents of a tree with their fork
points, sibling bids, suggestions and grades.  A report without branches has no field for them; in
all other records every field is there, null if there is nothing to say.
-/

set_option autoImplicit false
set_option relaxedAutoImplicit false

namespace BridgeBidding

/-- The inference with its parameters. -/
def Inference.record (inference : Inference) : Value :=
  .record [("type", .text inference.kind), ("params", .record inference.parameters)]

/-! ### Reports -/

mutual

/-- The report with its branches, if it has any. -/
def Report.record : Report → Value
  | .mk name passed description branches =>
    .record ([("name", .text name), ("passed", .bool passed), ("description", .text description)] ++
      if branches.isEmpty then [] else [("branches", .list (Branch.records branches))])

/-- The reports in order. -/
def Report.records : List Report → List Value
  | [] => []
  | report :: rest => report.record :: Report.records rest

/-- The branches in order. -/
def Branch.records : List Branch → List Value
  | [] => []
  | .mk reports passed :: rest =>
    .record [("passed", .bool passed), ("results", .list (Report.records reports))] ::
      Branch.records rest

end

/-! ### Descents -/

/-- The decision with its verdict. -/
def Step.record (step : Step) : Value :=
  .record [
    ("node_name", .text step.name),
    ("passed", .bool step.passed),
    ("description", .text step.verdict.description),
    ("depth", .int step.depth),
    ("parent_node_name", .ofOption .text step.parent?),
    ("condition", .text step.condition.name),
    ("error", .ofOption (fun failure ↦ .text failure.message) step.verdict.failure?)]

/-- The fork point with the branch taken there and the bids of the other one. -/
def ForkPoint.record (fork : ForkPoint) : Value :=
  .record [
    ("node_name", .text fork.step.name),
    ("taken_branch", .text (if fork.step.passed then "yes" else "no")),
    ("description", .text fork.step.verdict.description),
    ("alternatives", .texts fork.alternatives)]

/-- The bid reached, or why there is none, and the way there. -/
def Descent.fields (descent : Descent) : Fields :=
  [("matched", .ofOption (fun node ↦ .text node.name) descent.ending.node?),
    ("call", .ofOption (fun call ↦ .text call.text) descent.ending.call?),
    ("meaning", .ofOption (fun node ↦ .text node.meaning) descent.ending.node?),
    ("fallback_reason", .ofOption .text descent.ending.reason?),
    ("visited", .list (descent.steps.map Step.record)),
    ("fork_point", .ofOption ForkPoint.record descent.forkPoint?)]

/-- The condition with the outcome that it would need. -/
def SiblingCondition.record (condition : SiblingCondition) : Value :=
  .record [
    ("name", .text condition.name),
    ("description", .text condition.description),
    ("required_result", .bool condition.required),
    ("actual_result", .bool condition.actual)]

/-- The sibling with the conditions that kept it from being reached. -/
def Sibling.record (sibling : Sibling) : Value :=
  .record [
    ("bid_name", .text sibling.name),
    ("meaning", .text sibling.meaning),
    ("call", .text sibling.call.text),
    ("failed_conditions", .list (sibling.failed.map SiblingCondition.record))]

/-! ### Suggestions and grades -/

/-- The suggestion with its reports and its descent. -/
def Suggestion.record (suggestion : Suggestion) : Value :=
  .record [
    ("call", .text suggestion.call.text),
    ("rule_name", .text suggestion.bid.name),
    ("meaning", .text suggestion.bid.meaning),
    ("explanation", .text suggestion.explanation),
    ("conditions", .list (Report.records suggestion.reports)),
    ("tree", .record suggestion.descent.fields)]

/-- The grade with the way to the expected call.  Only legal calls are graded. -/
def Grade.record (grade : Grade) : Value :=
  let bid? := grade.expected?.map Suggestion.bid
  .record [
    ("correct", .bool grade.isCorrect),
    ("user_call", .text grade.call.text),
    ("expected_call", .text grade.expectedCall.text),
    ("rule_name", .ofOption (fun bid ↦ .text bid.name) bid?),
    ("meaning", .ofOption (fun bid ↦ .text bid.meaning) bid?),
    ("explanation", .text grade.explanation),
    ("visited", .list (grade.descent.steps.map Step.record)),
    ("fork_point", .ofOption ForkPoint.record grade.descent.forkPoint?),
    ("siblings", .list (grade.siblings.map Sibling.record)),
    ("legal", .bool true)]

/-- The setting at fault with the demand on it. -/
def Offence.record (offence : Offence) : Value :=
  .record [
    ("field", .text offence.setting),
    ("message", .text offence.demand.message),
    ("value", offence.value)]

end BridgeBidding
