import BridgeBidding.Condition

/-!
# Reports on conditions

A `Report` tells for display whether a condition passed and why.  A combined condition also reports
its branches: one branch with the reports of all parts for `all`, and one branch for each part for
`any`.  `Branch.best?` picks the branch that comes closest, `Report.explanation` joins reports into
one sentence.
-/

set_option autoImplicit false
set_option relaxedAutoImplicit false

namespace BridgeBidding

mutual

/-- Whether a condition passed, how that is described, and its branches, if it has any. -/
inductive Report where
  | mk (name : String) (passed : Bool) (description : String) (branches : List Branch)

/-- One alternative of a combined condition: the reports on its parts, and whether it passed. -/
inductive Branch where
  | mk (reports : List Report) (passed : Bool)

end

namespace Report

/-- The name of the condition. -/
def name : Report → String
  | mk name _ _ _ => name

/-- The condition passed. -/
def passed : Report → Bool
  | mk _ passed _ _ => passed

/-- The description of the answer. -/
def description : Report → String
  | mk _ _ description _ => description

/-- The branches of a combined condition. -/
def branches : Report → List Branch
  | mk _ _ _ branches => branches

/-- The report with its mark: a tick if the condition passed, else a cross. -/
def marked (report : Report) : String :=
  (if report.passed then "✓ " else "✗ ") ++ report.description

/-- The reports in one sentence. -/
def explanation (reports : List Report) : String :=
  String.intercalate "; " (reports.map marked)

end Report

namespace Branch

/-- The reports on the parts. -/
def reports : Branch → List Report
  | mk reports _ => reports

/-- The branch passed. -/
def passed : Branch → Bool
  | mk _ passed => passed

/-- How many parts passed. -/
def passedCount (branch : Branch) : Nat :=
  branch.reports.countP Report.passed

/-- The place of the first of the highest counts, which are numbered from `place` on, if it is above
`record`; else `best`. -/
def firstHighest (place record : Nat) (best : Option Nat) : List Nat → Option Nat
  | [] => best
  | count :: rest =>
    if record < count then
      firstHighest (place + 1) count (some place) rest
    else
      firstHighest (place + 1) record best rest

/-- The place of the first branch with the most parts passed, if any part of any branch passed. -/
def best? (branches : List Branch) : Option Nat :=
  firstHighest 0 0 none (branches.map passedCount)

end Branch

namespace Condition

mutual

/-- The branches of a combined condition, none for any other. -/
def branches (context : Context) : Condition → Except Failure (Option (List Branch))
  | conjunction parts => do
    let reports ← partReports context parts
    return some [Branch.mk reports (reports.all Report.passed)]
  | disjunction parts => do return some (← partBranches context parts)
  | _ => .ok none

/-- The reports on the parts in order. -/
def partReports (context : Context) : List Condition → Except Failure (List Report)
  | [] => .ok []
  | condition :: rest => do
    let inner ← condition.branches context
    let passed ← condition.holds context
    let description ← condition.describe context
    let others ← partReports context rest
    return Report.mk condition.name passed description (inner.getD []) :: others

/-- The parts as branches: a combined part gives the reports of all its branches, any other its own
report. -/
def partBranches (context : Context) : List Condition → Except Failure (List Branch)
  | [] => .ok []
  | condition :: rest => do
    let inner ← condition.branches context
    match inner with
    | some inner =>
      let passed ← condition.holds context
      let others ← partBranches context rest
      return Branch.mk (inner.flatMap Branch.reports) passed :: others
    | none =>
      let passed ← condition.holds context
      let description ← condition.describe context
      let others ← partBranches context rest
      return Branch.mk [Report.mk condition.name passed description []] passed :: others

end

/-- The report on the condition. -/
def report (context : Context) (condition : Condition) : Except Failure Report := do
  let inner ← condition.branches context
  let passed ← condition.holds context
  let description ← condition.describe context
  return Report.mk condition.name passed description (inner.getD [])

/-- The report on the condition, which has not passed if it failed. -/
def settledReport (context : Context) (condition : Condition) : Report :=
  match condition.report context with
  | .ok report => report
  | .error failure => Report.mk condition.name false (condition.describeFailure failure) []

end Condition

end BridgeBidding
