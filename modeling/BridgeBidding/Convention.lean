import BridgeBidding.Auction.Legality
import BridgeBidding.Deal
import BridgeBidding.Tree.Descent
import BridgeBidding.Tree.Flattening

/-!
# Conventions

A convention is a rule tree with the deals that exercise it and the auction that leads up to it.
`Convention.suggest?` descends the tree for a context and gives the call with its explanation;
`Convention.trials` tries all flattened rules, whichever matches first.
-/

set_option autoImplicit false
set_option relaxedAutoImplicit false

namespace BridgeBidding

/-- The kind of a convention. -/
inductive ConventionKind where
  | asking
  | defensive
  | constructive
  | competitive
  deriving DecidableEq, Repr

namespace ConventionKind

/-- The word for the kind. -/
def text : ConventionKind → String
  | asking => "Asking"
  | defensive => "Defensive"
  | constructive => "Constructive"
  | competitive => "Competitive"

end ConventionKind

/-- A hand and an auction with the call that the convention makes and the bid that makes it. -/
structure Example where
  description : String
  hand : Hand
  auction : Auction
  call : Call
  bidName : String

/-- A convention.  Its rules are those of its tree, and `opening` gives the auction before the turn
of a seat, for a deal if there is one. -/
structure Convention where
  id : String
  name : String
  description : String
  kind : ConventionKind
  constraints : DealConstraints
  tree : RuleTree
  rules : List Rule
  examples : List Example := []
  opening : Seat → Option Deal → Except DealError (Option Auction) := fun _ _ ↦ .ok none

/-- The call that a convention makes, with everything that led to it. -/
structure Suggestion where
  call : Call
  bid : BidNode
  reports : List Report
  descent : Descent

namespace Suggestion

/-- The reports on the decisions on the way, in one sentence. -/
def explanation (suggestion : Suggestion) : String :=
  Report.explanation suggestion.reports

end Suggestion

/-- What became of one rule: whether it matched, its call and whether that is legal, and the reports
on its conditions. -/
structure RuleTrial where
  name : String
  matched : Bool
  isLegal : Bool
  call? : Option Call
  reports : List Report

namespace RuleTree

/-- The rules of the tree; none if it cannot be flattened. -/
def rules (tree : RuleTree) : List Rule :=
  match tree.flatten with
  | .ok rules => rules
  | .error _ => []

end RuleTree

namespace Step

/-- The report on the decision, with the branches of its condition unless that failed. -/
def report (context : Context) (step : Step) : Except Failure Report :=
  match step.verdict.failure? with
  | some _ => .ok (.mk step.condition.name step.passed step.verdict.description [])
  | none => do
    let branches ← step.condition.branches context
    return .mk step.condition.name step.passed step.verdict.description (branches.getD [])

/-- The reports on the decisions in order. -/
def reports (context : Context) : List Step → Except Failure (List Report)
  | [] => .ok []
  | step :: rest => do
    let report ← step.report context
    let others ← reports context rest
    return report :: others

end Step

namespace Convention

/-- The call that the convention makes.  There is none at a dead end or if the call fails, and none
if the call is illegal and illegal calls are skipped. -/
def suggest? (convention : Convention) (context : Context) (skipIllegal : Bool) :
    Except Failure (Option Suggestion) :=
  let descent := convention.tree.descend context
  match descent.ending with
  | .bid bid call =>
    if skipIllegal && !context.auction.permits call context.seat then
      .ok none
    else do
      let reports ← Step.reports context descent.steps
      return some { call, bid, reports, descent }
  | _ => .ok none

/-- What becomes of a rule. -/
def trial (context : Context) (rule : Rule) : Except Failure RuleTrial := do
  let reports := rule.reports context
  if rule.matchesIn context then
    let call ← rule.call context
    return { name := rule.name, matched := true,
             isLegal := context.auction.permits call context.seat, call? := some call, reports }
  else
    return { name := rule.name, matched := false, isLegal := false, call? := none, reports }

/-- What becomes of the rules in order. -/
def trialsOf (context : Context) : List Rule → Except Failure (List RuleTrial)
  | [] => .ok []
  | rule :: rest => do
    let first ← trial context rule
    let others ← trialsOf context rest
    return first :: others

/-- What becomes of all rules of the convention. -/
def trials (convention : Convention) (context : Context) : Except Failure (List RuleTrial) :=
  trialsOf context convention.rules

end Convention

end BridgeBidding
