import BridgeBidding.Convention.Registry
import BridgeBidding.Deal.Generation
import BridgeBidding.Drill
import BridgeBidding.Settings.Validation

/-!
# Trainers

A trainer has a registry of conventions and perhaps a settings document.  `Trainer.start` makes a
drill for a convention: it puts the settings together, deals hands that fit the convention, and sets
up the auction before the turn of the seat that practises.

Hands are dealt with a shuffler whose state goes from drill to drill, unless the settings fix a
seed.
-/

set_option autoImplicit false
set_option relaxedAutoImplicit false

namespace BridgeBidding

/-- Conventions to practise, and the document with their settings. -/
structure Trainer where
  registry : Registry
  document : Option SettingsDocument

/-- Why a drill cannot be made or go on. -/
inductive TrainerError where
  | registry (error : RegistryError)
  | validation (error : ValidationError)
  | deal (error : DealError)
  | call (error : CallError)
  | play (error : PlayError)
  | noCall (error : NoCallError)
  | failure (error : Failure)
  | tree (error : TreeError)
  | settingsNotRecord (given : Value)

namespace TrainerError

/-- The message of the error. -/
def message : TrainerError → String
  | registry error => error.message
  | validation error => error.message
  | deal error => error.message
  | call error => error.message
  | play error => error.message
  | noCall error => error.message
  | failure error => error.message
  | tree error => error.message
  | settingsNotRecord given => "Settings must be a record, got " ++ given.kind

end TrainerError

/-- The settings that a drill is made by. -/
structure DrillPlan where
  seat : Seat
  vulnerability : Vulnerability
  attempts : Option Int
  seed : Option Int

namespace DrillPlan

/-- The value of a setting in a section; null if there is none. -/
def setting (settings : Settings) (name setting : String) : Value :=
  match Fields.get? settings name with
  | some (.record values) => (Fields.get? values setting).getD .null
  | _ => .null

/-- The text that a value is, if it is one. -/
def text? : Value → Option String
  | .text content => some content
  | _ => none

/-- The whole number that a value is, if it is one. -/
def int? : Value → Option Int
  | .int number => some number
  | _ => none

/-- The plan that valid settings make.  What they leave open is as in the defaults. -/
def ofSettings (settings : Settings) : DrillPlan where
  seat := ((text? (setting settings "trainer" "trainee_seat")).bind Seat.ofLetter?).getD .south
  vulnerability :=
    ((text? (setting settings "trainer" "vulnerability")).bind Vulnerability.ofText?).getD .neither
  attempts := int? (setting settings "deal" "max_attempts")
  seed := int? (setting settings "deal" "seed")

end DrillPlan

namespace Trainer

variable {σ : Type}

/-- The convention under an id. -/
def convention (trainer : Trainer) (id : String) : Except TrainerError Convention :=
  (trainer.registry.get id).mapError TrainerError.registry

/-- The settings for a convention, all of them valid. -/
def settings (trainer : Trainer) (id : String) (overrides : Value) :
    Except TrainerError Settings :=
  (Settings.loadValid trainer.document id overrides).mapError TrainerError.validation

/-- The auction before the turn of a seat: the one that the convention sets up, else the one in
which nobody has called. -/
def openingAuction (convention : Convention) (dealer : Seat) (seat : Seat) (deal : Deal) :
    Except TrainerError Auction := do
  let auction? ← (convention.opening seat (some deal)).mapError TrainerError.deal
  return auction?.getD (.empty (some dealer))

/-- Deals hands for a convention with the shuffler in a state, and returns its next state. -/
def dealFor (convention : Convention) (plan : DrillPlan) (shuffler : Shuffler σ) (state : σ) :
    Except DealError Dealt × σ :=
  { convention.constraints with vulnerability := plan.vulnerability }.generate shuffler state
    plan.attempts

/-- The drill of a convention whose hands have been dealt. -/
def drillOf (convention : Convention) (seat : Seat) (settings : Settings) (dealt : Dealt) :
    Except TrainerError Drill := do
  let auction ← openingAuction convention convention.constraints.dealer seat dealt.deal
  return {
    convention := convention.id
    deal := dealt.deal
    seat
    auction
    iterations := dealt.iterations
    settings := .record settings }

/-- A drill for a convention, and the next state of the shuffler.  The state does not change if the
settings fix a seed. -/
def start (trainer : Trainer) (shuffler : Shuffler σ) (state : σ) (id : String)
    (seat? : Option Seat) (overrides : Value) : Except TrainerError Drill × σ :=
  let prepared : Except TrainerError (Convention × Settings) := do
    let convention ← trainer.convention id
    let settings ← trainer.settings id overrides
    return (convention, settings)
  match prepared with
  | .error error => (.error error, state)
  | .ok (convention, settings) =>
    let plan := DrillPlan.ofSettings settings
    let finish (dealt : Except DealError Dealt) : Except TrainerError Drill := do
      drillOf convention (seat?.getD plan.seat) settings (← dealt.mapError TrainerError.deal)
    match plan.seed with
    | some seed => (finish (dealFor convention plan shuffler (shuffler.start seed)).1, state)
    | none =>
      let (dealt, next) := dealFor convention plan shuffler state
      (finish dealt, next)

end Trainer

end BridgeBidding
