import BridgeBidding.Records.Results

/-!
# The contexts of errors

An error says in its context what its message is about: the auction that a call was meant for, the
decision above a misplaced one, the seats that no hands were found for, the file or the section of
the settings.  `context` gives these as fields; an error whose message says it all has none.
-/

set_option autoImplicit false
set_option relaxedAutoImplicit false

namespace BridgeBidding

/-- The auction, and the seat whose turn it was if another one called. -/
def PlayError.context (error : PlayError) : Fields :=
  ("auction", .text error.auction.text) ::
    match error with
    | .outOfTurn _ _ expected => [("expected_seat", .text expected.letter)]
    | _ => []

/-- The decision about the hand that stands above one about the auction. -/
def TreeError.context : TreeError → Fields
  | .auctionBelowHand _ hand => [("hand_node", .text hand)]
  | _ => []

/-- The rule, and what its condition says about the hand although it looks at the auction. -/
def ConditionError.context : ConditionError → Fields
  | .auctionInference _ rule stated =>
    [("rule", .text rule), ("inference", stated.record)]
  | _ => []

/-- The seats that something was asked of. -/
def DealError.context : DealError → Fields
  | .exhausted _ seats => [("seats", .texts (seats.map Seat.letter))]
  | .noHand _ => []

/-- The file, the convention and the section at fault. -/
def SettingsError.context : SettingsError → Fields
  | .noConventions file => [("file", .text file)]
  | .entryNotRecord file convention =>
    [("file", .text file), ("convention_id", .text convention)]
  | .sectionNotRecord convention name _ =>
    [("convention_id", .text convention), ("section", .text name)]
  | _ => []

/-- The convention whose settings are at fault. -/
def ValidationError.context : ValidationError → Fields
  | .loading error => error.context
  | .invalid convention _ => [("convention_id", .text convention)]
  | .notNamed _ => []

/-- The offences found. -/
def ValidationError.offences : ValidationError → List Offence
  | .invalid _ offences => offences
  | _ => []

end BridgeBidding
