import BridgeBidding.Hand.Evaluation
import BridgeBidding.Seat

/-!
# Deals and what is asked of them

A deal gives some or all of the seats a hand, and has a dealer and a vulnerability.  A
`SeatConstraint` says what one seat's hand must be like, and `DealConstraints` put such demands
together; `DealConstraints.admits` decides whether a deal meets them all.
-/

set_option autoImplicit false
set_option relaxedAutoImplicit false

namespace BridgeBidding

/-- Hands for seats, with a dealer and a vulnerability. -/
structure Deal where
  hand? : Seat → Option Hand
  dealer : Seat := .north
  vulnerability : Vulnerability := .neither

/-- What is asked of one seat's hand.  Bounds on lengths are kept per suit; of
`minimumLengthAny`, unless it is empty, one bound is enough. -/
structure SeatConstraint where
  seat : Seat
  minimumPoints : Option Int := none
  maximumPoints : Option Int := none
  balanced : Option Bool := none
  minimumLength : List (Suit × Int) := []
  maximumLength : List (Suit × Int) := []
  minimumLengthAny : List (Suit × Int) := []
  extra : Option (Hand → Bool) := none

namespace SeatConstraint

/-- The points lie within the bounds that are set. -/
def admitsPoints (constraint : SeatConstraint) (points : Int) : Bool :=
  (constraint.minimumPoints.all fun minimum ↦ decide (minimum ≤ points)) &&
    (constraint.maximumPoints.all fun maximum ↦ decide (points ≤ maximum))

/-- The shape is balanced or not as asked, and its lengths keep the bounds. -/
def admitsShape (constraint : SeatConstraint) (shape : Shape) : Bool :=
  (constraint.balanced.all fun balanced ↦ balanced == balancedLengths shape.lengths) &&
    (constraint.minimumLength.all fun bound ↦ decide (bound.2 ≤ shape.length bound.1)) &&
    (constraint.maximumLength.all fun bound ↦ decide (shape.length bound.1 ≤ bound.2)) &&
    (constraint.minimumLengthAny.isEmpty ||
      constraint.minimumLengthAny.any fun bound ↦ decide (bound.2 ≤ shape.length bound.1))

/-- The hand is what is asked of the seat. -/
def admits (constraint : SeatConstraint) (hand : Hand) : Bool :=
  constraint.admitsPoints hand.points && constraint.admitsShape hand.shape &&
    constraint.extra.all fun holds ↦ holds hand

end SeatConstraint

/-- What is asked of a deal, and how often to try for it. -/
structure DealConstraints where
  seats : List SeatConstraint := []
  dealer : Seat := .north
  vulnerability : Vulnerability := .neither
  maximumAttempts : Option Int := none

namespace DealConstraints

/-- Every seat that something is asked of has a hand, and the hand is what is asked.  All seats have
hands in the deals that are generated.  Of a deal in which such a seat has none nothing can be
asked, so whoever asks has made an error; here the deal is just not admitted. -/
def admits (constraints : DealConstraints) (deal : Deal) : Bool :=
  constraints.seats.all fun constraint ↦
    (deal.hand? constraint.seat).any constraint.admits

end DealConstraints

/-- Why a deal is not to be had. -/
inductive DealError where
  | noHand (seat : Seat)
  | exhausted (attempts : Int) (seats : List Seat)

namespace DealError

/-- The message of the error. -/
def message : DealError → String
  | noHand seat => "No hand for " ++ seat.letter
  | exhausted attempts _ => "Failed to generate deal after " ++ toString attempts ++ " attempts"

end DealError

namespace Deal

/-- The hand of a seat, if it has one. -/
def hand (deal : Deal) (seat : Seat) : Except DealError Hand :=
  match deal.hand? seat with
  | some hand => .ok hand
  | none => .error (.noHand seat)

end Deal

end BridgeBidding
