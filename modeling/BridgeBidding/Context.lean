import BridgeBidding.Context.Comparison
import BridgeBidding.Hand.Evaluation
import BridgeBidding.Position

/-!
# Bidding contexts

Everything that a bidder may look at: the auction from a seat, the hand and its evaluation, the
vulnerability and the dealer.  `Context.longestBiddable?` looks at all of it to find the suit to bid
at a level.
-/

set_option autoImplicit false
set_option relaxedAutoImplicit false

namespace BridgeBidding

/-- What a bidder knows. -/
structure Context extends Position where
  hand : Hand
  evaluation : Evaluation
  vulnerability : Vulnerability
  dealer : Seat

namespace Context

/-- The context of a hand at a position.  The hand is evaluated unless an evaluation is given, and
the dealer is the auction's, or else north, unless one is given. -/
def ofHand (hand : Hand) (auction : Auction) (seat : Seat)
    (evaluation : Option Evaluation := none) (vulnerability : Vulnerability := .neither)
    (dealer : Option Seat := none) : Context where
  auction
  seat
  hand
  evaluation := evaluation.getD hand.evaluation
  vulnerability
  dealer := (dealer.or auction.dealer).getD .north

/-- The length of a suit. -/
def length (context : Context) (suit : Suit) : Int := context.evaluation.length suit

/-- The suit has the minimum length and its bid at the level outranks the last bid. -/
def isBiddable (context : Context) (level minimum : Value) (suit : Suit) :
    Except Failure Bool := do
  if ← Comparison.below (context.length suit) minimum then
    return false
  else
    match context.auction.lastBid? with
    | none => return true
    | some (_, last) =>
      match Bid.ofLevel level suit.strain with
      | .ok bid => return bid.outranks last
      | .error error => throw (.bid error)

/-- The biddable ones of the suits, in order. -/
def biddableAmong (context : Context) (level minimum : Value) :
    List Suit → Except Failure (List Suit)
  | [] => .ok []
  | suit :: rest => do
    let biddable ← context.isBiddable level minimum suit
    let others ← biddableAmong context level minimum rest
    return if biddable then suit :: others else others

/-- The longest of the suits; of equally long ones the one that comes first. -/
def longestAmong? (context : Context) : List Suit → Option Suit
  | [] => none
  | first :: rest => some (context.evaluation.shape.longestAmong first rest)

/-- The longest suit of at least the minimum length that can be bid at the level; of equally long
ones the highest. -/
def longestBiddable? (context : Context) (level minimum : Value) :
    Except Failure (Option Suit) := do
  return context.longestAmong? (← context.biddableAmong level minimum Suit.all)

end Context

end BridgeBidding
