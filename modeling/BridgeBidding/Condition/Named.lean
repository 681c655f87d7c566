import BridgeBidding.Condition

/-!
# Named conditions

Short names for the conditions that conventions are written with, among them the two-suited hands
that an overcall shows: five cards in one suit and four in another, either way round.
-/

set_option autoImplicit false
set_option relaxedAutoImplicit false

namespace BridgeBidding.Condition

/-- At least so many cards in the suit. -/
def suitMin (suit : Suit) (minimum : Int) : Condition := holding (.suitMin suit minimum)

/-- At least so many cards in one of the suits. -/
def anySuitMin (suits : List Suit) (minimum : Int) : Condition :=
  holding (.anySuitMin suits minimum)

/-- At least so many high card points. -/
def pointsMin (minimum : Int) : Condition := holding (.pointsMin minimum)

/-- High card points within bounds, both included. -/
def pointsRange (minimum maximum : Int) : Condition := holding (.pointsRange minimum maximum)

/-- The auction is exactly the calls. -/
def auctionIs (calls : List Call) : Condition := position (.auctionIs (.ofCalls calls))

/-- The auction is exactly one of the lists of calls. -/
def auctionIsAny (auctions : List (List Call)) : Condition :=
  position (.auctionIsAny (auctions.map .ofCalls))

/-- Five cards in one major and four in the other. -/
def bothMajors : Condition :=
  disjunction [
    conjunction [suitMin .hearts 5, suitMin .spades 4],
    conjunction [suitMin .spades 5, suitMin .hearts 4]]

/-- Five cards in the suit and four in one of the others, or the other way round. -/
def suitAndOneOf (suit : Suit) (others : List Suit) : Condition :=
  disjunction [
    conjunction [suitMin suit 5, anySuitMin others 4],
    conjunction [suitMin suit 4, anySuitMin others 5]]

/-- Diamonds and a major. -/
def diamondsAndMajor : Condition := suitAndOneOf .diamonds [.spades, .hearts]

/-- Clubs and a higher suit. -/
def clubsAndHigher : Condition := suitAndOneOf .clubs [.diamonds, .hearts, .spades]

end BridgeBidding.Condition
