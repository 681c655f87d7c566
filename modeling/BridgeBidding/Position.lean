import BridgeBidding.Auction
import BridgeBidding.Card

/-!
# The auction as a seat sees it

A position is an auction together with the seat that looks at it.  The seat knows which bids it,
its partner and the opponents have made.
-/

set_option autoImplicit false
set_option relaxedAutoImplicit false

namespace BridgeBidding

/-- An auction and the seat that looks at it. -/
structure Position where
  auction : Auction
  seat : Seat

namespace Position

/-- The bids that a seat has made, in order. -/
def bidsBy (position : Position) (seat : Seat) : List Bid :=
  position.auction.entries.filterMap fun entry ↦
    if entry.seat = seat then entry.bid? else none

/-- The bids of this seat, in order. -/
def ownBids (position : Position) : List Bid := position.bidsBy position.seat

/-- The bids of partner, in order. -/
def partnerBids (position : Position) : List Bid := position.bidsBy position.seat.partner

/-- The first bid of the auction and the seat that made it. -/
def openingBid? (position : Position) : Option (Seat × Bid) := position.auction.openingBid?

/-- The strain of partner's first bid. -/
def partnerFirstStrain? (position : Position) : Option Strain :=
  position.partnerBids.head?.map Bid.strain

/-- The strain of partner's latest bid. -/
def partnerLastStrain? (position : Position) : Option Strain :=
  position.partnerBids.getLast?.map Bid.strain

/-- The strain of this seat's first bid. -/
def ownFirstStrain? (position : Position) : Option Strain :=
  position.ownBids.head?.map Bid.strain

/-- How many bids this seat has made. -/
def ownBidCount (position : Position) : Nat := position.ownBids.length

/-- The entry was made by an opponent. -/
def isOpponents (position : Position) (entry : Entry) : Bool :=
  !entry.seat.sameSide position.seat

/-- The seat of the first opponent to make a bid. -/
def opponentBidder? (position : Position) : Option Seat :=
  (position.auction.entries.find? fun entry ↦
    entry.bid?.isSome && position.isOpponents entry).map Entry.seat

/-- The seat of the first opponent to do anything but pass. -/
def activeOpponent? (position : Position) : Option Seat :=
  (position.auction.entries.find? fun entry ↦
    !entry.isPass && position.isOpponents entry).map Entry.seat

/-- The major of an auction that is one of a major and a pass, and nothing else. -/
def raisableMajor? (position : Position) : Option Suit :=
  match position.auction.calls with
  | [.bid opening, .pass] =>
    if opening.level = 1 ∧ opening.strain.isMajor then opening.strain.suit? else none
  | _ => none

end Position

end BridgeBidding
