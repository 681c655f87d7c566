import BridgeBidding.Auction.Legality

/-!
# Contracts

The contract that an auction has reached so far: the last bid, whether it stands doubled or
redoubled, and the declarer.  The declarer is the seat of the bidding side that first named the
strain, who need not have made the last bid.
-/

set_option autoImplicit false
set_option relaxedAutoImplicit false

namespace BridgeBidding

/-- A bid that became the contract, its doubling and its declarer. -/
structure Contract where
  bid : Bid
  doubled : Bool
  redoubled : Bool
  declarer : Seat
  deriving DecidableEq, Repr

namespace Contract

/-- The contract in one line. -/
def text (contract : Contract) : String :=
  let mark := if contract.redoubled then "XX" else if contract.doubled then "X" else ""
  contract.bid.text ++ mark ++ " by " ++ contract.declarer.letter

end Contract

namespace Auction

/-- The seat that first named the strain on the side of `bidder`. -/
def firstToName? (auction : Auction) (strain : Strain) (bidder : Seat) : Option Seat :=
  (auction.seatBids.find? fun made ↦
    decide (made.2.strain = strain) && made.1.sameSide bidder).map Prod.fst

/-- The declarer, if a bid was made. -/
def declarer? (auction : Auction) : Option Seat :=
  auction.lastBid?.map fun (bidder, bid) ↦
    (auction.firstToName? bid.strain bidder).getD bidder

/-- The contract, if a bid was made. -/
def contract? (auction : Auction) : Option Contract :=
  auction.lastBid?.map fun (bidder, bid) ↦
    { bid
      doubled := auction.lastAction?.any fun entry ↦ decide (entry.call = .double)
      redoubled := auction.lastAction?.any fun entry ↦ decide (entry.call = .redouble)
      declarer := (auction.firstToName? bid.strain bidder).getD bidder }

end Auction

end BridgeBidding
