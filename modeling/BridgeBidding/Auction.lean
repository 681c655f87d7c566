import BridgeBidding.Call
import BridgeBidding.Seat

/-!
# Auctions

An auction is the list of calls made so far, each with the seat that made it, together with the
dealer, if known, and the mark that it is over.  The mark is kept by whoever adds calls; this module
only looks at what is there: whose turn it is (`Auction.toAct?`), the last bid
(`Auction.lastBid?`), the last call other than a pass (`Auction.lastAction?`).
-/

set_option autoImplicit false
set_option relaxedAutoImplicit false

namespace BridgeBidding

/-- A call and the seat that made it. -/
structure Entry where
  seat : Seat
  call : Call
  deriving DecidableEq, Repr

namespace Entry

/-- The bid of the entry, if its call is one. -/
def bid? (entry : Entry) : Option Bid := entry.call.bid?

/-- The entry's call is a pass. -/
def isPass (entry : Entry) : Bool := entry.call.isPass

/-- The seat and the bid of the entry, if its call is a bid. -/
def seatBid? (entry : Entry) : Option (Seat × Bid) :=
  entry.bid?.map fun bid ↦ (entry.seat, bid)

end Entry

/-- The calls made so far. -/
structure Auction where
  entries : List Entry := []
  dealer : Option Seat := none
  isOver : Bool := false
  deriving DecidableEq, Repr

namespace Auction

/-- The auction before the first call. -/
def empty (dealer : Option Seat) : Auction := { dealer }

/-- The number of calls made. -/
def length (auction : Auction) : Nat := auction.entries.length

/-- The calls in order, without their seats. -/
def calls (auction : Auction) : List Call := auction.entries.map Entry.call

/-- The calls in order, written on one line. -/
def text (auction : Auction) : String :=
  String.intercalate " - " (auction.calls.map Call.text)

/-- The seat whose turn it is: after the last caller, or the dealer if nobody has called. -/
def toAct? (auction : Auction) : Option Seat :=
  match auction.entries.getLast? with
  | some entry => some entry.seat.next
  | none => auction.dealer

/-- The bids of the auction with their seats, in order. -/
def seatBids (auction : Auction) : List (Seat × Bid) :=
  auction.entries.filterMap Entry.seatBid?

/-- The bids of the auction in order. -/
def bids (auction : Auction) : List Bid :=
  auction.entries.filterMap Entry.bid?

/-- The first bid of the auction and the seat that made it. -/
def openingBid? (auction : Auction) : Option (Seat × Bid) :=
  auction.entries.findSome? Entry.seatBid?

/-- The last bid of the auction and the seat that made it. -/
def lastBid? (auction : Auction) : Option (Seat × Bid) :=
  auction.entries.reverse.findSome? Entry.seatBid?

/-- The last entry whose call is not a pass. -/
def lastAction? (auction : Auction) : Option Entry :=
  auction.entries.reverse.find? fun entry ↦ !entry.isPass

/-- How many calls of any kind a seat has made. -/
def callCount (auction : Auction) (seat : Seat) : Nat :=
  auction.entries.countP fun entry ↦ decide (entry.seat = seat)

end Auction

end BridgeBidding
