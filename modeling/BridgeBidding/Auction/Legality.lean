import BridgeBidding.Auction

/-!
# Legal calls

`Auction.permits` says whether a seat may make a call in an auction, leaving the turn aside:
nothing after the auction is over, a pass always, a bid that outranks the last one, a double of the
other side's bid and a redouble of the other side's double.  `Auction.isFinished` says of a list of
entries whether it ends the auction, and `Auction.legalCalls` lists what a seat may call.
-/

set_option autoImplicit false
set_option relaxedAutoImplicit false

namespace BridgeBidding.Auction

/-- The bid outranks every bid made so far. -/
def permitsBid (auction : Auction) (bid : Bid) : Bool :=
  match auction.lastBid? with
  | none => true
  | some (_, last) => bid.outranks last

/-- The last call other than a pass is a bid by the other side. -/
def permitsDouble (auction : Auction) (seat : Seat) : Bool :=
  match auction.lastAction? with
  | some { seat := bidder, call := .bid _ } => !bidder.sameSide seat
  | _ => false

/-- The last call other than a pass is a double by the other side. -/
def permitsRedouble (auction : Auction) (seat : Seat) : Bool :=
  match auction.lastAction? with
  | some { seat := doubler, call := .double } => !doubler.sameSide seat
  | _ => false

/-- The seat may make the call, if it is its turn. -/
def permits (auction : Auction) (call : Call) (seat : Seat) : Bool :=
  !auction.isOver &&
    match call with
    | .pass => true
    | .bid bid => auction.permitsBid bid
    | .double => auction.permitsDouble seat
    | .redouble => auction.permitsRedouble seat

/-- The entries end the auction: four passes to begin with, or three passes after any other
call. -/
def isFinished (entries : List Entry) : Bool :=
  let latest := entries.reverse.take 3
  let earlier := entries.reverse.drop 3
  !earlier.isEmpty && latest.all Entry.isPass &&
    (earlier.length == 1 || earlier.any fun entry ↦ !entry.isPass)

/-- Every call that the seat may make, if it is its turn. -/
def legalCalls (auction : Auction) (seat : Seat) : List Call :=
  if auction.isOver then
    []
  else
    Call.all.filter fun call ↦ auction.permits call seat

end BridgeBidding.Auction
