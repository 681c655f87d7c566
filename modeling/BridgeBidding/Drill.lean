import BridgeBidding.Auction.Play
import BridgeBidding.Context
import BridgeBidding.Deal
import BridgeBidding.Value

/-!
# Drills

A drill is a deal with an auction that has come up to the turn of the seat that practises, together
with the convention to practise and the settings that the drill was made with.  A call made in it
appends to the auction and changes nothing else (`Drill.play`).

What is said in a drill is a plain value.  A text is a written call; anything else is no call, which
is found out only as long as the auction goes on, since nothing is legal afterwards.
-/

set_option autoImplicit false
set_option relaxedAutoImplicit false

namespace BridgeBidding

/-- Why something said in an auction that is no call is refused. -/
inductive NoCallError where
  /-- It can be compared with nothing. -/
  | unknown (said : Value)
  /-- The auction is over, and it is not legal. -/
  | illegal (auction : Auction) (seat : Seat) (said : Value)
  /-- The auction is over, and it cannot be added. -/
  | finished (auction : Auction) (seat : Seat) (said : Value)

namespace NoCallError

/-- The message of the error. -/
def message : NoCallError → String
  | unknown said => "Unhandled call type: " ++ said.kind
  | illegal _ seat said => PlayError.illegalMessage seat said.shown
  | finished _ seat said => PlayError.finishedMessage seat said.shown

end NoCallError

/-- Why a drill does not go on. -/
inductive DrillError where
  | written (error : AuctionError)
  | noCall (error : NoCallError)

namespace DrillError

/-- The message of the error. -/
def message : DrillError → String
  | written error => error.message
  | noCall error => error.message

end DrillError

/-- A deal and an auction in which a seat practises a convention. -/
structure Drill where
  convention : String
  deal : Deal
  seat : Seat
  auction : Auction
  iterations : Nat
  settings : Value

namespace Drill

/-- It is the turn of the seat that practises. -/
def isOnBid (drill : Drill) : Bool :=
  decide (drill.auction.toAct? = some drill.seat)

/-- The hand of the seat that practises. -/
def hand (drill : Drill) : Except DealError Hand := drill.deal.hand drill.seat

/-- What the seat that practises knows. -/
def context (drill : Drill) : Except DealError Context := do
  let hand ← drill.hand
  return .ofHand hand drill.auction drill.seat none drill.deal.vulnerability drill.auction.dealer

/-- The seat that calls next: the one whose turn it is, or the one that practises if there is no
dealer yet. -/
def caller (drill : Drill) : Seat := drill.auction.toAct?.getD drill.seat

/-- The drill after a call. -/
def play (drill : Drill) (call : Call) : Except PlayError Drill := do
  let auction ← drill.auction.add { seat := drill.caller, call }
  return { drill with auction }

/-- The drill after a written call. -/
def playWritten (drill : Drill) (written : String) : Except AuctionError Drill := do
  let call ← (Call.read written).mapError AuctionError.call
  (drill.play call).mapError AuctionError.play

/-- The drill after something was said. -/
def playSaid (drill : Drill) : Value → Except DrillError Drill
  | .text written => (drill.playWritten written).mapError DrillError.written
  | said =>
    if drill.auction.isOver then
      .error (.noCall (.finished drill.auction drill.caller said))
    else
      .error (.noCall (.unknown said))

end Drill

end BridgeBidding
