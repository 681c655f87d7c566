import BridgeBidding.Auction.Legality
import BridgeBidding.Call.Reading

/-!
# Playing an auction

`Auction.add` appends a call for a seat, or says why it cannot: the auction is over, it is another
seat's turn, or the call is not legal, examined in this order.  `Auction.build` plays a list of
written calls from the dealer on, and `Auction.agreesWith` compares an auction with written calls.
`Auction.ofCalls` lays out calls from the dealer on without examining them.

A written call is a plain value, of which only texts are calls.
-/

set_option autoImplicit false
set_option relaxedAutoImplicit false

namespace BridgeBidding

/-- Why a call cannot be made in an auction. -/
inductive PlayError where
  | finished (auction : Auction) (entry : Entry)
  | outOfTurn (auction : Auction) (entry : Entry) (expected : Seat)
  | illegal (auction : Auction) (entry : Entry)

namespace PlayError

/-- The auction that the call was meant for. -/
def auction : PlayError → Auction
  | finished auction _ | outOfTurn auction _ _ | illegal auction _ => auction

/-- The call and the seat that were refused. -/
def entry : PlayError → Entry
  | finished _ entry | outOfTurn _ entry _ | illegal _ entry => entry

/-- The message that a seat cannot add what it said to an auction that is over. -/
def finishedMessage (seat : Seat) (said : String) : String :=
  "Cannot add " ++ said ++ " by " ++ seat.letter ++ ": auction is complete"

/-- The message that what a seat said is not legal. -/
def illegalMessage (seat : Seat) (said : String) : String :=
  "Illegal call: " ++ said ++ " by " ++ seat.letter

/-- The message of the error. -/
def message : PlayError → String
  | finished _ entry => finishedMessage entry.seat entry.call.text
  | outOfTurn _ entry expected =>
    entry.seat.letter ++ " cannot call out of turn; " ++ expected.letter ++ " is to act"
  | illegal _ entry => illegalMessage entry.seat entry.call.text

end PlayError

/-- Why a written auction cannot be played. -/
inductive AuctionError where
  | call (error : CallError)
  | play (error : PlayError)

namespace AuctionError

/-- The message of the error. -/
def message : AuctionError → String
  | call error => error.message
  | play error => error.message

end AuctionError

namespace Auction

/-- The auction with one more entry, which is over if the entries end it.  A dealer who was not
known is the seat of the entry. -/
def append (auction : Auction) (entry : Entry) : Auction :=
  let entries := auction.entries ++ [entry]
  { entries
    dealer := some (auction.dealer.getD entry.seat)
    isOver := isFinished entries }

/-- The auction after a call, if it may be made. -/
def add (auction : Auction) (entry : Entry) : Except PlayError Auction :=
  if auction.isOver then
    .error (.finished auction entry)
  else
    match auction.toAct? with
    | some expected =>
      if entry.seat ≠ expected then
        .error (.outOfTurn auction entry expected)
      else if auction.permits entry.call entry.seat then
        .ok (auction.append entry)
      else
        .error (.illegal auction entry)
    | none =>
      if auction.permits entry.call entry.seat then
        .ok (auction.append entry)
      else
        .error (.illegal auction entry)

/-- The auction after further written calls, the first one made by `seat`. -/
def playFrom (auction : Auction) (seat : Seat) : List Value → Except AuctionError Auction
  | [] => .ok auction
  | written :: rest =>
    match Call.readValue written with
    | .error error => .error (.call error)
    | .ok call =>
      match auction.add { seat, call } with
      | .error error => .error (.play error)
      | .ok next => playFrom next seat.next rest

/-- The auction of the written calls, made in turn from the dealer on. -/
def build (dealer : Seat) (calls : List Value) : Except AuctionError Auction :=
  playFrom (empty (some dealer)) dealer calls

/-- The entries of calls made in turn from a seat on. -/
def inTurn : Seat → List Call → List Entry
  | _, [] => []
  | seat, call :: rest => { seat, call } :: inTurn seat.next rest

/-- The auction of the calls, made in turn from the dealer on. -/
def ofCalls (dealer : Seat) (calls : List Call) : Auction :=
  let entries := inTurn dealer calls
  { entries, dealer := some dealer, isOver := isFinished entries }

/-- The calls agree with the written ones, which are read only as far as they agree. -/
def callsMatch : List Call → List Value → Except CallError Bool
  | [], [] => .ok true
  | call :: calls, written :: rest =>
    match Call.readValue written with
    | .error error => .error error
    | .ok expected => if call = expected then callsMatch calls rest else .ok false
  | _, _ => .ok false

/-- The auction holds exactly the written calls.  Nothing is read if their numbers differ. -/
def agreesWith (auction : Auction) (pattern : List Value) : Except CallError Bool :=
  if auction.entries.length = pattern.length then
    callsMatch auction.calls pattern
  else
    .ok false

end Auction

end BridgeBidding
