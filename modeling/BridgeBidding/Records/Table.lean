import BridgeBidding.Auction.Contract
import BridgeBidding.Drill

/-!
# The table as records

What lies on the table, as plain values: auctions and contracts, deals, and drills.  Cards, calls
and seats are texts; a field whose thing is missing is null.
-/

set_option autoImplicit false
set_option relaxedAutoImplicit false

namespace BridgeBidding

/-- The record or other value of a thing, null for none. -/
def Value.ofOption {α : Type} (record : α → Value) : Option α → Value
  | some thing => record thing
  | none => .null

/-- The texts as a list. -/
def Value.texts (texts : List String) : Value := .list (texts.map .text)

/-- The letter of the seat. -/
def Seat.value (seat : Seat) : Value := .text seat.letter

/-- The text of the call. -/
def Call.value (call : Call) : Value := .text call.text

/-- The lengths of the shape. -/
def Shape.value (shape : Shape) : Value := .list (shape.lengths.map .int)

/-- The points for shortness, for length, and in all. -/
def Distribution.value (distribution : Distribution) : Value :=
  .list [.int distribution.shortness, .int distribution.length, .int distribution.total]

/-- The seat and the call of the entry. -/
def Entry.value (entry : Entry) : Value := .list [entry.seat.value, entry.call.value]

/-- The calls of the auction, the seats that made them, and where it stands. -/
def Auction.fields (auction : Auction) : Fields :=
  [("auction", .text auction.text),
    ("seats", .text (String.join (auction.entries.map fun entry ↦ entry.seat.letter))),
    ("length", .int auction.length),
    ("dealer", .ofOption Seat.value auction.dealer),
    ("complete", .bool auction.isOver),
    ("to_act", .ofOption Seat.value auction.toAct?)]

/-- The auction as a record. -/
def Auction.record (auction : Auction) : Value := .record auction.fields

/-- The contract with its declarer. -/
def Contract.record (contract : Contract) : Value :=
  .record [
    ("text", .text contract.text),
    ("level", .int contract.bid.level.number),
    ("strain", .text contract.bid.strain.text),
    ("doubled", .bool contract.doubled),
    ("redoubled", .bool contract.redoubled),
    ("declarer", contract.declarer.value)]

/-- The hands of the deal, its dealer and its vulnerability. -/
def Deal.fields (deal : Deal) : Fields :=
  [("hands", .record (Seat.all.filterMap fun seat ↦
      (deal.hand? seat).map fun hand ↦ (seat.letter, .text hand.text))),
    ("deal_dealer", deal.dealer.value),
    ("vulnerability", .text deal.vulnerability.text)]

/-- The drill with its auction and its deal. -/
def Drill.record (drill : Drill) : Value :=
  .record ([
    ("id", .text drill.convention),
    ("seat", drill.seat.value),
    ("on_bid", .bool drill.isOnBid),
    ("iterations", .int drill.iterations),
    ("auction", drill.auction.record),
    ("settings", drill.settings)] ++ drill.deal.fields)

end BridgeBidding
