import BridgeBidding.Auction
import BridgeBidding.Call.Reading

/-!
# Auction patterns

A pattern is a complete list of calls with the label that descriptions show for it.  A pattern that
is read from written calls keeps their spelling in its label.
-/

set_option autoImplicit false
set_option relaxedAutoImplicit false

namespace BridgeBidding

/-- The calls of a whole auction, and how they are shown. -/
structure Pattern where
  label : String
  calls : List Call

namespace Pattern

/-- The pattern of the calls, shown by their texts. -/
def ofCalls (calls : List Call) : Pattern where
  label := String.intercalate " - " (calls.map Call.text)
  calls := calls

/-- The calls that values stand for; the first that stands for none is the error. -/
def readCalls : List Value → Except CallError (List Call)
  | [] => .ok []
  | written :: rest => do
    let call ← Call.readValue written
    let calls ← readCalls rest
    return call :: calls

/-- The pattern of the written calls, shown as they are written. -/
def read (written : List Value) : Except CallError Pattern := do
  let calls ← readCalls written
  return { label := String.intercalate " - " (written.map Value.shown), calls }

/-- The auction consists of exactly the calls of the pattern. -/
def fits (pattern : Pattern) (auction : Auction) : Bool :=
  decide (auction.calls = pattern.calls)

/-- The first of the patterns that the auction consists of. -/
def firstFit? (patterns : List Pattern) (auction : Auction) : Option Pattern :=
  patterns.find? fun pattern ↦ pattern.fits auction

end Pattern

end BridgeBidding
