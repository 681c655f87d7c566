import BridgeBidding.Call

/-!
# Failures

Working something out of what a bidder knows can fail; `Failure` lists the causes.
-/

set_option autoImplicit false
set_option relaxedAutoImplicit false

namespace BridgeBidding

/-- Why a condition or a call could not be worked out. -/
inductive Failure where
  | bid (error : BidError)
  | notMajorOpening (call : Call)
  | noSuitToOvercall (level : Int)
  | auctionTooShort
  /-- Values of these kinds are not ordered, so the comparison with the sign has no answer. -/
  | notOrdered (sign left right : String)
  /-- A number is sought among the characters of a text. -/
  | soughtInText
  | stated (message : String)

namespace Failure

/-- The message of the failure. -/
def message : Failure → String
  | bid error => error.message
  | notMajorOpening call => "Expected a 1H or 1S opening, got " ++ call.text
  | noSuitToOvercall level => s!"No suit to overcall at the {level}-level"
  | auctionTooShort => "The auction has fewer calls than expected"
  | notOrdered sign left right =>
    s!"'{sign}' not supported between instances of '{left}' and '{right}'"
  | soughtInText => "'in <string>' requires string as left operand, not int"
  | stated message => message

end Failure

end BridgeBidding
