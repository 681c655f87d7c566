import BridgeBidding.Rule

/-!
# Calls that are worked out from the auction

A bid of a fixed level in a strain that was bid before, a raise of the major that was opened, and an
overcall in the longest suit that can be bid.
-/

set_option autoImplicit false
set_option relaxedAutoImplicit false

namespace BridgeBidding.CallRule

/-- The bid of the level in a strain that the auction gives.  It fails if there is none. -/
def inStrain (level : Int) (strain? : Context → Option Strain) : CallRule := fun context ↦
  match strain? context with
  | none => .error (.bid (.notAStrain .null))
  | some strain =>
    match Bid.ofLevel level strain with
    | .ok bid => .ok (.bid bid)
    | .error error => .error (.bid error)

/-- The bid of the level in partner's first strain. -/
def inPartnerFirst (level : Int) : CallRule :=
  inStrain level fun context ↦ context.partnerFirstStrain?

/-- The bid of the level in partner's latest strain. -/
def inPartnerLast (level : Int) : CallRule :=
  inStrain level fun context ↦ context.partnerLastStrain?

/-- The bid of the level in this seat's first strain. -/
def inOwnFirst (level : Int) : CallRule :=
  inStrain level fun context ↦ context.ownFirstStrain?

/-- The bid of the level in the longest suit of five or more cards that can be bid there. -/
def overcall (level : Int) : CallRule := fun context ↦ do
  match ← context.longestBiddable? level 5 with
  | none => .error (.noSuitToOvercall level)
  | some suit => inStrain level (fun _ ↦ some suit.strain) context

/-- The strain of the first call of the auction, which has to be a bid in a major. -/
def openedMajor (context : Context) : Except Failure Strain :=
  match context.auction.calls with
  | [] => .error .auctionTooShort
  | .bid opening :: _ =>
    if opening.strain.isMajor then
      .ok opening.strain
    else
      .error (.notMajorOpening (.bid opening))
  | call :: _ => .error (.notMajorOpening call)

/-- The raise of the major that was opened to the level. -/
def raiseMajor (level : Int) : CallRule := fun context ↦ do
  let strain ← openedMajor context
  inStrain level (fun _ ↦ some strain) context

end BridgeBidding.CallRule
