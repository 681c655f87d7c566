import BridgeBidding.Auction.Pattern
import BridgeBidding.Context.Comparison
import BridgeBidding.Position
import BridgeBidding.Text.Counted

/-!
# Questions about the auction

A `PositionTest` is a yes or no question about the auction as a seat sees it.  It has a short name,
a label that does not depend on the auction, an answer (`PositionTest.holds`) and a description of
the answer (`PositionTest.describe`).  By its type it cannot look at the cards.
-/

set_option autoImplicit false
set_option relaxedAutoImplicit false

namespace BridgeBidding

/-- A question about the auction as a seat sees it. -/
inductive PositionTest where
  /-- The auction is exactly the pattern. -/
  | auctionIs (pattern : Pattern)
  /-- The auction is exactly one of the patterns. -/
  | auctionIsAny (patterns : List Pattern)
  /-- This seat made the first bid, or nobody has bid. -/
  | isOpener
  /-- Partner made the first bid. -/
  | isResponder
  /-- Partner made the first bid, in any strain. -/
  | partnerOpened
  /-- Partner made the first bid, in the strain. -/
  | partnerOpenedIn (strain : Strain)
  /-- Partner made the first bid, and it is the given one. -/
  | partnerOpenedAt (given : Bid.Given)
  /-- Partner has made the given bid. -/
  | partnerBidAt (given : Bid.Given)
  /-- Partner has made a bid in the strain. -/
  | partnerBidIn (strain : Strain)
  /-- An opponent has made a bid. -/
  | opponentBid
  /-- An opponent has done anything but pass. -/
  | opponentActed
  /-- This seat has made a bid. -/
  | seatHasBid
  /-- Nobody has made a bid. -/
  | noPriorBid
  /-- This seat has made so many bids. -/
  | biddingRound (round : Value)
  /-- Partner's first bid is in a major. -/
  | partnerFirstMajor
  /-- Partner's first bid is in a minor. -/
  | partnerFirstMinor
  /-- This seat's first bid is in a major, and partner's latest bid is in the same. -/
  | partnerRaisedMajor

namespace PositionTest

/-- The short name of the question. -/
def name : PositionTest → String
  | auctionIs _ | auctionIsAny _ => "auction"
  | isOpener => "is-opener"
  | isResponder => "is-responder"
  | partnerOpened => "partner-opened"
  | partnerOpenedIn strain => "partner-opened-" ++ strain.text
  | partnerOpenedAt given => "partner-opened-" ++ given.text
  | partnerBidAt given => "partner-bid-" ++ given.text
  | partnerBidIn strain => "partner-bid-suit-" ++ strain.text
  | opponentBid => "opponent-bid"
  | opponentActed => "opponent-acted"
  | seatHasBid => "seat-has-bid"
  | noPriorBid => "no-prior-bid"
  | biddingRound _ => "bidding-round"
  | partnerFirstMajor => "partner-opened-major"
  | partnerFirstMinor => "partner-opened-minor"
  | partnerRaisedMajor => "partner-raised-major"

/-- The labels of patterns, joined. -/
def patternLabels (patterns : List Pattern) : String :=
  String.intercalate " or " (patterns.map Pattern.label)

/-- What the question asks, whatever the auction. -/
def label : PositionTest → String
  | auctionIs pattern => "After " ++ pattern.label
  | auctionIsAny patterns => "After " ++ patternLabels patterns
  | isOpener => "Opening bidder"
  | isResponder => "Responding to partner's opening"
  | partnerOpened => "Partner opened"
  | partnerOpenedIn strain => "Partner opened " ++ strain.text
  | partnerOpenedAt given => "Partner opened " ++ given.text
  | partnerBidAt given => "Partner bid " ++ given.text
  | partnerBidIn strain => "Partner bid " ++ strain.text
  | opponentBid => "Opponent has bid"
  | opponentActed => "Opponent acted (bid/double/redouble)"
  | seatHasBid => "Has previously bid"
  | noPriorBid => "No prior contract bids"
  | biddingRound round => s!"Bidding round {round}"
  | partnerFirstMajor => "Partner opened a major suit"
  | partnerFirstMinor => "Partner opened a minor suit"
  | partnerRaisedMajor => "Partner raised our major"

/-- This seat's first bid is in a major, and partner's latest bid is in the same. -/
def majorIsRaised (position : Position) : Bool :=
  match position.ownFirstStrain? with
  | some strain => strain.isMajor && decide (position.partnerLastStrain? = some strain)
  | none => false

/-- The answer to the question. -/
def holds (position : Position) : PositionTest → Bool
  | auctionIs pattern => pattern.fits position.auction
  | auctionIsAny patterns => (Pattern.firstFit? patterns position.auction).isSome
  | isOpener => position.openingBid?.all fun opening ↦ decide (opening.1 = position.seat)
  | isResponder | partnerOpened =>
    position.openingBid?.any fun opening ↦ decide (opening.1 = position.seat.partner)
  | partnerOpenedIn strain =>
    position.openingBid?.any fun opening ↦
      decide (opening.1 = position.seat.partner) && decide (opening.2.strain = strain)
  | partnerOpenedAt given =>
    position.openingBid?.any fun opening ↦
      decide (opening.1 = position.seat.partner) && decide (opening.2 = given.bid)
  | partnerBidAt given => position.partnerBids.contains given.bid
  | partnerBidIn strain => position.partnerBids.any fun bid ↦ decide (bid.strain = strain)
  | opponentBid => position.opponentBidder?.isSome
  | opponentActed => position.activeOpponent?.isSome
  | seatHasBid => decide (0 < position.ownBidCount)
  | noPriorBid => position.openingBid?.isNone
  | biddingRound round => Comparison.exactly position.ownBidCount round
  | partnerFirstMajor => position.partnerFirstStrain?.any Strain.isMajor
  | partnerFirstMinor => position.partnerFirstStrain?.any Strain.isMinor
  | partnerRaisedMajor => majorIsRaised position

/-- How partner's opening compares with the one asked for. -/
def describeOpening (position : Position) (closed : Seat → String) (opened : Bid → String) :
    String :=
  match position.openingBid? with
  | none => "No opening bid found"
  | some (opener, bid) =>
    if opener = position.seat.partner then opened bid else closed opener

/-- The closed description that names the opener. -/
def partnerClosed (opener : Seat) : String :=
  "Partner did not open (" ++ opener.letter ++ " opened)"

/-- The description of the answer. -/
def describe (position : Position) : PositionTest → String
  | auctionIs pattern =>
    if pattern.fits position.auction then
      "After " ++ pattern.label
    else
      "Auction does not match " ++ pattern.label
  | auctionIsAny patterns =>
    match Pattern.firstFit? patterns position.auction with
    | some pattern =>
      if pattern.label.isEmpty then
        "Auction does not match " ++ patternLabels patterns
      else
        "After " ++ pattern.label
    | none => "Auction does not match " ++ patternLabels patterns
  | isOpener =>
    match position.openingBid? with
    | none => "No bids yet, opening position"
    | some (opener, _) =>
      if opener = position.seat then
        "This seat opened the bidding"
      else
        "This seat did not open the bidding"
  | isResponder =>
    match position.openingBid? with
    | none => "No bids yet, not in responding position"
    | some (opener, _) =>
      if opener = position.seat.partner then
        "Partner opened, responding position"
      else
        "Partner did not open"
  | partnerOpened =>
    describeOpening position partnerClosed fun bid ↦ "Partner opened " ++ bid.strain.text
  | partnerOpenedIn strain =>
    describeOpening position partnerClosed fun bid ↦
      if bid.strain = strain then
        "Partner opened " ++ bid.strain.text
      else
        "Partner opened " ++ bid.strain.text ++ ", not " ++ strain.text
  | partnerOpenedAt given =>
    describeOpening position (fun _ ↦ "Partner did not open") fun bid ↦
      if bid = given.bid then
        "Partner opened " ++ given.text
      else
        "Partner opened " ++ bid.text ++ ", not " ++ given.text
  | partnerBidAt given =>
    if position.partnerBids.contains given.bid then
      "Partner bid " ++ given.text
    else
      "Partner has not bid " ++ given.text
  | partnerBidIn strain =>
    if position.partnerBids.any fun bid ↦ decide (bid.strain = strain) then
      "Partner bid " ++ strain.text
    else
      "Partner has not bid " ++ strain.text
  | opponentBid =>
    match position.opponentBidder? with
    | some opponent => "Opponent (" ++ opponent.letter ++ ") bid"
    | none => "No opponent bids"
  | opponentActed =>
    match position.activeOpponent? with
    | some opponent => "Opponent (" ++ opponent.letter ++ ") acted"
    | none => "No opponent action"
  | seatHasBid =>
    if 0 < position.ownBidCount then
      "This seat has previously bid"
    else
      "This seat has not bid yet"
  | noPriorBid =>
    if position.openingBid?.isNone then "No prior contract bids" else "Prior contract bid exists"
  | biddingRound round =>
    if Comparison.exactly position.ownBidCount round then
      "Seat has made " ++ Text.counted round "prior bid" ++ s!" (round {round})"
    else
      "Seat has made " ++ Text.counted (.int position.ownBidCount) "prior bid" ++
        s!" (need round {round})"
  | partnerFirstMajor =>
    match position.partnerFirstStrain? with
    | some strain =>
      if strain.isMajor then "Partner opened " ++ strain.text else "Partner did not open a major"
    | none => "Partner did not open a major"
  | partnerFirstMinor =>
    match position.partnerFirstStrain? with
    | some strain =>
      if strain.isMinor then "Partner opened " ++ strain.text else "Partner did not open a minor"
    | none => "Partner did not open a minor"
  | partnerRaisedMajor =>
    match position.ownFirstStrain? with
    | some strain =>
      if majorIsRaised position then
        "Partner raised " ++ strain.text
      else if strain.isMajor then
        "Partner did not raise " ++ strain.text
      else
        "This seat did not open a major"
    | none => "This seat did not open a major"

end PositionTest

end BridgeBidding
