import BridgeBidding.Auction.Play
import BridgeBidding.Condition.Named
import BridgeBidding.Convention
import BridgeBidding.Convention.WorkedOut
import BridgeBidding.Hand.Sample

/-!
# Standard American Yellow Card

A natural system: openings, responses to one of a suit and to one notrump, the opener's rebid, and
simple overcalls.  The tree first finds out which turn it is (`openingTurn`, `rebiddingTurn`,
`respondingTurn`, `competingTurn`), and from there on looks at the hand.
-/

set_option autoImplicit false
set_option relaxedAutoImplicit false

namespace BridgeBidding.Sayc

open RuleTree (ask say workOut stop numbered)

/-! ### Opening -/

/-- A weak two in the suit, or else something else. -/
def weakTwo (suit : Suit) (letter : String) (otherwise : RuleTree) : RuleTree :=
  ask ("weak-two-" ++ suit.name) (.conjunction [.pointsRange 5 11, .suitMin suit 6])
    (say ("sayc-open-weak-2" ++ letter) (.of 2 suit.strain)
      ("Weak two: six " ++ suit.name ++ ", 5-11 HCP"))
    otherwise

/-- An opening of one of a suit. -/
def oneOfASuit : RuleTree :=
  ask "five-spades" (.holding (.longerMajor .spades))
    (say "sayc-open-1s" (.of 1 .spades) "Five or more spades, at least as many as hearts") <|
  ask "five-hearts" (.suitMin .hearts 5)
    (say "sayc-open-1h" (.of 1 .hearts) "Five or more hearts") <|
  ask "clubs-not-diamonds"
    (.conjunction [.suitMin .clubs 3, .holding (.suitBelow .diamonds 4)])
    (say "sayc-open-1c" (.of 1 .clubs) "No five-card major, better minor is clubs")
    (say "sayc-open-1d" (.of 1 .diamonds) "No five-card major, four or more diamonds")

/-- A weak two or a pass. -/
def weakOpening : RuleTree :=
  weakTwo .hearts "h" <|
  weakTwo .spades "s" <|
  weakTwo .diamonds "d" <|
  say "sayc-pass-opening" .pass "Not enough to open"

/-- The turn before any bid. -/
def openingTurn : RuleTree :=
  ask "strong-2c" (.pointsMin 22)
    (say "sayc-open-2c" (.of 2 .clubs) "Strong, artificial and forcing") <|
  ask "open-2nt" (.conjunction [.pointsRange 20 21, .holding .balanced])
    (say "sayc-open-2nt" (.of 2 .notrump) "20-21 HCP, balanced") <|
  ask "open-1nt"
    (.conjunction [.pointsRange 15 17, .holding .balanced, .holding .noFiveCardMajor])
    (say "sayc-open-1nt" (.of 1 .notrump) "15-17 HCP, balanced, no five-card major") <|
  ask "opening-values" (.pointsMin 12) oneOfASuit weakOpening

/-! ### The opener's rebid -/

/-- The opener's turn after a raise of the major. -/
def afterRaise : RuleTree :=
  ask "raise-to-game" (.pointsMin 19)
    (workOut "sayc-rebid-major-game" (.inOwnFirst 4) "Game in the agreed major") <|
  ask "raise-invite" (.pointsRange 17 18)
    (workOut "sayc-rebid-major-invite" (.inOwnFirst 3) "Invites game in the agreed major")
    (say "sayc-rebid-pass-after-raise" .pass "Minimum, no interest in game")

/-- The opener's turn. -/
def rebiddingTurn : RuleTree :=
  ask "partner-raised" (.position .partnerRaisedMajor) afterRaise <|
  ask "support-partner-major"
    (.conjunction [.pointsRange 12 16, .holding (.partnerMajorSupport 4)])
    (workOut "sayc-rebid-raise-response" (.inPartnerLast 2)
      "Four-card support for partner's major") <|
  ask "rebid-own-suit" (.conjunction [.pointsRange 12 17, .holding (.openedSuitMin 6)])
    (workOut "sayc-rebid-own-suit" (.inOwnFirst 2) "Six-card suit, minimum") <|
  ask "rebid-1nt" (.conjunction [.pointsRange 12 14, .holding .balanced])
    (say "sayc-rebid-1nt" (.of 1 .notrump) "12-14 HCP, balanced") <|
  ask "rebid-2nt" (.conjunction [.pointsRange 18 19, .holding .balanced])
    (say "sayc-rebid-2nt" (.of 2 .notrump) "18-19 HCP, balanced")
    (stop (some "no-natural-rebid"))

/-! ### Responding -/

/-- The response to one notrump. -/
def afterNotrump : RuleTree :=
  ask "nt-response-values" (.pointsMin 8)
    (ask "nt-four-card-major" (.holding .fourCardMajor)
      (say "sayc-respond-1nt-stayman" (.of 2 .clubs) "Stayman: asks for a four-card major")
      (ask "nt-game-values" (.pointsMin 10)
        (say "sayc-respond-1nt-3nt" (.of 3 .notrump) "Game values, no four-card major")
        (say "sayc-respond-1nt-2nt" (.of 2 .notrump) "Invitational, no four-card major")))
    (say "sayc-respond-1nt-pass" .pass "Fewer than 8 HCP")

/-- The response to a major without support.  With four spades partner has opened hearts, since
spades would have been supported. -/
def newSuit : RuleTree :=
  ask "four-spades-over-1h" (.suitMin .spades 4)
    (say "sayc-respond-1s-over-1h" (.of 1 .spades) "Four or more spades, forcing")
    (ask "two-over-one-values" (.pointsMin 12)
      (ask "four-clubs" (.suitMin .clubs 4)
        (say "sayc-respond-2c-over-major" (.of 2 .clubs) "Two-over-one in clubs")
        (ask "four-diamonds" (.suitMin .diamonds 4)
          (say "sayc-respond-2d-over-major" (.of 2 .diamonds) "Two-over-one in diamonds")
          (stop (some "no-two-over-one-suit"))))
      (ask "major-1nt-range" (.pointsRange 6 10)
        (say "sayc-respond-1nt-over-major" (.of 1 .notrump) "6-10 HCP, no fit")
        (stop (some "major-response-gap"))))

/-- The response to one of a major. -/
def afterMajor : RuleTree :=
  ask "major-response-values" (.pointsMin 6)
    (ask "simple-raise" (.conjunction [.pointsRange 6 10, .holding (.partnerSuitSupport 3)])
      (workOut "sayc-respond-simple-raise" (.inPartnerFirst 2)
        "Three-card support, 6-10 HCP") <|
    ask "limit-raise" (.conjunction [.pointsRange 10 12, .holding (.partnerSuitSupport 4)])
      (workOut "sayc-respond-limit-raise" (.inPartnerFirst 3)
        "Four-card support, invitational") <|
    ask "game-raise" (.conjunction [.pointsMin 13, .holding (.partnerSuitSupport 4)])
      (workOut "sayc-respond-game-raise" (.inPartnerFirst 4)
        "Four-card support, game values")
      newSuit)
    (say "sayc-respond-pass-major" .pass "Fewer than 6 HCP")

/-- The response to one of a minor. -/
def afterMinor : RuleTree :=
  ask "minor-response-values" (.pointsMin 6)
    (ask "minor-four-hearts" (.suitMin .hearts 4)
      (say "sayc-respond-1h-over-minor" (.of 1 .hearts) "Four or more hearts, forcing") <|
    ask "minor-four-spades" (.suitMin .spades 4)
      (say "sayc-respond-1s-over-minor" (.of 1 .spades) "Four or more spades, forcing") <|
    ask "minor-1nt-range" (.pointsRange 6 10)
      (say "sayc-respond-1nt-over-minor" (.of 1 .notrump) "6-10 HCP, no four-card major") <|
    ask "minor-2nt-range" (.conjunction [.pointsRange 13 15, .holding .balanced])
      (say "sayc-respond-2nt-over-minor" (.of 2 .notrump) "13-15 HCP, balanced") <|
    ask "minor-3nt-range" (.conjunction [.pointsRange 16 18, .holding .balanced])
      (say "sayc-respond-3nt-over-minor" (.of 3 .notrump) "16-18 HCP, balanced")
      (stop (some "minor-response-gap")))
    (say "sayc-respond-pass-minor" .pass "Fewer than 6 HCP")

/-- Partner's opening was one of the given level in the strain. -/
def partnerOpenedOne (strain : Strain) : Condition :=
  .position (.partnerOpenedAt (Bid.plain { level := 1, strain }))

/-- The responder's turn. -/
def respondingTurn : RuleTree :=
  ask "responder-has-bid" (.position .seatHasBid) (stop (some "responder-rebid")) <|
  ask "partner-opened-1nt" (partnerOpenedOne .notrump) afterNotrump <|
  ask "partner-opened-1-major"
    (.disjunction [partnerOpenedOne .hearts, partnerOpenedOne .spades]) afterMajor <|
  ask "partner-opened-1-minor"
    (.disjunction [partnerOpenedOne .clubs, partnerOpenedOne .diamonds]) afterMinor
    (stop (some "partner-opening-not-covered"))

/-! ### Competing -/

/-- A suit of five cards that can be bid at the level, with points within bounds. -/
def overcallValues (minimum maximum level : Int) : Condition :=
  .conjunction [.pointsRange minimum maximum, .holding (.biddableSuit level 5)]

/-- The overcaller's turn. -/
def competingTurn : RuleTree :=
  ask "overcall-1nt" (.conjunction [.pointsRange 15 18, .holding .balanced])
    (say "sayc-overcall-1nt" (.of 1 .notrump) "15-18 HCP, balanced, stopper assumed") <|
  ask "overcall-one-level" (overcallValues 8 16 1)
    (workOut "sayc-overcall-1-level" (.overcall 1) "Five-card suit at the one level") <|
  ask "overcall-two-level" (overcallValues 10 16 2)
    (workOut "sayc-overcall-2-level" (.overcall 2) "Five-card suit at the two level")
    (say "sayc-pass-competitive" .pass "No suitable overcall")

/-- The tree of the system. -/
def tree : RuleTree :=
  numbered <|
    ask "no-bids-yet" (.position .noPriorBid) openingTurn <|
    ask "is-opener" (.position .isOpener) rebiddingTurn <|
    ask "is-responder" (.position .isResponder) respondingTurn <|
    ask "opponent-opened" (.position .opponentBid)
      (ask "overcaller-has-bid" (.position .seatHasBid)
        (say "sayc-pass-after-overcall" .pass "Already described the hand")
        competingTurn)
      (stop (some "no-natural-action"))

/-- The seat deals and is to open. -/
def opening (seat : Seat) : Option Auction := some (Auction.empty (some seat))

/-- A hand for every kind of turn. -/
def examples : List Example :=
  [ { description := "15-17 balanced in second seat opens 1NT"
      hand := .strongNotrump
      auction := .ofCalls .north [.pass]
      call := .of 1 .notrump
      bidName := "sayc-open-1nt" },
    { description := "7 HCP passes partner's 1NT"
      hand := .ofSuits [.king, .jack, .seven, .two] [.jack, .eight, .five, .three]
        [.queen, .four] [.nine, .six, .two]
      auction := .ofCalls .north [.of 1 .notrump, .pass]
      call := .pass
      bidName := "sayc-respond-1nt-pass" },
    { description := "Heart support and 6 HCP raise 1H to 2H"
      hand := .ofSuits [.king, .seven, .two] [.queen, .eight, .five, .three]
        [.jack, .four, .two] [.nine, .six, .two]
      auction := .ofCalls .north [.of 1 .hearts, .pass]
      call := .of 2 .hearts
      bidName := "sayc-respond-simple-raise" },
    { description := "Five good spades overcall 1H"
      hand := .ofSuits [.king, .queen, .jack, .seven, .two] [.eight, .three]
        [.queen, .four] [.nine, .six, .three, .two]
      auction := .ofCalls .east [.of 1 .hearts]
      call := .of 1 .spades
      bidName := "sayc-overcall-1-level" }]

/-- The system. -/
def convention : Convention where
  id := "sayc"
  name := "SAYC"
  description := "Standard American Yellow Card natural bidding system"
  kind := .constructive
  constraints := { dealer := .north }
  tree
  rules := tree.rules
  examples
  opening seat _ := .ok (opening seat)

end BridgeBidding.Sayc
