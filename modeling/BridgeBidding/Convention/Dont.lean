import BridgeBidding.Auction.Play
import BridgeBidding.Condition.Named
import BridgeBidding.Convention
import BridgeBidding.Hand.Sample

/-!
# DONT

Disturbing the opponents' one notrump: two hearts show both majors, two diamonds diamonds and a
major, two clubs clubs and a higher suit, two spades are natural, and a double shows one long suit.
Partner passes with support and else bids the next step; after a double partner relays with two
clubs, and the doubler passes or bids the long suit.
-/

set_option autoImplicit false
set_option relaxedAutoImplicit false

namespace BridgeBidding.Dont

open RuleTree (ask say stop numbered)

/-- A six-card suit, or five cards in one suit and four in another. -/
def hasShape (shape : Shape) : Bool :=
  decide (6 ≤ shape.length shape.longest) ||
    (decide (5 ≤ shape.length shape.longest) && decide (4 ≤ shape.length shape.second))

/-- East has a notrump opening, south the shape for an overcall and eight to fifteen points. -/
def constraints : DealConstraints where
  seats := [
    { seat := .east
      minimumPoints := some 15
      maximumPoints := some 17
      balanced := some true },
    { seat := .south
      minimumPoints := some 8
      maximumPoints := some 15
      extra := some fun hand ↦ hasShape hand.shape }]
  dealer := .east

/-- The overcaller's turn. -/
def overcallingTurn : RuleTree :=
  ask "both-majors" .bothMajors
    (say "dont-2h" (.of 2 .hearts) "2H showing both majors") <|
  ask "diamonds-and-major" .diamondsAndMajor
    (say "dont-2d" (.of 2 .diamonds) "2D showing diamonds and a major") <|
  ask "clubs-and-higher" .clubsAndHigher
    (say "dont-2c" (.of 2 .clubs) "2C showing clubs and a higher-ranking suit") <|
  ask "six-spades" (.suitMin .spades 6)
    (say "dont-2s" (.of 2 .spades) "2S natural showing 6+ spades") <|
  ask "single-suited" (.holding .singleLongSuit)
    (say "dont-double" .double "Double showing a one-suiter other than spades")
    (stop (some "no-dont-shape"))

/-- The calls up to partner's turn after an overcall. -/
def overcalled (overcall : Call) : List Call := [.of 1 .notrump, overcall, .pass]

/-- Partner passes with support for the suit overcalled. -/
def advancingTurn (overcall : Call) (suit : Suit) (letter : String) (minimum : Int)
    (otherwise : RuleTree) : RuleTree :=
  ask (suit.name ++ "-support")
    (.holding (.supportAfter (.ofCalls (overcalled overcall)) suit minimum))
    (say ("dont-advance-pass-" ++ letter) .pass
      ("Pass with " ++ toString minimum ++ "+ " ++ suit.name))
    otherwise

/-- Partner bids the next step, which asks for the other suit. -/
def nextStep (letter : String) (call : Call) : RuleTree :=
  say ("dont-advance-next-step-" ++ letter) call
    ("Next step " ++ call.text ++ ", asks for partner's other suit")

/-- The doubler's turn after the relay. -/
def correctingTurn : RuleTree :=
  ask "six-clubs" (.suitMin .clubs 6)
    (say "dont-rebid-pass" .pass "Long suit is clubs, pass the relay") <|
  ask "six-hearts" (.suitMin .hearts 6)
    (say "dont-rebid-2h" (.of 2 .hearts) "Long suit is hearts") <|
  ask "six-diamonds" (.suitMin .diamonds 6)
    (say "dont-rebid-2d" (.of 2 .diamonds) "Long suit is diamonds")
    (stop (some "no-long-suit"))

/-- The tree of the convention. -/
def tree : RuleTree :=
  numbered <|
    ask "after-1nt" (.auctionIs [.of 1 .notrump]) overcallingTurn <|
    ask "after-1nt-2h-p" (.auctionIs (overcalled (.of 2 .hearts)))
      (advancingTurn (.of 2 .hearts) .hearts "h" 3 (nextStep "h" (.of 2 .spades))) <|
    ask "after-1nt-2s-p" (.auctionIs (overcalled (.of 2 .spades)))
      (advancingTurn (.of 2 .spades) .spades "s" 2 (stop (some "no-spades-tolerance"))) <|
    ask "after-1nt-2d-p" (.auctionIs (overcalled (.of 2 .diamonds)))
      (advancingTurn (.of 2 .diamonds) .diamonds "d" 3 (nextStep "d" (.of 2 .hearts))) <|
    ask "after-1nt-2c-p" (.auctionIs (overcalled (.of 2 .clubs)))
      (advancingTurn (.of 2 .clubs) .clubs "c" 3 (nextStep "c" (.of 2 .diamonds))) <|
    ask "after-1nt-x-p" (.auctionIs (overcalled .double))
      (say "dont-advance-relay" (.of 2 .clubs) "Relay 2C, asks for partner's suit") <|
    ask "after-1nt-x-p-2c-p" (.auctionIs (overcalled .double ++ [.of 2 .clubs, .pass]))
      correctingTurn
      (stop (some "not-dont-auction"))

/-- South overcalls directly after east's one notrump. -/
def opening (seat : Seat) : Option Auction :=
  if seat = .south then some (Auction.ofCalls .east [.of 1 .notrump]) else none

/-- Hands for overcalls and for a correction. -/
def examples : List Example :=
  [ { description := "Five spades and four hearts overcalls 2H"
      hand := .bothMajors
      auction := .ofCalls .east [.of 1 .notrump]
      call := .of 2 .hearts
      bidName := "dont-2h" },
    { description := "Six diamonds and nothing else doubles"
      hand := .ofSuits [.eight, .two] [.king, .four]
        [.ace, .queen, .jack, .eight, .seven, .four] [.king, .nine, .three]
      auction := .ofCalls .east [.of 1 .notrump]
      call := .double
      bidName := "dont-double" },
    { description := "Doubler with six diamonds corrects the relay to 2D"
      hand := .ofSuits [.eight, .two] [.king, .four]
        [.ace, .queen, .jack, .eight, .seven, .four] [.king, .nine, .three]
      auction := .ofCalls .east (overcalled .double ++ [.of 2 .clubs, .pass])
      call := .of 2 .diamonds
      bidName := "dont-rebid-2d" }]

/-- The convention. -/
def convention : Convention where
  id := "dont"
  name := "DONT"
  description := "DONT (Disturbing Opponent's No Trump): overcalls against 1NT openings"
  kind := .defensive
  constraints
  tree
  rules := tree.rules
  examples
  opening seat _ := .ok (opening seat)

end BridgeBidding.Dont
