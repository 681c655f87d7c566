import BridgeBidding.Auction.Play
import BridgeBidding.Condition.Named
import BridgeBidding.Convention
import BridgeBidding.Hand.Sample

/-!
# Landy

Two clubs over the opponents' one notrump show both majors, five cards in one and four in the other
at least.  Partner picks a major, relays with two diamonds, passes with long clubs, or asks with two
notrump; then the overcaller describes shape and strength.
-/

set_option autoImplicit false
set_option relaxedAutoImplicit false

namespace BridgeBidding.Landy

open RuleTree (ask say stop numbered)

/-- Five cards in one major and four in the other. -/
def hasBothMajors (shape : Shape) : Bool :=
  (decide (5 ≤ shape.spades) && decide (4 ≤ shape.hearts)) ||
    (decide (5 ≤ shape.hearts) && decide (4 ≤ shape.spades))

/-- East has a notrump opening, south both majors and ten points or more. -/
def constraints : DealConstraints where
  seats := [
    { seat := .east
      minimumPoints := some 15
      maximumPoints := some 17
      balanced := some true },
    { seat := .south
      minimumPoints := some 10
      extra := some fun hand ↦ hasBothMajors hand.shape }]
  dealer := .east

/-- The overcaller's turn after two notrump. -/
def describingTurn : RuleTree :=
  ask "5-5-majors" (.conjunction [.suitMin .spades 5, .suitMin .hearts 5])
    (ask "max-12-plus" (.pointsMin 12)
      (say "landy-rebid-3nt" (.of 3 .notrump) "5-5 in the majors, maximum")
      (say "landy-rebid-3s" (.of 3 .spades) "5-5 in the majors, medium"))
    (ask "max-12-plus-54" (.pointsMin 12)
      (say "landy-rebid-3d" (.of 3 .diamonds) "5-4 in the majors, maximum")
      (say "landy-rebid-3c" (.of 3 .clubs) "5-4 in the majors, medium"))

/-- Partner's turn after the overcall. -/
def respondingTurn : RuleTree :=
  ask "has-12-plus" (.pointsMin 12)
    (say "landy-response-2nt" (.of 2 .notrump)
      "Game interest, asks overcaller to describe") <|
  ask "invite-3h" (.conjunction [.pointsRange 10 12, .suitMin .hearts 4])
    (say "landy-response-3h" (.of 3 .hearts) "Invitational with four hearts") <|
  ask "invite-3s" (.conjunction [.pointsRange 10 12, .suitMin .spades 4])
    (say "landy-response-3s" (.of 3 .spades) "Invitational with four spades") <|
  ask "has-5-clubs" (.suitMin .clubs 5)
    (say "landy-response-pass" .pass "Long clubs, happy to play 2C") <|
  ask "has-4-hearts" (.suitMin .hearts 4)
    (say "landy-response-2h" (.of 2 .hearts) "Natural signoff in hearts") <|
  ask "has-4-spades" (.suitMin .spades 4)
    (say "landy-response-2s" (.of 2 .spades) "Natural signoff in spades")
    (say "landy-response-2d" (.of 2 .diamonds)
      "Relay: no preference, asks for the longer major")

/-- The calls up to partner's turn after the overcall. -/
def overcalled : List Call := [.of 1 .notrump, .of 2 .clubs, .pass]

/-- The tree of the convention. -/
def tree : RuleTree :=
  numbered <|
    ask "after-1nt" (.auctionIs [.of 1 .notrump])
      (ask "both-majors" .bothMajors
        (say "landy-2c" (.of 2 .clubs) "Shows both majors, at least 5-4")
        (stop (some "not-suited"))) <|
    ask "after-1nt-2c-p-2nt-p" (.auctionIs (overcalled ++ [.of 2 .notrump, .pass]))
      describingTurn <|
    ask "after-1nt-2c-p" (.auctionIs overcalled)
      respondingTurn
      (stop (some "not-landy-auction"))

/-- South overcalls directly after east's one notrump. -/
def opening (seat : Seat) : Option Auction :=
  if seat = .south then some (Auction.ofCalls .east [.of 1 .notrump]) else none

/-- Hands for the overcall and for an answer. -/
def examples : List Example :=
  [ { description := "Five spades and four hearts overcalls 2C"
      hand := .bothMajors
      auction := .ofCalls .east [.of 1 .notrump]
      call := .of 2 .clubs
      bidName := "landy-2c" },
    { description := "Advancer with four hearts signs off in 2H"
      hand := .ofSuits [.nine, .eight, .two] [.queen, .eight, .seven, .three]
        [.king, .eight, .four] [.jack, .nine, .two]
      auction := .ofCalls .east overcalled
      call := .of 2 .hearts
      bidName := "landy-response-2h" }]

/-- The convention. -/
def convention : Convention where
  id := "landy"
  name := "Landy"
  description := "Landy: 2C overcall over opponent's 1NT showing both major suits (5-4+)"
  kind := .defensive
  constraints
  tree
  rules := tree.rules
  examples
  opening seat _ := .ok (opening seat)

end BridgeBidding.Landy
