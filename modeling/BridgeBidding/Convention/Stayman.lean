import BridgeBidding.Auction.Play
import BridgeBidding.Condition.Named
import BridgeBidding.Convention
import BridgeBidding.Hand.Sample

/-!
# Stayman

After a notrump opening by partner, two clubs (three clubs over two notrump) ask for a four-card
major.  The opener shows hearts, or else spades, or denies both with diamonds.  The responder then
places the contract, and after a denial shows five cards in one major and four in the other by a
jump in the shorter one.
-/

set_option autoImplicit false
set_option relaxedAutoImplicit false

namespace BridgeBidding.Stayman

open RuleTree (ask say stop numbered)

/-- The opener has a notrump opening without a five-card major, the responder the values to ask and
a four-card major. -/
def constraints : DealConstraints where
  seats := [
    { seat := .north
      minimumPoints := some 15
      maximumPoints := some 17
      balanced := some true
      maximumLength := [(.spades, 4), (.hearts, 4)] },
    { seat := .south
      minimumPoints := some 8
      minimumLengthAny := [(.spades, 4), (.hearts, 4)] }]
  dealer := .north

/-- The responder's turn after the opening. -/
def askingTurn (suffix : String) (call : Call) : RuleTree :=
  ask ("hcp-8-plus" ++ suffix) (.pointsMin 8)
    (ask ("has-4-card-major" ++ suffix) (.anySuitMin [.spades, .hearts] 4)
      (say "stayman-ask" call "Asks opener for a four-card major")
      (stop (some ("no-major" ++ suffix))))
    (stop (some ("too-weak" ++ suffix)))

/-- The opener's turn after the ask. -/
def answeringTurn (suffix : String) (hearts spades diamonds : Call) : RuleTree :=
  ask ("has-4-hearts" ++ suffix) (.suitMin .hearts 4)
    (say "stayman-response-hearts" hearts "Shows four hearts")
    (ask ("has-4-spades" ++ suffix) (.suitMin .spades 4)
      (say "stayman-response-spades" spades "Shows four spades, denies four hearts")
      (say "stayman-response-denial" diamonds "Denies a four-card major"))

/-- The responder's turn without a fit in a major. -/
def withoutFit (name : String) : RuleTree :=
  ask name (.pointsMin 10)
    (say "stayman-rebid-no-fit" (.of 3 .notrump) "No major fit, game values")
    (say "stayman-rebid-no-fit-invite" (.of 2 .notrump) "No major fit, invitational")

/-- The responder's turn after the opener has shown a major. -/
def afterMajor (suit : Suit) (letter : String) : RuleTree :=
  ask ("fit-" ++ suit.name) (.suitMin suit 4)
    (ask ("game-hcp-fit-" ++ letter) (.pointsMin 10)
      (say "stayman-rebid-major-fit" (.of 4 suit.strain) "Major fit, game values")
      (say "stayman-rebid-major-fit-invite" (.of 3 suit.strain) "Major fit, invitational"))
    (withoutFit ("game-hcp-nofit-" ++ letter))

/-- The responder's turn after the opener has denied a major. -/
def afterDenial : RuleTree :=
  ask "smolen-hearts"
    (.conjunction [.pointsMin 10, .suitMin .spades 4, .suitMin .hearts 5])
    (say "stayman-rebid-smolen-hearts" (.of 3 .hearts)
      "Smolen: four spades and five hearts, game forcing")
    (ask "smolen-spades"
      (.conjunction [.pointsMin 10, .suitMin .spades 5, .suitMin .hearts 4])
      (say "stayman-rebid-smolen-spades" (.of 3 .spades)
        "Smolen: five spades and four hearts, game forcing")
      (withoutFit "game-hcp-denial"))

/-- The calls up to the opener's turn to answer over one notrump. -/
def asked : List Call := [.of 1 .notrump, .pass, .of 2 .clubs, .pass]

/-- The tree of the convention. -/
def tree : RuleTree :=
  numbered <|
    ask "after-1nt-p" (.auctionIs [.of 1 .notrump, .pass]) (askingTurn "" (.of 2 .clubs)) <|
    ask "after-2nt-p" (.auctionIs [.of 2 .notrump, .pass]) (askingTurn "-2nt" (.of 3 .clubs)) <|
    ask "after-1nt-p-2c-p" (.auctionIs asked)
      (answeringTurn "" (.of 2 .hearts) (.of 2 .spades) (.of 2 .diamonds)) <|
    ask "after-2nt-p-3c-p" (.auctionIs [.of 2 .notrump, .pass, .of 3 .clubs, .pass])
      (answeringTurn "-2nt" (.of 3 .hearts) (.of 3 .spades) (.of 3 .diamonds)) <|
    ask "after-2h-response" (.auctionIs (asked ++ [.of 2 .hearts, .pass]))
      (afterMajor .hearts "h") <|
    ask "after-2s-response" (.auctionIs (asked ++ [.of 2 .spades, .pass]))
      (afterMajor .spades "s") <|
    ask "after-2d-denial" (.auctionIs (asked ++ [.of 2 .diamonds, .pass]))
      afterDenial
      (stop (some "not-stayman-auction"))

/-- North opens one notrump and east passes.  South is then to act, and east will be once the others
have called. -/
def opening (seat : Seat) : Option Auction :=
  match seat with
  | .south | .east => some (Auction.ofCalls .north [.of 1 .notrump, .pass])
  | _ => none

/-- Hands for every turn. -/
def examples : List Example :=
  [ { description := "8 HCP with four spades and four hearts asks with 2C"
      hand := .ofSuits [.king, .jack, .seven, .two] [.queen, .eight, .five, .three]
        [.queen, .four] [.nine, .six, .two]
      auction := .ofCalls .north [.of 1 .notrump, .pass]
      call := .of 2 .clubs
      bidName := "stayman-ask" },
    { description := "Opener with four hearts shows them first"
      hand := .strongNotrump
      auction := .ofCalls .north asked
      call := .of 2 .hearts
      bidName := "stayman-response-hearts" },
    { description := "Heart fit with 10 HCP bids game"
      hand := .ofSuits [.king, .nine, .seven, .two] [.ace, .queen, .five, .three]
        [.jack, .four] [.nine, .six, .two]
      auction := .ofCalls .north (asked ++ [.of 2 .hearts, .pass])
      call := .of 4 .hearts
      bidName := "stayman-rebid-major-fit" },
    { description := "Four spades and five hearts after a denial jumps to 3H (Smolen)"
      hand := .ofSuits [.ace, .jack, .seven, .two] [.king, .queen, .eight, .five, .three]
        [.four] [.nine, .six, .two]
      auction := .ofCalls .north (asked ++ [.of 2 .diamonds, .pass])
      call := .of 3 .hearts
      bidName := "stayman-rebid-smolen-hearts" }]

/-- The convention. -/
def convention : Convention where
  id := "stayman"
  name := "Stayman"
  description := "Stayman convention: 2C response to 1NT asking for 4-card majors"
  kind := .asking
  constraints
  tree
  rules := tree.rules
  examples
  opening seat _ := .ok (opening seat)

end BridgeBidding.Stayman
