import BridgeBidding.Auction.Play
import BridgeBidding.Condition.Named
import BridgeBidding.Convention
import BridgeBidding.Convention.WorkedOut

/-!
# Bergen raises

Jump responses to one of a major with four-card support: three clubs with seven to nine points,
three diamonds with ten to twelve, a jump to three of the major with fewer, to four with more.
-/

set_option autoImplicit false
set_option relaxedAutoImplicit false

namespace BridgeBidding.Bergen

open RuleTree (ask say workOut stop numbered)

/-- The opener has a five-card major and opening values, the responder a four-card major and six to
twelve points. -/
def constraints : DealConstraints where
  seats := [
    { seat := .north
      minimumPoints := some 12
      maximumPoints := some 21
      minimumLengthAny := [(.spades, 5), (.hearts, 5)] },
    { seat := .south
      minimumPoints := some 6
      maximumPoints := some 12
      minimumLengthAny := [(.spades, 4), (.hearts, 4)] }]
  dealer := .north

/-- The auction of an opening of one in the strain and a pass. -/
def opened (strain : Strain) : List Call := [.of 1 strain, .pass]

/-- The responder's turn with support. -/
def raisingTurn : RuleTree :=
  ask "game-values" (.pointsMin 13)
    (workOut "bergen-game-raise" (.raiseMajor 4)
      "Game raise: 13+ HCP with four-card support")
    (ask "limit-values" (.pointsRange 10 12)
      (say "bergen-limit-raise" (.of 3 .diamonds)
        "Limit raise: 10-12 HCP with four-card support")
      (ask "constructive-values" (.pointsRange 7 9)
        (say "bergen-constructive-raise" (.of 3 .clubs)
          "Constructive raise: 7-9 HCP with four-card support")
        (workOut "bergen-preemptive-raise" (.raiseMajor 3)
          "Preemptive raise: 0-6 HCP with four-card support")))

/-- The tree of the convention. -/
def tree : RuleTree :=
  numbered <|
    ask "after-1m-p" (.auctionIsAny [opened .hearts, opened .spades])
      (ask "support-4-plus" (.holding (.majorSupport 4 true))
        raisingTurn
        (stop (some "no-four-card-support")))
      (stop (some "not-major-opening"))

/-- The major that a hand opens: its longer one, spades with five of each. -/
def openedBy (hand : Hand) : Strain :=
  if 5 ≤ hand.shape.spades ∧ hand.shape.hearts ≤ hand.shape.spades then .spades else .hearts

/-- North opens a major, that of its hand if there is a deal and else hearts, and east passes. -/
def opening (seat : Seat) (deal : Option Deal) : Except DealError (Option Auction) :=
  if seat = .south then
    match deal with
    | none => .ok (some (Auction.ofCalls .north (opened .hearts)))
    | some deal => do
      let hand ← deal.hand .north
      return some (Auction.ofCalls .north (opened (openedBy hand)))
  else
    .ok none

/-- A hand for every raise. -/
def examples : List Example :=
  [ { description := "15 HCP with four hearts raises to game"
      hand := .ofSuits [.king, .two] [.ace, .queen, .seven, .three]
        [.king, .jack, .eight, .four] [.queen, .nine, .two]
      auction := .ofCalls .north (opened .hearts)
      call := .of 4 .hearts
      bidName := "bergen-game-raise" },
    { description := "11 HCP with four hearts shows a limit raise"
      hand := .ofSuits [.king, .two] [.queen, .eight, .seven, .three]
        [.king, .jack, .eight, .four] [.queen, .nine, .two]
      auction := .ofCalls .north (opened .hearts)
      call := .of 3 .diamonds
      bidName := "bergen-limit-raise" },
    { description := "8 HCP with four hearts shows a constructive raise"
      hand := .ofSuits [.eight, .two] [.queen, .eight, .seven, .three]
        [.king, .jack, .eight, .four] [.queen, .nine, .two]
      auction := .ofCalls .north (opened .hearts)
      call := .of 3 .clubs
      bidName := "bergen-constructive-raise" },
    { description := "3 HCP with four spades preempts in spades"
      hand := .ofSuits [.queen, .eight, .seven, .three] [.eight, .two]
        [.jack, .eight, .seven, .four, .two] [.nine, .two]
      auction := .ofCalls .north (opened .spades)
      call := .of 3 .spades
      bidName := "bergen-preemptive-raise" }]

/-- The convention. -/
def convention : Convention where
  id := "bergen-raises"
  name := "Bergen Raises"
  description := "Bergen Raises: coded responses to 1M opening showing support and strength"
  kind := .constructive
  constraints
  tree
  rules := tree.rules
  examples
  opening

end BridgeBidding.Bergen
