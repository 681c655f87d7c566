import BridgeBidding.Auction.Play
import BridgeBidding.Condition.Named
import BridgeBidding.Convention
import BridgeBidding.Hand.Sample

/-!
# Gerber

A jump to four clubs over a notrump opening asks for aces, and five clubs then ask for kings.  The
opener answers in steps, and the responder places the contract in notrump by what the partnership
holds.
-/

set_option autoImplicit false
set_option relaxedAutoImplicit false

namespace BridgeBidding.Gerber

open RuleTree (ask say workOut stop numbered)

/-- The opener has a notrump opening, the responder sixteen points or more. -/
def constraints : DealConstraints where
  seats := [
    { seat := .north
      minimumPoints := some 15
      maximumPoints := some 17
      balanced := some true },
    { seat := .south
      minimumPoints := some 16 }]
  dealer := .north

/-- The contract after the answer about aces: seven with all four, six with three or more, else four
notrump, or five over an answer of four spades. -/
def placeAfterAces : CallRule := fun context ↦
  let aces := AceAsking.totalAces context
  if aces = 4 then
    .ok (.of 7 .notrump)
  else if 3 ≤ aces then
    .ok (.of 6 .notrump)
  else
    match context.auction.calls[4]? with
    | none => .error .auctionTooShort
    | some answer => .ok (if answer = .of 4 .spades then .of 5 .notrump else .of 4 .notrump)

/-- The contract after the answer about kings: seven with all aces and three kings or more, six with
three aces or more, else five. -/
def placeAfterKings : CallRule := fun context ↦
  let aces := AceAsking.totalAces context
  let kings := AceAsking.totalKings context
  if 4 ≤ aces ∧ 3 ≤ kings then
    .ok (.of 7 .notrump)
  else if 3 ≤ aces then
    .ok (.of 6 .notrump)
  else
    .ok (.of 5 .notrump)

/-- The opener's turn to answer: the calls for three, two, one, and none or four. -/
def answeringTurn (start noun : String) (count : Value → HandTest)
    (notrump spades hearts diamonds : Call) : RuleTree :=
  ask (noun ++ "-3") (.holding (count 3))
    (say (start ++ "-three") notrump ("Shows three " ++ noun ++ "s"))
    (ask (noun ++ "-2") (.holding (count 2))
      (say (start ++ "-two") spades ("Shows two " ++ noun ++ "s"))
      (ask (noun ++ "-1") (.holding (count 1))
        (say (start ++ "-one") hearts ("Shows one " ++ noun))
        (say (start ++ "-zero-four") diamonds ("Shows zero or four " ++ noun ++ "s"))))

/-- The responder's turn after the opening. -/
def askingTurn : RuleTree :=
  ask "hcp-and-no-void" (.conjunction [.pointsMin 16, .holding .noVoid])
    (say "gerber-ask" (.of 4 .clubs) "Asks opener for aces")
    (stop (some "not-slam-values"))

/-- The responder's turn after the answer about aces. -/
def afterAces : RuleTree :=
  ask "king-ask-check" (.holding .askForKings)
    (say "gerber-king-ask" (.of 5 .clubs) "Partnership holds 3+ aces; asks for kings")
    (ask "signoff-check" (.holding .answerHeard)
      (workOut "gerber-signoff" placeAfterAces "Places the contract after the ace response")
      (stop none))

/-- The responder's turn after the answer about kings. -/
def afterKings : RuleTree :=
  ask "slam-signoff-check" (.holding .answerHeard)
    (workOut "gerber-slam-signoff" placeAfterKings "Places the slam after the king response")
    (stop none)

/-- The tree of the convention. -/
def tree : RuleTree :=
  numbered <|
    ask "after-nt-opening" (.auctionIsAny AceAsking.afterOpening) askingTurn <|
    ask "after-ace-ask" (.auctionIsAny AceAsking.afterAceAsk)
      (answeringTurn "gerber-response" "ace" .aceCount
        (.of 4 .notrump) (.of 4 .spades) (.of 4 .hearts) (.of 4 .diamonds)) <|
    ask "after-king-ask" (.auctionIsAny AceAsking.afterKingAsk)
      (answeringTurn "gerber-king-response" "king" .kingCount
        (.of 5 .notrump) (.of 5 .spades) (.of 5 .hearts) (.of 5 .diamonds)) <|
    ask "after-ace-response" (.auctionIsAny AceAsking.afterAceAnswer) afterAces <|
    ask "after-king-response" (.auctionIsAny AceAsking.afterKingAnswer) afterKings
      (stop (some "not-gerber-auction"))

/-- North opens one notrump and east passes.  South is then to act, and east will be once the others
have called. -/
def opening (seat : Seat) : Option Auction :=
  match seat with
  | .south | .east => some (Auction.ofCalls .north [.of 1 .notrump, .pass])
  | _ => none

/-- Hands for the ask and for an answer. -/
def examples : List Example :=
  [ { description := "22 HCP opposite a 1NT opening asks for aces"
      hand := .ofSuits [.ace, .king, .queen, .two] [.king, .queen, .three]
        [.ace, .jack, .four] [.king, .nine, .two]
      auction := .ofCalls .north [.of 1 .notrump, .pass]
      call := .of 4 .clubs
      bidName := "gerber-ask" },
    { description := "Opener with two aces answers 4S"
      hand := .strongNotrump
      auction := .ofCalls .north [.of 1 .notrump, .pass, .of 4 .clubs, .pass]
      call := .of 4 .spades
      bidName := "gerber-response-two" }]

/-- The convention. -/
def convention : Convention where
  id := "gerber"
  name := "Gerber"
  description := "Gerber convention: 4C response to NT opening asking for aces, then 5C for kings"
  kind := .asking
  constraints
  tree
  rules := tree.rules
  examples
  opening seat _ := .ok (opening seat)

end BridgeBidding.Gerber
