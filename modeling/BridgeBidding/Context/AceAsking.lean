import BridgeBidding.Auction.Pattern
import BridgeBidding.Context

/-!
# Asking for aces and kings

After a notrump opening a bid of four clubs asks the opener for aces, and five clubs asks for kings.
The opener answers in steps: diamonds for none or four, hearts for one, spades for two, notrump for
three.  This module lists the auctions of that dialogue with silent opponents, and what a responder
hears in the opener's answers: since nobody can hold more than four, an answer of none or four means
four exactly if the responder holds none.
-/

set_option autoImplicit false
set_option relaxedAutoImplicit false

namespace BridgeBidding.AceAsking

/-- The notrump openings that may be asked. -/
def openings : List Call := [.of 1 .notrump, .of 2 .notrump]

/-- The ask for aces. -/
def aceAsk : Call := .of 4 .clubs

/-- The ask for kings. -/
def kingAsk : Call := .of 5 .clubs

/-- The strains of the answers. -/
def answerStrains : List Strain := [.diamonds, .hearts, .spades, .notrump]

/-- The answers to the ask for aces. -/
def aceAnswers : List Call :=
  answerStrains.map fun strain ↦ .of 4 strain

/-- The answers to the ask for kings. -/
def kingAnswers : List Call :=
  answerStrains.map fun strain ↦ .of 5 strain

/-- The auctions in which the responder has just heard the opening. -/
def afterOpening : List (List Call) :=
  openings.map fun opening ↦ [opening, .pass]

/-- The auctions in which the opener has just heard the ask for aces. -/
def afterAceAsk : List (List Call) :=
  openings.map fun opening ↦ [opening, .pass, aceAsk, .pass]

/-- The auctions in which the responder has just heard the answer about aces. -/
def afterAceAnswer : List (List Call) :=
  afterAceAsk.flatMap fun calls ↦ aceAnswers.map fun answer ↦ calls ++ [answer, .pass]

/-- The auctions in which the opener has just heard the ask for kings. -/
def afterKingAsk : List (List Call) :=
  afterAceAnswer.map fun calls ↦ calls ++ [kingAsk, .pass]

/-- The auctions in which the responder has just heard the answer about kings. -/
def afterKingAnswer : List (List Call) :=
  afterKingAsk.flatMap fun calls ↦ kingAnswers.map fun answer ↦ calls ++ [answer, .pass]

/-- The auction is one of the listed ones. -/
def isAt (auctions : List (List Call)) (auction : Auction) : Bool :=
  auctions.contains auction.calls

/-- The bid at a place of the auction, if it is on the level. -/
def answerAt? (auction : Auction) (place : Nat) (level : Level) : Option Bid := do
  let entry ← auction.entries[place]?
  let bid ← entry.bid?
  if bid.level = level then some bid else none

/-- The number that an answer shows to a listener who holds `own`. -/
def shown (answer : Bid) (own : Nat) : Nat :=
  match answer.strain with
  | .diamonds => if own = 0 then 4 else 0
  | .hearts => 1
  | .spades => 2
  | .notrump => 3
  | .clubs => 0

/-- The aces that the opener has shown, none before the answer. -/
def openerAces (context : Context) : Nat :=
  match answerAt? context.auction 4 4 with
  | some answer => shown answer context.hand.aces
  | none => 0

/-- The kings that the opener has shown, none before the answer. -/
def openerKings (context : Context) : Nat :=
  match answerAt? context.auction 8 5 with
  | some answer => shown answer context.hand.kings
  | none => 0

/-- The aces of the partnership, as the responder hears them. -/
def totalAces (context : Context) : Nat := context.hand.aces + openerAces context

/-- The kings of the partnership, as the responder hears them. -/
def totalKings (context : Context) : Nat := context.hand.kings + openerKings context

end BridgeBidding.AceAsking
