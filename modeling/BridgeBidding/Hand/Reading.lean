import BridgeBidding.Hand
import BridgeBidding.Text.Blank
import BridgeBidding.Text.Capital
import BridgeBidding.Text.Split

/-!
# Reading cards and hands

A card is written as its suit and its rank.  A hand is written as a list of cards, or as one text
with four groups of ranks between dots, from spades down to clubs; an empty group or a lone hyphen
is a void.  Case does not matter, nor do blanks around a card or around the text of a hand.
-/

set_option autoImplicit false
set_option relaxedAutoImplicit false

namespace BridgeBidding

/-- The card that capitals stand for. -/
def Card.ofCapitals? : List Char → Option Card
  | [suitLetter, rankLetter] => do
    let suit ← Suit.ofLetter? suitLetter
    let rank ← Rank.ofLetter? rankLetter
    return { suit, rank }
  | _ => none

/-- The card that a text stands for. -/
def Card.read (written : String) : Except HandError Card :=
  match Card.ofCapitals? (Text.capitals (Text.trim written.toList)) with
  | some card => .ok card
  | none => .error (.unreadableCard written)

namespace Hand

/-- The cards that texts stand for, up to the first that stands for none. -/
def readCards : List String → Except HandError (List Card)
  | [] => .ok []
  | written :: rest => do
    let card ← Card.read written
    let cards ← readCards rest
    return card :: cards

/-- The hand that a list of cards stands for. -/
def readList (written : List String) : Except HandError Hand := do
  ofCards (← readCards written)

/-- The cards that a group of ranks stands for, each still to be read. -/
def groupCodes (suit : Suit) (group : List Char) : List String :=
  if group = ['-'] then [] else group.map fun rank ↦ String.ofList [suit.letter, rank]

/-- The hand that a text of four groups stands for. -/
def read (written : String) : Except HandError Hand :=
  match Text.splitOn '.' (Text.trim written.toList) with
  | [spades, hearts, diamonds, clubs] =>
    readList (groupCodes .spades spades ++ groupCodes .hearts hearts ++
      groupCodes .diamonds diamonds ++ groupCodes .clubs clubs)
  | _ => .error (.notFourSuits written)

end Hand

end BridgeBidding
