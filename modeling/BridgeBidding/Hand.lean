import BridgeBidding.Card

/-!
# Hands

A hand is a list of thirteen different cards, in the order in which they were given.  `Hand.ofCards`
accepts any list of cards that is one.
-/

set_option autoImplicit false
set_option relaxedAutoImplicit false

namespace BridgeBidding

/-- Thirteen different cards. -/
structure Hand where
  cards : List Card
  length_cards : cards.length = 13
  nodup_cards : cards.Nodup
  deriving DecidableEq

/-- Why cards or their notation make no hand. -/
inductive HandError where
  | unreadableCard (given : String)
  | notFourSuits (given : String)
  | wrongCount (count : Nat)
  | repeated (cards : List String)

namespace HandError

/-- The message of the error. -/
def message : HandError → String
  | unreadableCard given => "Invalid card notation: " ++ given
  | notFourSuits given => "Hand string needs four dot-separated suits: " ++ given
  | wrongCount count => "Hand must have exactly 13 cards, got " ++ toString count
  | repeated cards => "Duplicate card in hand: " ++ String.intercalate ", " cards

/-- The number of cards counted, if the error is about the cards as a whole. -/
def cardCount? : HandError → Option Nat
  | wrongCount count => some count
  | repeated _ => some 13
  | _ => none

/-- The notation at fault, if the error is about notation. -/
def raw? : HandError → Option String
  | unreadableCard given | notFourSuits given => some given
  | _ => none

end HandError

namespace Hand

/-- The texts of the cards that occur more than once, each once, in alphabetical order. -/
def repeatedTexts (cards : List Card) : List String :=
  ((cards.filter fun card ↦ decide (1 < cards.count card)).map Card.text).eraseDups.mergeSort

/-- The hand of the cards.  Their number is examined before their being different. -/
def ofCards (cards : List Card) : Except HandError Hand :=
  if hlength : cards.length = 13 then
    if hnodup : cards.Nodup then
      .ok { cards, length_cards := hlength, nodup_cards := hnodup }
    else
      .error (.repeated (repeatedTexts cards))
  else
    .error (.wrongCount cards.length)

/-- The hand of four lists of ranks, given from spades down to clubs. -/
def ofSuits (spades hearts diamonds clubs : List Rank)
    (hlength : (spades ++ hearts ++ diamonds ++ clubs).length = 13 := by decide)
    (hnodup : spades.Nodup ∧ hearts.Nodup ∧ diamonds.Nodup ∧ clubs.Nodup := by decide) : Hand where
  cards :=
    spades.map (Card.mk .spades) ++ hearts.map (Card.mk .hearts) ++
      diamonds.map (Card.mk .diamonds) ++ clubs.map (Card.mk .clubs)
  length_cards := by simpa using hlength
  nodup_cards := by
    obtain ⟨hspades, hhearts, hdiamonds, hclubs⟩ := hnodup
    have hmap {ranks : List Rank} (suit : Suit) (h : ranks.Nodup) :
        (ranks.map (Card.mk suit)).Nodup :=
      List.pairwise_map.2 (h.imp fun hne heq ↦ hne (Card.mk.inj heq).2)
    simp only [List.append_assoc, List.nodup_append, List.mem_map, List.mem_append]
    refine ⟨hmap _ hspades, ⟨hmap _ hhearts, ⟨hmap _ hdiamonds, hmap _ hclubs, ?_⟩, ?_⟩, ?_⟩ <;>
      grind

/-- The cards of one suit, in the order of the hand. -/
def inSuit (hand : Hand) (suit : Suit) : List Card :=
  hand.cards.filter fun card ↦ decide (card.suit = suit)

/-- How many cards of a rank the hand holds. -/
def countRank (hand : Hand) (rank : Rank) : Nat :=
  hand.cards.countP fun card ↦ decide (card.rank = rank)

/-- The ranks held in a suit, from the highest to the lowest. -/
def ranksIn (hand : Hand) (suit : Suit) : List Rank :=
  Rank.all.reverse.filter fun rank ↦ hand.cards.contains { suit, rank }

/-- The suit with the ranks held in it; a void is the suit alone. -/
def suitText (hand : Hand) (suit : Suit) : String :=
  String.ofList (suit.letter :: (hand.ranksIn suit).map Rank.letter)

/-- The hand on one line, suit by suit. -/
def text (hand : Hand) : String :=
  String.intercalate " " (Suit.all.map hand.suitText)

end Hand

end BridgeBidding
