import BridgeBidding.Bid

/-!
# Cards

Suits from spades down to clubs, ranks from the two up to the ace, and the deck of all fifty-two
cards.  Only the four honours count points: four for an ace, three for a king, two for a queen, one
for a jack.
-/

set_option autoImplicit false
set_option relaxedAutoImplicit false

namespace BridgeBidding

/-- A suit of cards. -/
inductive Suit where
  | spades
  | hearts
  | diamonds
  | clubs
  deriving DecidableEq, Repr

namespace Suit

/-- The suits in the order in which a shape lists them. -/
def all : List Suit := [spades, hearts, diamonds, clubs]

/-- The place of the suit in a shape. -/
def index : Suit → Nat
  | spades => 0
  | hearts => 1
  | diamonds => 2
  | clubs => 3

/-- The strain in which the suit is trumps. -/
def strain : Suit → Strain
  | spades => .spades
  | hearts => .hearts
  | diamonds => .diamonds
  | clubs => .clubs

/-- The character that stands for the suit. -/
def letter : Suit → Char
  | spades => 'S'
  | hearts => 'H'
  | diamonds => 'D'
  | clubs => 'C'

/-- The name of the suit in a sentence. -/
def name : Suit → String
  | spades => "spades"
  | hearts => "hearts"
  | diamonds => "diamonds"
  | clubs => "clubs"

/-- The suit that a character stands for. -/
def ofLetter? (letter : Char) : Option Suit :=
  all.find? fun suit ↦ suit.letter == letter

/-- The suit that a value gives by its letter. -/
def ofValue? : Value → Option Suit
  | .text content =>
    match content.toList with
    | [letter] => ofLetter? letter
    | _ => none
  | _ => none

end Suit

namespace Strain

/-- The suit of the strain, if it is not notrump. -/
def suit? : Strain → Option Suit
  | clubs => some .clubs
  | diamonds => some .diamonds
  | hearts => some .hearts
  | spades => some .spades
  | notrump => none

end Strain

/-- The rank of a card. -/
inductive Rank where
  | two
  | three
  | four
  | five
  | six
  | seven
  | eight
  | nine
  | ten
  | jack
  | queen
  | king
  | ace
  deriving DecidableEq, Repr

namespace Rank

/-- The ranks from the lowest to the highest. -/
def all : List Rank :=
  [two, three, four, five, six, seven, eight, nine, ten, jack, queen, king, ace]

/-- The character that stands for the rank. -/
def letter : Rank → Char
  | two => '2'
  | three => '3'
  | four => '4'
  | five => '5'
  | six => '6'
  | seven => '7'
  | eight => '8'
  | nine => '9'
  | ten => 'T'
  | jack => 'J'
  | queen => 'Q'
  | king => 'K'
  | ace => 'A'

/-- The rank that a character stands for. -/
def ofLetter? (letter : Char) : Option Rank :=
  all.find? fun rank ↦ rank.letter == letter

/-- The high card points of the rank. -/
def points : Rank → Nat
  | jack => 1
  | queen => 2
  | king => 3
  | ace => 4
  | _ => 0

end Rank

/-- A card of the deck. -/
structure Card where
  suit : Suit
  rank : Rank
  deriving DecidableEq, Repr

namespace Card

/-- The text that stands for the card: its suit, then its rank. -/
def text (card : Card) : String :=
  String.ofList [card.suit.letter, card.rank.letter]

/-- The fifty-two cards, suit by suit in shape order and from the two up. -/
def deck : List Card :=
  Suit.all.flatMap fun suit ↦ Rank.all.map fun rank ↦ { suit, rank }

end Card

end BridgeBidding
