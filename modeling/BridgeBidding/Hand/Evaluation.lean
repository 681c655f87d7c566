import BridgeBidding.Hand

/-!
# Evaluating hands

High card points, the shape (the lengths of the four suits), and distribution points for short and
long suits.  An `Evaluation` puts them together; it is computed from a hand by `Hand.evaluation`, or
supplied as points and a shape of any four whole numbers by `Evaluation.ofShape`.

The rules for lengths are stated of lists, so that they apply to any number of suits.
-/

set_option autoImplicit false
set_option relaxedAutoImplicit false

namespace BridgeBidding

/-- The lengths of the four suits. -/
structure Shape where
  spades : Int
  hearts : Int
  diamonds : Int
  clubs : Int
  deriving DecidableEq, Repr

namespace Shape

/-- The lengths in suit order. -/
def lengths (shape : Shape) : List Int :=
  [shape.spades, shape.hearts, shape.diamonds, shape.clubs]

/-- The length of a suit. -/
def length (shape : Shape) : Suit → Int
  | .spades => shape.spades
  | .hearts => shape.hearts
  | .diamonds => shape.diamonds
  | .clubs => shape.clubs

/-- The lengths with hyphens between them. -/
def text (shape : Shape) : String :=
  String.intercalate "-" (shape.lengths.map toString)

/-- The longer of two suits; the first if they are equally long. -/
def longer (shape : Shape) (first second : Suit) : Suit :=
  if shape.length first < shape.length second then second else first

/-- The longest of `first` and further suits; of equally long ones the one that comes first. -/
def longestAmong (shape : Shape) (first : Suit) (rest : List Suit) : Suit :=
  rest.foldl shape.longer first

/-- The longest suit; of equally long ones the highest. -/
def longest (shape : Shape) : Suit :=
  shape.longestAmong .spades [.hearts, .diamonds, .clubs]

/-- The longest suit but one; of equally long ones the highest. -/
def second (shape : Shape) : Suit :=
  match shape.longest with
  | .spades => shape.longestAmong .hearts [.diamonds, .clubs]
  | .hearts => shape.longestAmong .spades [.diamonds, .clubs]
  | .diamonds => shape.longestAmong .spades [.hearts, .clubs]
  | .clubs => shape.longestAmong .spades [.hearts, .diamonds]

/-- How many suits have four or more cards. -/
def fourCardSuits (shape : Shape) : Nat :=
  shape.lengths.countP fun length ↦ decide (4 ≤ length)

end Shape

/-- No suit is shorter than two cards and at most one is a doubleton. -/
def balancedLengths (lengths : List Int) : Bool :=
  (lengths.all fun length ↦ decide (2 ≤ length)) && decide (lengths.count 2 ≤ 1)

/-- Whether lengths are balanced; no suits at all are neither balanced nor unbalanced. -/
def balancedLengths? : List Int → Option Bool
  | [] => none
  | lengths => some (balancedLengths lengths)

/-- Points for the short and for the long suits. -/
structure Distribution where
  shortness : Int
  length : Int
  deriving DecidableEq, Repr

namespace Distribution

/-- All distribution points. -/
def total (distribution : Distribution) : Int :=
  distribution.shortness + distribution.length

/-- The points for the shortness of one suit: three for a void, two for a singleton, one for a
doubleton. -/
def shortPoints (length : Int) : Int :=
  if length = 0 then 3 else if length = 1 then 2 else if length = 2 then 1 else 0

/-- The points for the length of one suit: one for every card beyond the fourth. -/
def longPoints (length : Int) : Int :=
  if 4 < length then length - 4 else 0

/-- The distribution points of suits of the given lengths. -/
def ofLengths (lengths : List Int) : Distribution where
  shortness := lengths.foldl (fun points length ↦ points + shortPoints length) 0
  length := lengths.foldl (fun points length ↦ points + longPoints length) 0

end Distribution

/-- What bidding looks at in a hand. -/
structure Evaluation where
  points : Int
  shape : Shape
  distribution : Distribution
  totalPoints : Int
  deriving DecidableEq, Repr

namespace Evaluation

/-- The way of evaluating hands. -/
def strategy : String := "HCP"

/-- The evaluation of a hand with the given high card points and shape. -/
def ofShape (points : Int) (shape : Shape) : Evaluation :=
  let distribution := Distribution.ofLengths shape.lengths
  { points, shape, distribution, totalPoints := points + distribution.total }

/-- The shape is balanced. -/
def isBalanced (evaluation : Evaluation) : Bool :=
  balancedLengths evaluation.shape.lengths

/-- The length of a suit. -/
def length (evaluation : Evaluation) (suit : Suit) : Int :=
  evaluation.shape.length suit

end Evaluation

namespace Hand

/-- The high card points of the hand. -/
def points (hand : Hand) : Nat :=
  hand.cards.foldl (fun points card ↦ points + card.rank.points) 0

/-- The number of cards in a suit. -/
def length (hand : Hand) (suit : Suit) : Nat :=
  hand.cards.countP fun card ↦ decide (card.suit = suit)

/-- The shape of the hand. -/
def shape (hand : Hand) : Shape where
  spades := hand.length .spades
  hearts := hand.length .hearts
  diamonds := hand.length .diamonds
  clubs := hand.length .clubs

/-- The number of aces. -/
def aces (hand : Hand) : Nat := hand.countRank .ace

/-- The number of kings. -/
def kings (hand : Hand) : Nat := hand.countRank .king

/-- The shape of the hand is balanced. -/
def isBalanced (hand : Hand) : Bool := balancedLengths hand.shape.lengths

/-- The evaluation of the hand. -/
def evaluation (hand : Hand) : Evaluation :=
  Evaluation.ofShape hand.points hand.shape

end Hand

end BridgeBidding
