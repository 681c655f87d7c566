import BridgeBidding.Hand.Evaluation
import Mathlib.Data.List.Nodup
import Mathlib.Data.List.Perm.Subperm
import Mathlib.Tactic.SplitIfs

/-!
# Counting cards

The thirteen cards of a hand lie in four suits, so that a balanced hand has no suit of six cards
(`Hand.length_le_five_of_isBalanced`).

There are four cards of every rank, and only honours count points.  So two hands that share no card
hold at most four aces and four kings between them, and if they have many points they hold at least
one (`Hand.aces_pos_of_points`, `Hand.kings_pos_of_points`): without an ace there are no more than
twenty-four points in the deck, and without a king no more than twenty-eight.
-/

set_option autoImplicit false
set_option relaxedAutoImplicit false

namespace BridgeBidding

namespace Card

theorem countP_suits (cards : List Card) :
    cards.countP (fun card ↦ decide (card.suit = .spades)) +
      cards.countP (fun card ↦ decide (card.suit = .hearts)) +
      cards.countP (fun card ↦ decide (card.suit = .diamonds)) +
      cards.countP (fun card ↦ decide (card.suit = .clubs)) = cards.length := by
  induction cards with
  | nil => rfl
  | cons card rest ih =>
    simp only [List.countP_cons, List.length_cons]
    cases card.suit with
    | _ =>
      simp
      omega

/-- How many of the cards are of the rank. -/
def countOf (rank : Rank) (cards : List Card) : Nat :=
  cards.countP fun card ↦ decide (card.rank = rank)

theorem countOf_append (rank : Rank) (first second : List Card) :
    countOf rank (first ++ second) = countOf rank first + countOf rank second :=
  List.countP_append

/-- There are four cards of a rank, one of each suit. -/
theorem countOf_le_four {cards : List Card} (h : cards.Nodup) (rank : Rank) :
    countOf rank cards ≤ 4 := by
  have hsubset : cards.filter (fun card ↦ decide (card.rank = rank)) ⊆
      Suit.all.map fun suit ↦ { suit, rank } := by
    intro card hcard
    have hrank : card.rank = rank := of_decide_eq_true (List.mem_filter.mp hcard).2
    refine List.mem_map.mpr ⟨card.suit, ?_, ?_⟩
    · cases card.suit <;> decide
    · rw [← hrank]
  have hlength := (List.subperm_of_subset (h.filter _) hsubset).length_le
  rwa [← List.countP_eq_length_filter] at hlength

/-- The points of the cards are those of the four honours. -/
theorem foldl_points (cards : List Card) (start : Nat) :
    cards.foldl (fun points card ↦ points + card.rank.points) start =
      start + (4 * countOf .ace cards + 3 * countOf .king cards + 2 * countOf .queen cards +
        countOf .jack cards) := by
  induction cards generalizing start with
  | nil => rfl
  | cons card rest ih =>
    rw [List.foldl_cons, ih]
    simp only [countOf, List.countP_cons]
    cases card.rank with
    | _ =>
      simp only [Rank.points, reduceCtorEq, decide_false, decide_true, if_true, if_false,
        Bool.false_eq_true]
      omega

end Card

namespace Hand

/-- The cards of a hand make that hand. -/
theorem ofCards_cards (hand : Hand) : ofCards hand.cards = .ok hand := by
  rw [ofCards, dif_pos hand.length_cards, dif_pos hand.nodup_cards]

/-! ### The lengths of the suits -/

theorem length_evaluation (hand : Hand) (suit : Suit) :
    hand.evaluation.length suit = hand.length suit := by
  cases suit <;> rfl

/-- The lengths of the four suits add up to thirteen. -/
theorem sum_lengths (hand : Hand) :
    hand.length .spades + hand.length .hearts + hand.length .diamonds + hand.length .clubs =
      13 := by
  rw [← hand.length_cards, ← Card.countP_suits]
  rfl

/-- A balanced hand has no suit of six cards. -/
theorem length_le_five_of_isBalanced {hand : Hand} (h : hand.evaluation.isBalanced = true)
    (suit : Suit) : hand.evaluation.length suit ≤ 5 := by
  have hsum := hand.sum_lengths
  have hlengths : hand.evaluation.shape.lengths =
      [(hand.length .spades : Int), hand.length .hearts, hand.length .diamonds,
        hand.length .clubs] := rfl
  rw [Evaluation.isBalanced, hlengths, balancedLengths, Bool.and_eq_true, decide_eq_true_iff] at h
  obtain ⟨hminimum, hdoubletons⟩ := h
  simp only [List.all_cons, List.all_nil, Bool.and_true, Bool.and_eq_true,
    decide_eq_true_iff] at hminimum
  simp only [List.count_cons, List.count_nil, beq_iff_eq] at hdoubletons
  rw [length_evaluation]
  cases suit with
  | _ => split_ifs at hdoubletons <;> omega

/-! ### The points -/

theorem points_eq (hand : Hand) :
    hand.points = 4 * hand.aces + 3 * hand.kings + 2 * Card.countOf .queen hand.cards +
      Card.countOf .jack hand.cards := by
  rw [points, Card.foldl_points, Nat.zero_add]
  rfl

/-! ### Two hands -/

section Pairs

variable {hand other : Hand}

/-- Two hands that share no card hold four cards of a rank at most. -/
theorem countRank_add_le_four (hdisjoint : hand.cards.Disjoint other.cards) (rank : Rank) :
    hand.countRank rank + other.countRank rank ≤ 4 := by
  have hnodup : (hand.cards ++ other.cards).Nodup :=
    hand.nodup_cards.append other.nodup_cards hdisjoint
  have hfour := Card.countOf_le_four hnodup rank
  rwa [Card.countOf_append] at hfour

theorem points_add_le (hdisjoint : hand.cards.Disjoint other.cards) :
    hand.points + other.points ≤
      4 * (hand.aces + other.aces) + 3 * (hand.kings + other.kings) + 12 := by
  have hqueens := countRank_add_le_four hdisjoint .queen
  have hjacks := countRank_add_le_four hdisjoint .jack
  have hqueenCount (held : Hand) : Card.countOf .queen held.cards = held.countRank .queen := rfl
  have hjackCount (held : Hand) : Card.countOf .jack held.cards = held.countRank .jack := rfl
  rw [points_eq hand, points_eq other, hqueenCount, hqueenCount, hjackCount, hjackCount]
  omega

/-- Without an ace the deck has twenty-four points. -/
theorem aces_pos_of_points (hdisjoint : hand.cards.Disjoint other.cards)
    (hpoints : 24 < hand.points + other.points) : 0 < hand.aces + other.aces := by
  have hle := points_add_le hdisjoint
  have hkings : hand.kings + other.kings ≤ 4 := countRank_add_le_four hdisjoint .king
  omega

/-- Without a king the deck has twenty-eight points. -/
theorem kings_pos_of_points (hdisjoint : hand.cards.Disjoint other.cards)
    (hpoints : 28 < hand.points + other.points) : 0 < hand.kings + other.kings := by
  have hle := points_add_le hdisjoint
  have haces : hand.aces + other.aces ≤ 4 := countRank_add_le_four hdisjoint .ace
  omega

end Pairs

end Hand

end BridgeBidding
