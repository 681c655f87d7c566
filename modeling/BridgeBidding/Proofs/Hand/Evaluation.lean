import BridgeBidding.Proofs.Hand.Counting
import Mathlib.Algebra.BigOperators.Group.List.Basic
import Mathlib.Algebra.Ring.Int.Defs

/-!
# What the evaluation of a hand can be

How a hand is evaluated does not depend on the order of its cards: other orders of them make hands
too, and these have the same evaluation (`Hand.exists_ofCards_of_perm`).  The lengths of its suits
add up to thirteen, so a balanced hand has one of three shapes when the suits are put in order
(`Shape.balancedLengths_iff_sorted`), and thirteen cards with at most four of every rank have no
more than thirty-seven points (`Hand.points_le`).

With the honours that two hands hold between them, these are the limits that the deck sets to the
evaluation of a hand (`Hand.evaluation_fits_deck`).
-/

set_option autoImplicit false
set_option relaxedAutoImplicit false

namespace BridgeBidding

/-! ### Shapes in order -/

/-- Whether suits are balanced does not depend on their order. -/
theorem balancedLengths_of_perm {first second : List Int} (h : first.Perm second) :
    balancedLengths first = balancedLengths second := by
  rw [balancedLengths, balancedLengths, h.all_eq, h.count_eq]

/-- Of suits that are listed from the longest to the shortest only the last can be a doubleton if
they are balanced, and thirteen cards leave few lengths for the others. -/
theorem balancedLengths_iff_of_pairwise {first second third fourth : Int}
    (hsorted : [first, second, third, fourth].Pairwise fun longer shorter ↦ shorter ≤ longer)
    (hsum : [first, second, third, fourth].sum = 13) :
    balancedLengths [first, second, third, fourth] = true ↔
      [first, second, third, fourth] ∈ [[4, 3, 3, 3], [4, 4, 3, 2], [5, 3, 3, 2]] := by
  constructor
  · intro h
    simp only [List.pairwise_cons, List.mem_cons, List.not_mem_nil, or_false, forall_eq_or_imp,
      forall_eq] at hsorted
    simp only [balancedLengths, List.all_cons, List.all_nil, Bool.and_true, Bool.and_eq_true,
      decide_eq_true_iff] at h
    obtain ⟨hminimum, hdoubletons⟩ := h
    have hthird : 3 ≤ third := by
      by_contra hshort
      have htwo : third = 2 ∧ fourth = 2 := by omega
      rw [htwo.1, htwo.2] at hdoubletons
      simp only [List.count_cons, List.count_nil, beq_self_eq_true, if_true] at hdoubletons
      omega
    simp only [List.sum_cons, List.sum_nil] at hsum
    simp only [List.mem_cons, List.not_mem_nil, or_false, List.cons.injEq, and_true]
    omega
  · intro h
    rcases List.mem_cons.mp h with h | h
    · rw [h]; decide
    · rcases List.mem_pair.mp h with h | h
      · rw [h]; decide
      · rw [h]; decide

namespace Shape

/-- The lengths of the suits, from the longest to the shortest. -/
def sorted (shape : Shape) : List Int :=
  shape.lengths.mergeSort fun longer shorter ↦ decide (shorter ≤ longer)

theorem sorted_perm (shape : Shape) : shape.sorted.Perm shape.lengths :=
  List.mergeSort_perm ..

theorem pairwise_sorted (shape : Shape) :
    shape.sorted.Pairwise fun longer shorter ↦ shorter ≤ longer := by
  have hpairwise : shape.sorted.Pairwise fun longer shorter ↦ decide (shorter ≤ longer) = true := by
    refine List.pairwise_mergeSort (fun first second third hfirst hsecond ↦ ?_)
      (fun first second ↦ ?_) shape.lengths
    · rw [decide_eq_true_iff] at *
      exact Int.le_trans hsecond hfirst
    · simpa using Int.le_total second first
  exact hpairwise.imp fun h ↦ of_decide_eq_true h

/-- A shape of thirteen cards is balanced if it is one of three when its suits are put in order. -/
theorem balancedLengths_iff_sorted {shape : Shape} (hsum : shape.lengths.sum = 13) :
    balancedLengths shape.lengths = true ↔
      shape.sorted ∈ [[4, 3, 3, 3], [4, 4, 3, 2], [5, 3, 3, 2]] := by
  have hperm := shape.sorted_perm
  have hpairwise := shape.pairwise_sorted
  obtain ⟨first, second, third, fourth, heq⟩ := List.length_eq_four.mp hperm.length_eq
  rw [← balancedLengths_of_perm hperm]
  rw [← hperm.sum_eq] at hsum
  rw [heq] at hpairwise hsum ⊢
  exact balancedLengths_iff_of_pairwise hpairwise hsum

end Shape

/-! ### The cards of a hand in another order -/

namespace Card

/-- The honours among the cards are no more than the cards. -/
theorem countOf_honours_le (cards : List Card) :
    countOf .ace cards + countOf .king cards + countOf .queen cards + countOf .jack cards ≤
      cards.length := by
  induction cards with
  | nil => exact Nat.le_refl 0
  | cons card rest ih =>
    simp only [countOf, List.countP_cons, List.length_cons] at ih ⊢
    cases card.rank with
    | _ =>
      simp only [reduceCtorEq, decide_false, decide_true, if_true, if_false, Bool.false_eq_true]
      omega

end Card

namespace Hand

variable {hand other : Hand}

theorem points_of_perm (h : hand.cards.Perm other.cards) : hand.points = other.points :=
  h.foldl_eq' (fun _ _ _ _ _ ↦ Nat.add_right_comm ..) 0

theorem length_of_perm (h : hand.cards.Perm other.cards) (suit : Suit) :
    hand.length suit = other.length suit :=
  h.countP_eq _

theorem shape_of_perm (h : hand.cards.Perm other.cards) : hand.shape = other.shape := by
  simp only [shape, length_of_perm h]

/-- The order of the cards plays no part in the evaluation. -/
theorem evaluation_of_perm (h : hand.cards.Perm other.cards) :
    hand.evaluation = other.evaluation := by
  rw [evaluation, evaluation, points_of_perm h, shape_of_perm h]

/-- The cards of a hand make a hand in any order, which is evaluated alike. -/
theorem exists_ofCards_of_perm {cards : List Card} (h : cards.Perm hand.cards) :
    ∃ other, ofCards cards = .ok other ∧ other.cards = cards ∧
      other.evaluation = hand.evaluation := by
  let other : Hand := ⟨cards, h.length_eq.trans hand.length_cards, h.nodup_iff.mpr hand.nodup_cards⟩
  exact ⟨other, other.ofCards_cards, rfl, evaluation_of_perm h⟩

/-! ### Bounds -/

theorem length_inSuit (hand : Hand) (suit : Suit) :
    (hand.inSuit suit).length = hand.length suit :=
  List.countP_eq_length_filter.symm

theorem sum_lengths_shape (hand : Hand) : hand.shape.lengths.sum = 13 := by
  have hsum := hand.sum_lengths
  simp only [Shape.lengths, shape, List.sum_cons, List.sum_nil]
  omega

theorem countRank_le_four (hand : Hand) (rank : Rank) : hand.countRank rank ≤ 4 :=
  Card.countOf_le_four hand.nodup_cards rank

/-- Thirteen cards with four of every rank have the most points with all aces, kings and queens and
a jack. -/
theorem points_le (hand : Hand) : hand.points ≤ 37 := by
  have hhonours := Card.countOf_honours_le hand.cards
  have hfour (rank : Rank) : Card.countOf rank hand.cards ≤ 4 := hand.countRank_le_four rank
  have haces := hfour .ace
  have hkings := hfour .king
  have hqueens := hfour .queen
  have hpoints : hand.points = 4 * Card.countOf .ace hand.cards +
      3 * Card.countOf .king hand.cards + 2 * Card.countOf .queen hand.cards +
      Card.countOf .jack hand.cards := hand.points_eq
  rw [hand.length_cards] at hhonours
  omega

theorem aces_kings_le_points (hand : Hand) : 4 * hand.aces + 3 * hand.kings ≤ hand.points := by
  have hpoints := hand.points_eq
  omega

theorem isBalanced_iff_sorted (hand : Hand) :
    hand.evaluation.isBalanced = true ↔
      hand.evaluation.shape.sorted ∈ [[4, 3, 3, 3], [4, 4, 3, 2], [5, 3, 3, 2]] :=
  Shape.balancedLengths_iff_sorted hand.sum_lengths_shape

/-- A hand is evaluated alike in whatever order its cards are given.  The lengths of its suits are
those of its shape and add up to thirteen, and they are balanced exactly if they are, in order,
4-3-3-3, 4-4-3-2 or 5-3-3-2.  The points are no more than thirty-seven and no fewer than those of
the aces and kings, of which there are four at most.  Of two hands that share no card, one holds an
ace if they have more than twenty-four points together, and a king if they have more than
twenty-eight. -/
theorem evaluation_fits_deck (hand : Hand) :
    (∀ cards : List Card, cards.Perm hand.cards →
      ∃ other, ofCards cards = .ok other ∧ other.cards = cards ∧
        other.evaluation = hand.evaluation) ∧
    (hand.evaluation.shape.lengths.sum = 13 ∧
      ∀ suit, hand.evaluation.shape.length suit = (hand.inSuit suit).length) ∧
    (0 ≤ hand.evaluation.points ∧ hand.evaluation.points ≤ 37) ∧
    (hand.aces ≤ 4 ∧ hand.kings ≤ 4 ∧
      4 * hand.aces + 3 * hand.kings ≤ hand.evaluation.points) ∧
    (hand.evaluation.isBalanced = true ↔
      hand.evaluation.shape.sorted ∈ [[4, 3, 3, 3], [4, 4, 3, 2], [5, 3, 3, 2]]) ∧
    ∀ other : Hand, hand.cards.Disjoint other.cards →
      (24 < hand.evaluation.points + other.evaluation.points → 0 < hand.aces + other.aces) ∧
      (28 < hand.evaluation.points + other.evaluation.points → 0 < hand.kings + other.kings) := by
  have hpoints (held : Hand) : held.evaluation.points = held.points := rfl
  have hhonours := hand.aces_kings_le_points
  have hmost := hand.points_le
  refine ⟨fun cards h ↦ exists_ofCards_of_perm h, ⟨hand.sum_lengths_shape, fun suit ↦ ?lengths⟩,
    ?points, ⟨hand.countRank_le_four .ace, hand.countRank_le_four .king, ?honours⟩,
    hand.isBalanced_iff_sorted, fun other hdisjoint ↦ ⟨fun hmany ↦ ?aces, fun hmany ↦ ?kings⟩⟩
  case lengths => rw [length_inSuit]; exact hand.length_evaluation suit
  case points => rw [hpoints]; omega
  case honours => rw [hpoints]; omega
  case aces =>
    rw [hpoints, hpoints] at hmany
    exact aces_pos_of_points hdisjoint (by omega)
  case kings =>
    rw [hpoints, hpoints] at hmany
    exact kings_pos_of_points hdisjoint (by omega)

/-- The aces, queens and jacks with the king of clubs. -/
def clubKing : Hand :=
  .ofSuits [.ace, .queen, .jack] [.ace, .queen, .jack] [.ace, .queen, .jack]
    [.ace, .king, .queen, .jack]

/-- A hand without honours. -/
def noHonours : Hand :=
  .ofSuits [.ten, .nine, .eight] [.ten, .nine, .eight] [.ten, .nine, .eight]
    [.ten, .nine, .eight, .seven]

/-- With all aces, queens and jacks and a single king there are thirty-one points, and none opposite
them: one king is needed for so many. -/
theorem evaluation_fits_deck_clubKing :
    clubKing.cards.reverse.Perm clubKing.cards ∧ clubKing.cards.Disjoint noHonours.cards ∧
      clubKing.evaluation.points + noHonours.evaluation.points = 31 ∧
      (∃ other, ofCards clubKing.cards.reverse = .ok other ∧
        other.evaluation = clubKing.evaluation) ∧
      0 < clubKing.aces + noHonours.aces ∧ 0 < clubKing.kings + noHonours.kings ∧
      clubKing.evaluation.shape.sorted ∈ [[4, 3, 3, 3], [4, 4, 3, 2], [5, 3, 3, 2]] := by
  obtain ⟨horder, -, -, -, hbalanced, hpairs⟩ := evaluation_fits_deck clubKing
  have hdisjoint : clubKing.cards.Disjoint noHonours.cards := by
    rw [List.disjoint_left]
    decide
  have hpoints : clubKing.evaluation.points + noHonours.evaluation.points = 31 := rfl
  obtain ⟨other, hother, -, hevaluation⟩ := horder _ (List.reverse_perm _)
  obtain ⟨haces, hkings⟩ := hpairs noHonours hdisjoint
  exact ⟨List.reverse_perm _, hdisjoint, hpoints, ⟨other, hother, hevaluation⟩,
    haces (by rw [hpoints]; decide), hkings (by rw [hpoints]; decide), hbalanced.mp (by decide)⟩

end Hand

end BridgeBidding
