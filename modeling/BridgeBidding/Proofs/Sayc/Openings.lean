import BridgeBidding.Proofs.Auction.Reachable
import BridgeBidding.Proofs.Sayc.Uncontested

/-!
# What the openings of the natural system mean

Every opening call comes with a meaning (`Sayc.Meaning`): so many points, and a suit of some length
or a balanced shape.  The questions above the call ask for some of that.  The rest follows from the
answers to earlier questions and from the lengths of the four suits, which add up to thirteen.

So one club is no longer bid with more diamonds than clubs, and one diamond has four diamonds, but
for one shape.  With four cards in each major, three diamonds and two clubs there is no minor to
open, and one diamond is what is left.  A hand of that shape is balanced, so that some of its points
make it open in notrump; with the others (`Sayc.OpensThreeDiamonds`) its call does not fit, and in
all other cases it does (`Sayc.opening_fits_iff`).
-/

set_option autoImplicit false
set_option relaxedAutoImplicit false

namespace BridgeBidding

/-- The shape with four cards in each major, three diamonds and two clubs. -/
def Shape.fourFourThreeTwo : Shape := ⟨4, 4, 3, 2⟩

/-- Of thirteen cards without a five-card major and without four diamonds, two clubs or fewer leave
one shape. -/
theorem Hand.shape_eq_fourFourThreeTwo {hand : Hand} (hspades : hand.evaluation.length .spades < 5)
    (hhearts : hand.evaluation.length .hearts < 5)
    (hdiamonds : hand.evaluation.length .diamonds < 4)
    (hclubs : hand.evaluation.length .clubs < 3) :
    hand.evaluation.shape = Shape.fourFourThreeTwo := by
  have hsum := hand.sum_lengths
  rw [length_evaluation] at hspades hhearts hdiamonds hclubs
  have hfour : hand.length .spades = 4 ∧ hand.length .hearts = 4 ∧ hand.length .diamonds = 3 ∧
      hand.length .clubs = 2 := by omega
  obtain ⟨hs, hh, hd, hc⟩ := hfour
  change Shape.mk _ _ _ _ = _
  rw [hs, hh, hd, hc]
  rfl

namespace Sayc

open RuleTree

variable {context : Context} {evaluation : Evaluation} {call : Call}

/-- Fewer than five cards in either major. -/
def NoFiveCardMajor (evaluation : Evaluation) : Prop :=
  evaluation.length .spades < 5 ∧ evaluation.length .hearts < 5

/-- What an opening call is said to tell about the hand. -/
def Meaning (evaluation : Evaluation) : Call → Prop
  | .bid ⟨.two, .clubs⟩ => 22 ≤ evaluation.points
  | .bid ⟨.two, .notrump⟩ =>
    (20 ≤ evaluation.points ∧ evaluation.points ≤ 21) ∧ evaluation.isBalanced = true
  | .bid ⟨.one, .notrump⟩ =>
    (15 ≤ evaluation.points ∧ evaluation.points ≤ 17) ∧ evaluation.isBalanced = true ∧
      NoFiveCardMajor evaluation
  | .bid ⟨.one, .spades⟩ =>
    (12 ≤ evaluation.points ∧ evaluation.points ≤ 21) ∧ 5 ≤ evaluation.length .spades ∧
      evaluation.length .hearts ≤ evaluation.length .spades
  | .bid ⟨.one, .hearts⟩ =>
    (12 ≤ evaluation.points ∧ evaluation.points ≤ 21) ∧ 5 ≤ evaluation.length .hearts
  | .bid ⟨.one, .diamonds⟩ =>
    (12 ≤ evaluation.points ∧ evaluation.points ≤ 21) ∧ NoFiveCardMajor evaluation ∧
      4 ≤ evaluation.length .diamonds
  | .bid ⟨.one, .clubs⟩ =>
    (12 ≤ evaluation.points ∧ evaluation.points ≤ 21) ∧ NoFiveCardMajor evaluation ∧
      evaluation.length .diamonds ≤ evaluation.length .clubs
  | .bid ⟨.two, .spades⟩ =>
    (5 ≤ evaluation.points ∧ evaluation.points ≤ 11) ∧ 6 ≤ evaluation.length .spades
  | .bid ⟨.two, .hearts⟩ =>
    (5 ≤ evaluation.points ∧ evaluation.points ≤ 11) ∧ 6 ≤ evaluation.length .hearts
  | .bid ⟨.two, .diamonds⟩ =>
    (5 ≤ evaluation.points ∧ evaluation.points ≤ 11) ∧ 6 ≤ evaluation.length .diamonds
  | .pass => evaluation.points < 12
  | _ => False

/-- The hand has values to open, no suit to open in, and not the points for notrump. -/
def OpensThreeDiamonds (evaluation : Evaluation) : Prop :=
  evaluation.shape = Shape.fourFourThreeTwo ∧
    (12 ≤ evaluation.points ∧ evaluation.points ≤ 14 ∨
      18 ≤ evaluation.points ∧ evaluation.points ≤ 19)

theorem OpensThreeDiamonds.lengths (h : OpensThreeDiamonds evaluation) :
    evaluation.length .spades = 4 ∧ evaluation.length .hearts = 4 ∧
      evaluation.length .diamonds = 3 ∧ evaluation.length .clubs = 2 := by
  simp [Evaluation.length, Shape.length, h.1, Shape.fourFourThreeTwo]

/-- The only opening call of such a hand is one diamond. -/
theorem Opening.eq_of_opensThreeDiamonds (hopening : Opening evaluation call)
    (h : OpensThreeDiamonds evaluation) : call = .of 1 .diamonds := by
  obtain ⟨hs, hh, hd, hc⟩ := h.lengths
  obtain ⟨-, hpoints⟩ := h
  cases hopening with
  | diamonds => rfl
  | weakTwo suit hsuit hminimum hmaximum => omega
  | _ => omega

/-- No call has a meaning that fits such a hand. -/
theorem OpensThreeDiamonds.not_meaning (h : OpensThreeDiamonds evaluation) (call : Call) :
    ¬ Meaning evaluation call := by
  obtain ⟨hs, hh, hd, hc⟩ := h.lengths
  obtain ⟨-, hpoints⟩ := h
  intro hmeaning
  unfold Meaning at hmeaning
  split at hmeaning <;> omega

/-! ### Which call is made -/

/-- A balanced hand without a five-card major opens in notrump, if its points are right. -/
theorem outcome?_openingTurn_of_balanced (hbalanced : context.evaluation.isBalanced = true)
    (hmajors : NoFiveCardMajor context.evaluation)
    (hpoints : (15 ≤ context.evaluation.points ∧ context.evaluation.points ≤ 17) ∨
      (20 ≤ context.evaluation.points ∧ context.evaluation.points ≤ 21)) :
    ∃ name level, openingTurn.outcome? context = some (name, .ok (.of level .notrump)) := by
  have hstrong : ¬ 22 ≤ context.evaluation.points := by omega
  rw [NoFiveCardMajor] at hmajors
  simp only [openingTurn, outcome?_ask, outcome?_say, Condition.passed_conjunction,
    Condition.passed_pointsMin, Condition.passed_pointsRange, Condition.passed_balanced,
    Condition.passed_noFiveCardMajor, List.all_cons, List.all_nil, Bool.and_true,
    Bool.and_eq_true, hbalanced, hmajors, and_true, if_neg hstrong]
  rcases hpoints with hone | htwo
  · have hbelow : ¬ (20 ≤ context.evaluation.points ∧ context.evaluation.points ≤ 21) := by omega
    rw [if_neg hbelow, if_pos hone]
    exact ⟨_, .one, rfl⟩
  · rw [if_pos htwo]
    exact ⟨_, .two, rfl⟩

/-- Where one diamond is the call on three diamonds, the points are not those for notrump. -/
theorem opensThreeDiamonds_of_outcome? {name : String}
    (houtcome : openingTurn.outcome? context = some (name, .ok (.of 1 .diamonds)))
    (hshape : context.evaluation.shape = Shape.fourFourThreeTwo)
    (hminimum : 12 ≤ context.evaluation.points) (hmaximum : context.evaluation.points ≤ 21) :
    OpensThreeDiamonds context.evaluation := by
  have hbalanced : context.evaluation.isBalanced = true := by
    rw [Evaluation.isBalanced, hshape]
    decide
  have hmajors : NoFiveCardMajor context.evaluation := by
    rw [NoFiveCardMajor, Evaluation.length, Evaluation.length, hshape]
    decide
  refine ⟨hshape, ?_⟩
  by_contra hpoints
  obtain ⟨other, level, hnotrump⟩ :=
    outcome?_openingTurn_of_balanced hbalanced hmajors (by omega)
  rw [houtcome] at hnotrump
  cases hnotrump

/-- Whatever the hand opens has the meaning that it is given, unless one diamond is all that is
left. -/
theorem meaning_of_opening {hand : Hand} (hhand : context.evaluation = hand.evaluation)
    {name : String} (houtcome : openingTurn.outcome? context = some (name, .ok call))
    (hopening : Opening hand.evaluation call) (h : ¬ OpensThreeDiamonds hand.evaluation) :
    Meaning hand.evaluation call := by
  cases hopening with
  | strong hpoints => exact hpoints
  | twoNotrump hminimum hmaximum hbalanced => exact ⟨⟨hminimum, hmaximum⟩, hbalanced⟩
  | oneNotrump hminimum hmaximum hbalanced hspades hhearts =>
    exact ⟨⟨hminimum, hmaximum⟩, hbalanced, hspades, hhearts⟩
  | spades hminimum hmaximum hspades hhearts => exact ⟨⟨hminimum, hmaximum⟩, hspades, hhearts⟩
  | hearts hminimum hmaximum hhearts => exact ⟨⟨hminimum, hmaximum⟩, hhearts⟩
  | clubs hminimum hmaximum hspades hhearts hclubs hdiamonds =>
    exact ⟨⟨hminimum, hmaximum⟩, ⟨hspades, hhearts⟩, by omega⟩
  | weakTwo suit hsuit hminimum hmaximum hlength =>
    cases suit with
    | clubs => exact absurd rfl hsuit
    | _ => exact ⟨⟨hminimum, hmaximum⟩, hlength⟩
  | pass hpoints => exact hpoints
  | diamonds hminimum hmaximum hspades hhearts hminors =>
    refine ⟨⟨hminimum, hmaximum⟩, ⟨hspades, hhearts⟩, ?_⟩
    by_contra hdiamonds
    have hshape := Hand.shape_eq_fourFourThreeTwo hspades hhearts (by omega) (by omega)
    rw [← hhand] at h hshape hminimum hmaximum
    exact h (opensThreeDiamonds_of_outcome? houtcome hshape hminimum hmaximum)

/-- Before any bid the system comes to a bid of its tree, whatever the hand, and the call is legal.
The hand fits the meaning of the call unless it has four cards in each major, three diamonds, two
clubs, and 12-14 or 18-19 points; such a hand opens one diamond. -/
theorem opening_fits_iff {hand : Hand} {auction : Auction} {seat : Seat}
    {vulnerability : Vulnerability} {dealer : Option Seat} (hopen : auction.isOver = false)
    (hbids : auction.seatBids = []) :
    let context := Context.ofHand hand auction seat none vulnerability dealer
    ∃ node call, (tree.descend context).ending = .bid node call ∧
      auction.permits call seat = true ∧
      (Meaning hand.evaluation call ↔ ¬ OpensThreeDiamonds hand.evaluation) ∧
      (OpensThreeDiamonds hand.evaluation → call = .of 1 .diamonds) := by
  intro context
  have hhand : context.evaluation = hand.evaluation := rfl
  have hopening : context.openingBid? = none := Position.openingBid?_of_no_bid hbids
  obtain ⟨name, call, houtcome, htells⟩ := opens_openingTurn context
  have htree := houtcome
  rw [← outcome?_tree_of_opening hopening] at htree
  obtain ⟨node, hending, -⟩ := exists_ending_of_outcome? htree
  rw [hhand] at htells
  exact ⟨node, call, hending, Auction.permits_of_no_bid hopen hbids htells.pass_or_bid seat,
    ⟨fun hmeaning hthree ↦ hthree.not_meaning call hmeaning,
      meaning_of_opening hhand houtcome htells⟩, htells.eq_of_opensThreeDiamonds⟩

/-- After a pass east opens one notrump on seventeen points. -/
theorem opening_fits_iff_notrump :
    let auction := Auction.ofCalls .north [.pass]
    Auction.Reachable (some .north) auction ∧ auction.isOver = false ∧ auction.seatBids = [] ∧
      ∃ node, (tree.descend (Context.ofHand .strongNotrump auction .east)).ending =
          .bid node (.of 1 .notrump) ∧
        auction.permits (.of 1 .notrump) .east = true ∧
        Meaning Hand.strongNotrump.evaluation (.of 1 .notrump) := by
  intro auction
  have hreach : Auction.Reachable (some .north) auction := Auction.reachable_ofCalls (by decide)
  obtain ⟨node, call, hending, hpermits, hmeaning, -⟩ :=
    @opening_fits_iff .strongNotrump auction .east .neither none rfl rfl
  have hcall : (tree.descend (Context.ofHand .strongNotrump auction .east)).ending.call? =
    some (.of 1 .notrump) := rfl
  rw [hending] at hcall
  obtain rfl : call = .of 1 .notrump := Option.some.inj hcall
  refine ⟨hreach, rfl, rfl, node, hending, hpermits, hmeaning.mpr fun hthree ↦ ?_⟩
  exact absurd hthree.1 (by decide)

/-- North deals and has twelve points, but no call says what it has; it opens one diamond on
three. -/
theorem opening_misfit :
    let hand := Hand.ofSuits [.ace, .queen, .three, .two] [.king, .jack, .three, .two]
      [.queen, .three, .two] [.three, .two]
    let auction := Auction.empty (some .north)
    Auction.Reachable (some .north) auction ∧ auction.isOver = false ∧ auction.seatBids = [] ∧
      hand.length .diamonds = 3 ∧
      (∃ node, (tree.descend (Context.ofHand hand auction .north)).ending =
          .bid node (.of 1 .diamonds) ∧
        node.meaning = "No five-card major, four or more diamonds") ∧
      ∀ call, ¬ Meaning hand.evaluation call := by
  intro hand auction
  have hthree : OpensThreeDiamonds hand.evaluation := ⟨by decide, by decide⟩
  exact ⟨.empty, rfl, rfl, by decide, ⟨_, rfl, rfl⟩, hthree.not_meaning⟩

end Sayc

end BridgeBidding
