import BridgeBidding.Convention.Dont
import BridgeBidding.Convention.Landy
import BridgeBidding.Proofs.Condition.Totality
import BridgeBidding.Proofs.Hand.Counting
import BridgeBidding.Proofs.Hand.Longest
import BridgeBidding.Proofs.Tree.Outcome

/-!
# Overcalls for every hand that is dealt for them

Hands for Landy and DONT are dealt by their shape, and the overcaller's turn of either tree asks for
suits one after another.  The two agree.

A shape for DONT has two long suits, five cards in one and four in another, or one suit of six cards
and no other of four (`Dont.hasShape_cases`).  Whatever the two suits are, the questions for both
majors, for diamonds and a major and for clubs and a higher suit leave out none of the pairs
(`Condition.passed_of_hasTwoSuits`), and the remaining two questions are for one long suit.  So the
turn comes to an overcall (`Dont.exists_outcome?_overcallingTurn`), and with both majors the turn of
Landy does (`Landy.outcome?_opened`).
-/

set_option autoImplicit false
set_option relaxedAutoImplicit false

namespace BridgeBidding

/-! ### Shapes -/

/-- Two suits are the majors, or diamonds and a major, or clubs and a higher suit. -/
theorem Suit.pair_cases {first second : Suit} (h : first ≠ second) :
    (first = hearts ∧ second = spades ∨ second = hearts ∧ first = spades) ∨
    (first = diamonds ∧ second ∈ [spades, hearts] ∨
      second = diamonds ∧ first ∈ [spades, hearts]) ∨
    (first = clubs ∧ second ∈ [diamonds, hearts, spades] ∨
      second = clubs ∧ first ∈ [diamonds, hearts, spades]) := by
  cases first <;> cases second <;> first | exact absurd rfl h | decide

namespace Shape

variable {shape : Shape} {first second : Suit}

/-- Five cards in one suit and four in another. -/
def HasTwoSuits (shape : Shape) : Prop :=
  ∃ first second, first ≠ second ∧ 5 ≤ shape.length first ∧ 4 ≤ shape.length second

/-- Six cards in one suit and fewer than four in any other. -/
def HasOneSuit (shape : Shape) : Prop :=
  ∃ suit, 6 ≤ shape.length suit ∧ ∀ other, other ≠ suit → shape.length other < 4

/-- The longest suit but one is sought among the other three. -/
theorem second_ne_longest (shape : Shape) : shape.second ≠ shape.longest := by
  unfold second
  cases shape.longest with
  | _ =>
    refine ne_of_mem_of_not_mem (longestAmong_mem shape _ _) ?_
    decide

/-- A shape with one long suit has no second suit of four cards. -/
theorem HasOneSuit.fourCardSuits_le (h : shape.HasOneSuit) : shape.fourCardSuits ≤ 1 := by
  obtain ⟨suit, -, hshort⟩ := h
  have hlengths : shape.lengths = Suit.all.map shape.length := rfl
  have hcount : shape.fourCardSuits ≤ Suit.all.countP fun other ↦ decide (other = suit) := by
    unfold fourCardSuits
    rw [hlengths, List.countP_map]
    refine List.countP_mono_left fun other _ hlong ↦ ?_
    by_contra hother
    exact Int.not_lt.mpr (of_decide_eq_true hlong) (hshort other (by simpa using hother))
  have hone : (Suit.all.countP fun other ↦ decide (other = suit)) = 1 := by
    cases suit <;> rfl
  exact hone ▸ hcount

/-- One long suit that is not spades is what a double shows. -/
theorem isSingleSuited_of_hasOneSuit (h : shape.HasOneSuit) (hspades : ¬ 6 ≤ shape.spades) :
    HandTest.isSingleSuited shape = true := by
  have hfew := h.fourCardSuits_le
  obtain ⟨suit, hlong, -⟩ := h
  have hother : 6 ≤ shape.hearts ∨ 6 ≤ shape.diamonds ∨ 6 ≤ shape.clubs := by
    cases suit with
    | spades => exact absurd hlong hspades
    | hearts => exact .inl hlong
    | diamonds => exact .inr (.inl hlong)
    | clubs => exact .inr (.inr hlong)
  simp only [HandTest.isSingleSuited, hspades, hfew, decide_false, decide_true, Bool.not_false,
    Bool.true_and, Bool.and_true, Bool.or_eq_true, decide_eq_true_iff, or_assoc]
  exact hother

end Shape

theorem Dont.hasShape_cases {shape : Shape} (h : hasShape shape = true) :
    shape.HasTwoSuits ∨ shape.HasOneSuit := by
  simp only [hasShape, Bool.or_eq_true, Bool.and_eq_true, decide_eq_true_iff] at h
  rcases h with hlong | ⟨hlong, hsecond⟩
  · by_cases hother : ∃ other, other ≠ shape.longest ∧ 4 ≤ shape.length other
    · obtain ⟨other, hne, hlength⟩ := hother
      exact .inl ⟨shape.longest, other, hne.symm, by omega, hlength⟩
    · refine .inr ⟨shape.longest, hlong, fun other hne ↦ ?_⟩
      exact Int.not_le.mp fun hlength ↦ hother ⟨other, hne, hlength⟩
  · exact .inl ⟨shape.longest, shape.second, shape.second_ne_longest.symm, hlong, hsecond⟩

/-! ### Questions for two suits -/

namespace Condition

variable {context : Context}

/-- Either of two pairs of questions. -/
theorem passed_either_both {first second third fourth : Condition}
    (htotal : areTotal [first, second, third, fourth] = true) :
    ((disjunction [conjunction [first, second], conjunction [third, fourth]]).verdict
        context).passed = true ↔
      ((first.verdict context).passed = true ∧ (second.verdict context).passed = true) ∨
        ((third.verdict context).passed = true ∧ (fourth.verdict context).passed = true) := by
  have hsettled : ∀ part ∈ [conjunction [first, second], conjunction [third, fourth]],
      part.IsSettled context := by
    intro part hpart
    refine isSettled_of_isTotal ?_
    simp only [areTotal, Bool.and_true, Bool.and_eq_true] at htotal
    simp only [List.mem_cons, List.not_mem_nil, or_false] at hpart
    rcases hpart with rfl | rfl
    · simp [isTotal, areTotal, htotal]
    · simp [isTotal, areTotal, htotal]
  rw [passed_disjunction hsettled, List.any_cons, List.any_cons, List.any_nil, Bool.or_false,
    Bool.or_eq_true, passed_both, passed_both]

@[simp] theorem passed_bothMajors :
    (bothMajors.verdict context).passed = true ↔
      (5 ≤ context.evaluation.length .hearts ∧ 4 ≤ context.evaluation.length .spades) ∨
        (5 ≤ context.evaluation.length .spades ∧ 4 ≤ context.evaluation.length .hearts) := by
  rw [bothMajors, passed_either_both rfl]
  simp only [passed_suitMin]

@[simp] theorem passed_suitAndOneOf {suit : Suit} {others : List Suit} :
    ((suitAndOneOf suit others).verdict context).passed = true ↔
      (5 ≤ context.evaluation.length suit ∧
        ∃ other ∈ others, 4 ≤ context.evaluation.length other) ∨
      (4 ≤ context.evaluation.length suit ∧
        ∃ other ∈ others, 5 ≤ context.evaluation.length other) := by
  rw [suitAndOneOf, passed_either_both rfl]
  simp only [passed_suitMin, passed_anySuitMin]

/-- A suit with one of the others, whichever of the two is the longer one. -/
theorem passed_suitAndOneOf_of_pair {suit first second : Suit} {others : List Suit}
    (hfirst : 5 ≤ context.evaluation.length first)
    (hsecond : 4 ≤ context.evaluation.length second)
    (hpair : first = suit ∧ second ∈ others ∨ second = suit ∧ first ∈ others) :
    ((suitAndOneOf suit others).verdict context).passed = true := by
  rw [passed_suitAndOneOf]
  rcases hpair with ⟨rfl, hothers⟩ | ⟨rfl, hothers⟩
  · exact .inl ⟨hfirst, second, hothers, hsecond⟩
  · exact .inr ⟨hsecond, first, hothers, hfirst⟩

/-- Of two long suits, one of three questions asks. -/
theorem passed_of_hasTwoSuits (h : context.evaluation.shape.HasTwoSuits) :
    (bothMajors.verdict context).passed = true ∨
      (diamondsAndMajor.verdict context).passed = true ∨
      (clubsAndHigher.verdict context).passed = true := by
  obtain ⟨first, second, hne, hfirst, hsecond⟩ := h
  rcases Suit.pair_cases hne with hmajors | hdiamonds | hclubs
  · refine .inl (passed_bothMajors.mpr ?_)
    rcases hmajors with ⟨rfl, rfl⟩ | ⟨rfl, rfl⟩
    · exact .inl ⟨hfirst, hsecond⟩
    · exact .inr ⟨hfirst, hsecond⟩
  · exact .inr (.inl (passed_suitAndOneOf_of_pair hfirst hsecond hdiamonds))
  · exact .inr (.inr (passed_suitAndOneOf_of_pair hfirst hsecond hclubs))

@[simp] theorem passed_singleLongSuit :
    ((holding .singleLongSuit).verdict context).passed =
      HandTest.isSingleSuited context.evaluation.shape := rfl

end Condition

open RuleTree

variable {context : Context}

/-! ### The turns -/

/-- With both majors there is an overcall over one notrump. -/
theorem Landy.outcome?_opened (h : context.auction.calls = [.of 1 .notrump])
    (hmajors : hasBothMajors context.evaluation.shape = true) :
    tree.outcome? context = some ("landy-2c", .ok (.of 2 .clubs)) := by
  have hpassed : (Condition.bothMajors.verdict context).passed = true := by
    simp only [hasBothMajors, Bool.or_eq_true, Bool.and_eq_true, decide_eq_true_iff] at hmajors
    exact Condition.passed_bothMajors.mpr hmajors.symm
  rw [tree, outcome?_numbered, outcome?_ask, if_pos (Condition.passed_auctionIs.mpr h),
    outcome?_ask, if_pos hpassed, outcome?_say]

namespace Dont

/-- The overcalls, by the names of their bids. -/
def overcalls : List (String × Call) :=
  [("dont-2h", .of 2 .hearts), ("dont-2d", .of 2 .diamonds), ("dont-2c", .of 2 .clubs),
    ("dont-2s", .of 2 .spades), ("dont-double", .double)]

/-- For every shape that is dealt there is an overcall. -/
theorem exists_outcome?_overcallingTurn (h : hasShape context.evaluation.shape = true) :
    ∃ overcall ∈ overcalls,
      overcallingTurn.outcome? context = some (overcall.1, .ok overcall.2) := by
  unfold overcallingTurn overcalls
  simp only [outcome?_ask, outcome?_say]
  by_cases hmajors : (Condition.bothMajors.verdict context).passed = true
  · rw [if_pos hmajors]
    exact ⟨("dont-2h", _), by simp, rfl⟩
  rw [if_neg hmajors]
  by_cases hdiamonds : (Condition.diamondsAndMajor.verdict context).passed = true
  · rw [if_pos hdiamonds]
    exact ⟨("dont-2d", _), by simp, rfl⟩
  rw [if_neg hdiamonds]
  by_cases hclubs : (Condition.clubsAndHigher.verdict context).passed = true
  · rw [if_pos hclubs]
    exact ⟨("dont-2c", _), by simp, rfl⟩
  rw [if_neg hclubs]
  -- no two suits are left, so there is one
  have hone : context.evaluation.shape.HasOneSuit := by
    refine (hasShape_cases h).resolve_left fun htwo ↦ ?_
    rcases Condition.passed_of_hasTwoSuits htwo with hpassed | hpassed | hpassed
    · exact hmajors hpassed
    · exact hdiamonds hpassed
    · exact hclubs hpassed
  by_cases hspades : ((Condition.suitMin .spades 6).verdict context).passed = true
  · rw [if_pos hspades]
    exact ⟨("dont-2s", _), by simp, rfl⟩
  rw [if_neg hspades]
  have hsingle : ((Condition.holding .singleLongSuit).verdict context).passed = true := by
    rw [Condition.passed_singleLongSuit]
    exact Shape.isSingleSuited_of_hasOneSuit hone fun hlong ↦
      hspades ((Condition.passed_suitMin .spades 6).mpr hlong)
  rw [if_pos hsingle]
  exact ⟨("dont-double", _), by simp, rfl⟩

theorem outcome?_opened (h : context.auction.calls = [.of 1 .notrump]) :
    tree.outcome? context = overcallingTurn.outcome? context := by
  rw [tree, outcome?_numbered, outcome?_ask, if_pos (Condition.passed_auctionIs.mpr h)]

/-- Over one notrump the tree comes to one of the overcalls. -/
theorem exists_outcome?_opened (h : context.auction.calls = [.of 1 .notrump])
    (hshape : hasShape context.evaluation.shape = true) :
    ∃ overcall ∈ overcalls, tree.outcome? context = some (overcall.1, .ok overcall.2) := by
  rw [outcome?_opened h]
  exact exists_outcome?_overcallingTurn hshape

end Dont

end BridgeBidding
