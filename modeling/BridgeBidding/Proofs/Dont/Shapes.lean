import BridgeBidding.Proofs.Convention.Overcalls

/-!
# The shapes that are overcalled

Hands for DONT are dealt by their longest suit and the longest but one, and the overcaller's turn
asks for suits by name.  Both are about the same shapes, which have five cards in one suit and four
in another, or a suit of six cards (`Dont.hasShape_iff`).

The two longest suits are as long as any two suits (`Shape.length_le_longest`,
`Shape.length_le_second`), so that a question for two suits passes only if these two are long
enough.  Over one notrump the tree therefore matches an overcall for the shapes that are dealt and
for no others (`Dont.overcalls_iff_hasShape`).
-/

set_option autoImplicit false
set_option relaxedAutoImplicit false

namespace BridgeBidding

/-! ### The two longest suits -/

namespace Shape

variable {shape : Shape} {suit other : Suit}

theorem Leads.length_le (h : shape.Leads suit other) : shape.length other ≤ shape.length suit := by
  unfold Leads at h
  omega

theorem length_le_longest (shape : Shape) (suit : Suit) :
    shape.length suit ≤ shape.length shape.longest := by
  refine (leads_longestAmong shape (by decide) suit ?_).length_le
  cases suit <;> decide

/-- No other suit is longer than the longest but one. -/
theorem length_le_second (h : suit ≠ shape.longest) :
    shape.length suit ≤ shape.length shape.second := by
  unfold second
  cases hlongest : shape.longest with
  | _ =>
    rw [hlongest] at h
    refine (leads_longestAmong shape (by decide) suit ?_).length_le
    cases suit <;> first | exact absurd rfl h | decide

/-- Two suits are no longer than the two longest ones. -/
theorem HasTwoSuits.lengths (h : shape.HasTwoSuits) :
    5 ≤ shape.length shape.longest ∧ 4 ≤ shape.length shape.second := by
  obtain ⟨first, second, hne, hfirst, hsecond⟩ := h
  refine ⟨Int.le_trans hfirst (shape.length_le_longest first), ?_⟩
  by_cases hlongest : first = shape.longest
  · have hother : second ≠ shape.longest := hlongest ▸ hne.symm
    exact Int.le_trans hsecond (length_le_second hother)
  · have hfive := Int.le_trans hfirst (length_le_second hlongest)
    omega

end Shape

theorem Dont.hasShape_iff {shape : Shape} :
    hasShape shape = true ↔ shape.HasTwoSuits ∨ ∃ suit, 6 ≤ shape.length suit := by
  constructor
  · intro h
    exact (hasShape_cases h).imp_right fun ⟨suit, hlong, _⟩ ↦ ⟨suit, hlong⟩
  · intro h
    simp only [hasShape, Bool.or_eq_true, Bool.and_eq_true, decide_eq_true_iff]
    rcases h with htwo | ⟨suit, hlong⟩
    · exact .inr htwo.lengths
    · exact .inl (Int.le_trans hlong (shape.length_le_longest suit))

/-! ### What the questions tell -/

namespace Condition

variable {context : Context}

theorem hasTwoSuits_of_bothMajors (h : (bothMajors.verdict context).passed = true) :
    context.evaluation.shape.HasTwoSuits := by
  rcases passed_bothMajors.mp h with ⟨hhearts, hspades⟩ | ⟨hspades, hhearts⟩
  · exact ⟨.hearts, .spades, by decide, hhearts, hspades⟩
  · exact ⟨.spades, .hearts, by decide, hspades, hhearts⟩

theorem hasTwoSuits_of_suitAndOneOf {suit : Suit} {others : List Suit} (hsuit : suit ∉ others)
    (h : ((suitAndOneOf suit others).verdict context).passed = true) :
    context.evaluation.shape.HasTwoSuits := by
  rcases passed_suitAndOneOf.mp h with ⟨hfive, other, hother, hfour⟩ | ⟨hfour, other, hother, hfive⟩
  · exact ⟨suit, other, (ne_of_mem_of_not_mem hother hsuit).symm, hfive, hfour⟩
  · exact ⟨other, suit, ne_of_mem_of_not_mem hother hsuit, hfive, hfour⟩

end Condition

namespace Shape

variable {shape : Shape} {suit other : Suit}

/-- Two suits of four cards are counted as two. -/
theorem two_le_fourCardSuits (hne : suit ≠ other) (hsuit : 4 ≤ shape.length suit)
    (hother : 4 ≤ shape.length other) : 2 ≤ shape.fourCardSuits := by
  have hlengths : shape.lengths = Suit.all.map shape.length := rfl
  have hlong : [suit, other] ⊆ Suit.all.filter fun held ↦ decide (4 ≤ shape.length held) := by
    intro held hheld
    refine List.mem_filter.mpr ⟨by cases held <;> decide, decide_eq_true ?_⟩
    rcases List.mem_pair.mp hheld with rfl | rfl
    · exact hsuit
    · exact hother
  have hnodup : [suit, other].Nodup := by simpa using hne
  have hcount := (List.subperm_of_subset hnodup hlong).length_le
  rw [← List.countP_eq_length_filter] at hcount
  rw [fourCardSuits, hlengths, List.countP_map]
  exact hcount

/-- A double shows a suit of six cards that is not spades, and no other of four. -/
theorem exists_longSuit_of_isSingleSuited (h : HandTest.isSingleSuited shape = true) :
    ∃ suit, suit ≠ .spades ∧ 6 ≤ shape.length suit ∧
      ∀ other, other ≠ suit → shape.length other < 4 := by
  simp only [HandTest.isSingleSuited, Bool.and_eq_true, Bool.or_eq_true,
    decide_eq_true_iff] at h
  obtain ⟨⟨-, hlong⟩, hfew⟩ := h
  have hothers (suit : Suit) (hsix : 6 ≤ shape.length suit) :
      ∀ other, other ≠ suit → shape.length other < 4 := by
    intro other hne
    by_contra hother
    have htwo := two_le_fourCardSuits hne (Int.not_lt.mp hother) (by omega)
    omega
  rcases hlong with (hhearts | hdiamonds) | hclubs
  · exact ⟨.hearts, by decide, hhearts, hothers .hearts hhearts⟩
  · exact ⟨.diamonds, by decide, hdiamonds, hothers .diamonds hdiamonds⟩
  · exact ⟨.clubs, by decide, hclubs, hothers .clubs hclubs⟩

end Shape

namespace Dont

open RuleTree

variable {context : Context}

/-! ### The overcaller's turn -/

/-- Only the shapes that are dealt are overcalled. -/
theorem ensures_overcallingTurn :
    Ensures context (fun _ _ ↦ hasShape context.evaluation.shape = true) overcallingTurn := by
  refine .ask (fun hmajors ↦ ?majors) fun _ ↦ .ask (fun hdiamonds ↦ ?diamonds) fun _ ↦
    .ask (fun hclubs ↦ ?clubs) fun _ ↦ .ask (fun hspades ↦ ?spades) fun _ ↦
    .ask (fun hsingle ↦ ?single) fun _ ↦ ?none
  case majors =>
    exact fun _ _ _ ↦ hasShape_iff.mpr (.inl (Condition.hasTwoSuits_of_bothMajors hmajors))
  case diamonds =>
    have htwo := Condition.hasTwoSuits_of_suitAndOneOf (by decide) hdiamonds
    exact fun _ _ _ ↦ hasShape_iff.mpr (.inl htwo)
  case clubs =>
    have htwo := Condition.hasTwoSuits_of_suitAndOneOf (by decide) hclubs
    exact fun _ _ _ ↦ hasShape_iff.mpr (.inl htwo)
  case spades =>
    have hsix := (Condition.passed_suitMin .spades 6).mp hspades
    exact fun _ _ _ ↦ hasShape_iff.mpr (.inr ⟨.spades, hsix⟩)
  case single =>
    rw [Condition.passed_singleLongSuit] at hsingle
    obtain ⟨suit, -, hsix, -⟩ := Shape.exists_longSuit_of_isSingleSuited hsingle
    exact fun _ _ _ ↦ hasShape_iff.mpr (.inr ⟨suit, hsix⟩)
  case none => exact .of_bids nofun

/-- Over one notrump the tree matches a bid for exactly those hands that are dealt for the
convention, and the bid is one of its overcalls. -/
theorem overcalls_iff_hasShape {hand : Hand} (hauction : context.auction.calls = [.of 1 .notrump])
    (hevaluation : context.evaluation = hand.evaluation) :
    ((∃ node call, (tree.descend context).ending = .bid node call) ↔
      hasShape hand.shape = true) ∧
    ∀ node call, (tree.descend context).ending = .bid node call →
      (node.name, call) ∈ overcalls := by
  have hshape : context.evaluation.shape = hand.shape := by rw [hevaluation]; rfl
  have hdealt {node : BidNode} {call : Call}
      (hending : (tree.descend context).ending = .bid node call) :
      hasShape context.evaluation.shape = true := by
    refine ensures_overcallingTurn node.name (.ok call) ?_
    rw [← outcome?_opened hauction, outcome?_of_ending hending]
  constructor
  · rw [← hshape]
    refine ⟨fun ⟨node, call, hending⟩ ↦ hdealt hending, fun h ↦ ?_⟩
    obtain ⟨overcall, -, hovercall⟩ := exists_outcome?_opened hauction h
    exact exists_ending_iff.mpr ⟨overcall.1, overcall.2, hovercall⟩
  · intro node call hending
    obtain ⟨overcall, hmem, hovercall⟩ := exists_outcome?_opened hauction (hdealt hending)
    rw [outcome?_of_ending hending] at hovercall
    obtain ⟨hname, hcall⟩ := Prod.mk.inj (Option.some.inj hovercall)
    rw [hname, Except.ok.inj hcall]
    exact hmem

/-- Six hearts and four clubs. -/
def heartsAndClubs : Hand :=
  .ofSuits [.eight, .two] [.ace, .queen, .jack, .nine, .seven, .four] [.four]
    [.king, .nine, .three, .two]

/-- Six hearts and four clubs are dealt and overcalled, and a balanced hand is not. -/
theorem overcalls_iff_hasShape_heartsAndClubs :
    let auction := Auction.ofCalls .east [.of 1 .notrump]
    (∃ node call, (tree.descend (.ofHand heartsAndClubs auction .south)).ending = .bid node call ∧
      (node.name, call) ∈ overcalls) ∧
    ¬ ∃ node call,
      (tree.descend (.ofHand .strongNotrump auction .south)).ending = .bid node call := by
  intro auction
  constructor
  · obtain ⟨hiff, hovercall⟩ := @overcalls_iff_hasShape (.ofHand heartsAndClubs auction .south)
      heartsAndClubs rfl rfl
    obtain ⟨node, call, hending⟩ := hiff.mpr (by decide)
    exact ⟨node, call, hending, hovercall node call hending⟩
  · rw [(@overcalls_iff_hasShape (.ofHand .strongNotrump auction .south) .strongNotrump rfl rfl).1]
    decide

end Dont

end BridgeBidding
