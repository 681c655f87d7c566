import BridgeBidding.Proofs.Convention.Turns
import BridgeBidding.Proofs.Dont.Shapes

/-!
# Overcallers' second turns

What an overcaller says at its second turn fits what it said at its first.

A double of one notrump by DONT shows one long suit that is not spades.  When partner relays, the
doubler is asked for clubs, hearts and diamonds in turn, and since it has no second suit the first
that is long enough is the one it has (`Dont.exists_outcome?_correctingTurn`).

Two clubs by Landy show five cards in one major and four in the other.  When partner asks, the
overcaller looks only for five cards in both, and if there are none, four cards are just what it has
in the shorter one (`Landy.exists_outcome?_describingTurn`).
-/

set_option autoImplicit false
set_option relaxedAutoImplicit false

namespace BridgeBidding

open RuleTree

variable {context : Context} {hand : Hand}

/-! ### The doubler -/

namespace Dont

/-- The calls up to the doubler's turn after the relay. -/
def relayed : List Call := overcalled .double ++ [.of 2 .clubs, .pass]

/-- The call that names the suit over the relay in clubs. -/
def correction : Suit → Call
  | .clubs => .pass
  | suit => .of 2 suit.strain

theorem outcome?_relayed (h : context.auction.calls = relayed) :
    tree.outcome? context = correctingTurn.outcome? context := by
  rw [tree, outcome?_numbered]
  simp only [outcome?_ask, Condition.passed_auctionIs, h]
  rw [if_neg (by decide), if_neg (by decide), if_neg (by decide), if_neg (by decide),
    if_neg (by decide), if_neg (by decide)]
  exact if_pos rfl

/-- The turn doubles only with one long suit. -/
theorem promises_double :
    Promises context (fun call ↦ call = .double →
      HandTest.isSingleSuited context.evaluation.shape = true) overcallingTurn := by
  refine .ask (fun _ ↦ .say nofun) fun _ ↦ .ask (fun _ ↦ .say nofun) fun _ ↦
    .ask (fun _ ↦ .say nofun) fun _ ↦ .ask (fun _ ↦ .say nofun) fun _ ↦
    .ask (fun hsingle ↦ .say fun _ ↦ ?single) fun _ ↦ .stop
  exact hsingle

/-- The doubler names its suit if it has only one of six cards, which is not spades. -/
theorem exists_outcome?_correctingTurn {suit : Suit} (hspades : suit ≠ .spades)
    (hsix : ∀ other, 6 ≤ context.evaluation.length other ↔ other = suit) :
    ∃ name, correctingTurn.outcome? context = some (name, .ok (correction suit)) := by
  simp only [correctingTurn, outcome?_ask, outcome?_say, Condition.passed_suitMin, hsix]
  cases suit with
  | spades => exact absurd rfl hspades
  | clubs => exact ⟨_, if_pos rfl⟩
  | hearts => exact ⟨_, by rw [if_neg (by decide)]; exact if_pos rfl⟩
  | diamonds => exact ⟨_, by rw [if_neg (by decide), if_neg (by decide)]; exact if_pos rfl⟩

/-- A hand that doubles has just one suit of six cards, which is not spades. -/
theorem exists_suit_of_double (hturn : context.IsTurnOf hand [.of 1 .notrump])
    (hdoubled : (tree.descend context).ending.call? = some .double) :
    ∃ suit, suit ≠ .spades ∧ ∀ other, 6 ≤ hand.length other ↔ other = suit := by
  obtain ⟨name, houtcome⟩ := call?_descend_eq_some_iff.mp hdoubled
  rw [outcome?_opened hturn.calls_eq] at houtcome
  have hsingle := promises_double name .double houtcome rfl
  obtain ⟨suit, hspades, hlong, hshort⟩ := Shape.exists_longSuit_of_isSingleSuited hsingle
  have hlength (other : Suit) : context.evaluation.shape.length other = hand.length other := by
    rw [hturn.evaluation]
    exact hand.length_evaluation other
  refine ⟨suit, hspades, fun other ↦ ⟨fun hsix ↦ ?_, ?_⟩⟩
  · by_contra hne
    have hfew := hshort other hne
    rw [hlength] at hfew
    omega
  · rintro rfl
    rw [hlength] at hlong
    omega

/-- Over the relay the tree names the suit, and the call is legal. -/
theorem exists_ending_relayed {suit : Suit} (hturn : context.IsTurnOf hand relayed)
    (hspades : suit ≠ .spades) (hsix : ∀ other, 6 ≤ hand.length other ↔ other = suit) :
    ∃ node, (tree.descend context).ending = .bid node (correction suit) ∧
      context.auction.permits (correction suit) context.seat = true := by
  have hlong (other : Suit) : 6 ≤ context.evaluation.length other ↔ other = suit := by
    rw [← hsix other, hturn.evaluation, Hand.length_evaluation]
    omega
  obtain ⟨name, hnamed⟩ := exists_outcome?_correctingTurn hspades hlong
  rw [← outcome?_relayed hturn.calls_eq] at hnamed
  obtain ⟨node, hending, -⟩ := exists_ending_of_outcome? hnamed
  exact ⟨node, hending,
    permits_of_isPermitted (fun dealer ↦ isPermitted_tree dealer context) hturn hnamed⟩

end Dont

/-! ### The overcaller with both majors -/

namespace Landy

/-- The calls up to the overcaller's turn after it was asked. -/
def asked : List Call := overcalled ++ [.of 2 .notrump, .pass]

theorem outcome?_asked (h : context.auction.calls = asked) :
    tree.outcome? context = describingTurn.outcome? context := by
  rw [tree, outcome?_numbered]
  simp only [outcome?_ask, Condition.passed_auctionIs, h]
  rw [if_neg (by decide)]
  exact if_pos rfl

/-- Over one notrump the tree makes a call only with both majors. -/
theorem bothMajors_of_outcome? (h : context.auction.calls = [.of 1 .notrump]) {name : String}
    {made : Except Failure Call} (houtcome : tree.outcome? context = some (name, made)) :
    (Condition.bothMajors.verdict context).passed = true := by
  rw [tree, outcome?_numbered, outcome?_ask, if_pos (Condition.passed_auctionIs.mpr h),
    outcome?_ask] at houtcome
  by_contra hmajors
  rw [if_neg hmajors] at houtcome
  cases houtcome

/-- The calls with five cards in both majors. -/
def fiveFive : List Call := [.of 3 .notrump, .of 3 .spades]

/-- The calls with four cards in one of the majors. -/
def fiveFour : List Call := [.of 3 .diamonds, .of 3 .clubs]

/-- The overcaller tells whether it has five cards in both majors. -/
theorem exists_outcome?_describingTurn (context : Context) :
    ∃ name call, describingTurn.outcome? context = some (name, .ok call) ∧
      (call ∈ fiveFive ↔
        5 ≤ context.evaluation.length .spades ∧ 5 ≤ context.evaluation.length .hearts) ∧
      (call ∈ fiveFour ↔ ¬ call ∈ fiveFive) := by
  have hfive : ((Condition.conjunction [.suitMin .spades 5, .suitMin .hearts 5]).verdict
      context).passed = true ↔
        5 ≤ context.evaluation.length .spades ∧ 5 ≤ context.evaluation.length .hearts := by
    rw [Condition.passed_both, Condition.passed_suitMin, Condition.passed_suitMin]
  simp only [describingTurn, outcome?_ask, outcome?_say, hfive, Condition.passed_pointsMin]
  split_ifs with hboth hmaximum hmaximum
  · exact ⟨_, _, rfl, iff_of_true (by decide) hboth, by decide⟩
  · exact ⟨_, _, rfl, iff_of_true (by decide) hboth, by decide⟩
  · exact ⟨_, _, rfl, iff_of_false (by decide) hboth, by decide⟩
  · exact ⟨_, _, rfl, iff_of_false (by decide) hboth, by decide⟩

/-- A hand that overcalls has five cards in one major and four in the other. -/
theorem majors_of_overcall (hturn : context.IsTurnOf hand [.of 1 .notrump])
    (hovercalled : (tree.descend context).ending.call? = some (.of 2 .clubs)) :
    5 ≤ hand.length .hearts ∧ 4 ≤ hand.length .spades ∨
      5 ≤ hand.length .spades ∧ 4 ≤ hand.length .hearts := by
  obtain ⟨name, houtcome⟩ := call?_descend_eq_some_iff.mp hovercalled
  have hmajors := Condition.passed_bothMajors.mp (bothMajors_of_outcome? hturn.calls_eq houtcome)
  rw [hturn.evaluation, Hand.length_evaluation, Hand.length_evaluation] at hmajors
  omega

/-- Asked for its majors the hand tells whether both have five cards, and the call is legal. -/
theorem exists_ending_asked (hturn : context.IsTurnOf hand asked) :
    ∃ node call, (tree.descend context).ending = .bid node call ∧
      context.auction.permits call context.seat = true ∧
      (call ∈ fiveFive ↔ 5 ≤ hand.length .spades ∧ 5 ≤ hand.length .hearts) ∧
      (call ∈ fiveFour ↔ ¬ call ∈ fiveFive) := by
  obtain ⟨name, call, hcall, hfive, hfour⟩ := exists_outcome?_describingTurn context
  rw [← outcome?_asked hturn.calls_eq] at hcall
  rw [hturn.evaluation, Hand.length_evaluation, Hand.length_evaluation] at hfive
  obtain ⟨node, hending, -⟩ := exists_ending_of_outcome? hcall
  exact ⟨node, call, hending,
    permits_of_isPermitted (fun dealer ↦ isPermitted_tree dealer context) hturn hcall,
    hfive.trans (by omega), hfour⟩

end Landy

/-! ### Both turns -/

namespace Convention

/-- A hand that doubles one notrump by DONT has just one suit of six cards, and over partner's relay
it makes the legal call that names this suit, a pass for clubs.  A hand that overcalls one notrump
by Landy, when asked, makes a legal call in notrump or spades exactly with five cards in both
majors, and in a minor exactly with five in one of them and four in the other. -/
theorem rebids_describe_hand (hand : Hand) :
    (∀ first second : Context, first.IsTurnOf hand [.of 1 .notrump] →
      second.IsTurnOf hand Dont.relayed →
      (Dont.tree.descend first).ending.call? = some .double →
        ∃ suit node, suit ≠ .spades ∧ (∀ other, 6 ≤ hand.length other ↔ other = suit) ∧
          (Dont.tree.descend second).ending = .bid node (Dont.correction suit) ∧
          second.auction.permits (Dont.correction suit) second.seat = true) ∧
    ∀ first second : Context, first.IsTurnOf hand [.of 1 .notrump] →
      second.IsTurnOf hand Landy.asked →
      (Landy.tree.descend first).ending.call? = some (.of 2 .clubs) →
        ∃ node call, (Landy.tree.descend second).ending = .bid node call ∧
          second.auction.permits call second.seat = true ∧
          (call ∈ Landy.fiveFive ↔ 5 ≤ hand.length .spades ∧ 5 ≤ hand.length .hearts) ∧
          (call ∈ Landy.fiveFour ↔
            5 ≤ hand.length .spades ∧ hand.length .hearts = 4 ∨
              5 ≤ hand.length .hearts ∧ hand.length .spades = 4) := by
  constructor
  · intro first second hfirst hsecond hdoubled
    obtain ⟨suit, hspades, hsix⟩ := Dont.exists_suit_of_double hfirst hdoubled
    obtain ⟨node, hending, hlegal⟩ := Dont.exists_ending_relayed hsecond hspades hsix
    exact ⟨suit, node, hspades, hsix, hending, hlegal⟩
  · intro first second hfirst hsecond hovercalled
    have hmajors := Landy.majors_of_overcall hfirst hovercalled
    obtain ⟨node, call, hending, hlegal, hfive, hfour⟩ := Landy.exists_ending_asked hsecond
    refine ⟨node, call, hending, hlegal, hfive, ?_⟩
    rw [hfour, hfive]
    omega

/-- Six diamonds and thirteen points. -/
def longDiamonds : Hand :=
  .ofSuits [.nine, .three] [.king, .four] [.ace, .queen, .jack, .eight, .seven, .four]
    [.king, .nine, .three]

/-- With six diamonds the doubler bids them over the relay, and with five spades and four hearts the
overcaller bids a minor when asked. -/
theorem rebids_describe_hand_longDiamonds :
    let context (hand : Hand) (calls : List Call) :=
      Context.ofHand hand (.ofCalls .east calls) .south
    (∃ node, (Dont.tree.descend (context longDiamonds Dont.relayed)).ending =
      .bid node (.of 2 .diamonds)) ∧
    ∃ node call, (Landy.tree.descend (context .bothMajors Landy.asked)).ending = .bid node call ∧
      call ∈ Landy.fiveFour := by
  intro context
  have hopened (hand : Hand) :
      (context hand [.of 1 .notrump]).IsTurnOf hand [.of 1 .notrump] := ⟨⟨_, rfl⟩, rfl, rfl⟩
  constructor
  · obtain ⟨suit, node, -, hsix, hending, -⟩ :=
      (rebids_describe_hand longDiamonds).1 _ (context longDiamonds Dont.relayed)
        (hopened longDiamonds) ⟨⟨_, rfl⟩, rfl, rfl⟩ (by decide)
    obtain rfl := (hsix .diamonds).mp (by decide)
    exact ⟨node, hending⟩
  · obtain ⟨node, call, hending, -, -, hfour⟩ :=
      (rebids_describe_hand .bothMajors).2 _ (context .bothMajors Landy.asked)
        (hopened .bothMajors) ⟨⟨_, rfl⟩, rfl, rfl⟩ (by decide)
    exact ⟨node, call, hending, hfour.mpr (by decide)⟩

end Convention

end BridgeBidding
