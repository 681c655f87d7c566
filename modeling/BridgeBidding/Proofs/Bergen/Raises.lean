import BridgeBidding.Proofs.Convention.Turns
import BridgeBidding.Proofs.Deal.Constraints
import BridgeBidding.Proofs.Hand.Counting

/-!
# Raises of a major with four cards

In a deal for the convention north has a five-card major, and it opens its longer one
(`Bergen.exists_opens`).  The responder's turn reads the major back from the auction and comes to a
raise exactly with four cards in it; which raise it is depends on the points alone
(`Bergen.Raise`).

So a raise shows nine cards in the major between the hands, and since south has from six to twelve
points it never bids game (`Bergen.raise_shows_fit`).
-/

set_option autoImplicit false
set_option relaxedAutoImplicit false

namespace BridgeBidding

variable {context : Context}

/-! ### Support for the major -/

/-- Support for a major passes if a major was opened and the hand has enough cards in it. -/
@[simp] theorem Condition.passed_majorSupport (minimum : Int) :
    ((holding (.majorSupport minimum true)).verdict context).passed = true ↔
      ∃ suit, context.raisableMajor? = some suit ∧ minimum ≤ context.evaluation.length suit := by
  cases hmajor : context.raisableMajor? with
  | none =>
    have hholds : (holding (.majorSupport minimum true)).holds context = .ok false := by
      rw [holds, HandTest.holds, hmajor]
    have hdescribe : (holding (.majorSupport minimum true)).describe context =
        .ok "No major opening detected" := by
      rw [describe, HandTest.describe, HandTest.describeMajorSupport, hmajor]
      rfl
    simp [passed_verdict hholds hdescribe]
  | some suit =>
    have hholds : (holding (.majorSupport minimum true)).holds context =
        Comparison.atLeast (context.length suit) (.int minimum) := by
      rw [holds, HandTest.holds, hmajor]
      rfl
    have hpassed : ((holding (.majorSupport minimum true)).verdict context).passed =
        decide (minimum ≤ context.evaluation.length suit) := by
      apply passed_compared (Comparison.atLeast_int _ _) hholds
      rw [describe, HandTest.describe, HandTest.describeMajorSupport, hmajor]
      rfl
    simp [hpassed]

namespace Bergen

open RuleTree

variable {major : Major}

theorem raisableMajor?_opened (h : context.auction.calls = opened major.suit.strain) :
    context.raisableMajor? = some major.suit := by
  rw [Position.raisableMajor?, h]
  cases major <;> rfl

/-! ### The responder's turn -/

/-- A raise of the major, by the name of the bid, with the points that it shows. -/
inductive Raise (points : Int) (major : Major) : String → Call → Prop
  | game (hpoints : 13 ≤ points) :
    Raise points major "bergen-game-raise" (.of 4 major.suit.strain)
  | limit (hminimum : 10 ≤ points) (hmaximum : points ≤ 12) :
    Raise points major "bergen-limit-raise" (.of 3 .diamonds)
  | constructive (hminimum : 7 ≤ points) (hmaximum : points ≤ 9) :
    Raise points major "bergen-constructive-raise" (.of 3 .clubs)
  | preemptive (hpoints : points ≤ 6) :
    Raise points major "bergen-preemptive-raise" (.of 3 major.suit.strain)

namespace Raise

variable {points : Int} {name : String} {call : Call}

theorem game_iff (h : Raise points major name call) :
    name = "bergen-game-raise" ↔ 13 ≤ points := by
  cases h with
  | game hpoints => exact iff_of_true rfl hpoints
  | _ => exact iff_of_false (by decide) (by omega)

theorem limit_iff (h : Raise points major name call) :
    name = "bergen-limit-raise" ↔ 10 ≤ points ∧ points ≤ 12 := by
  cases h with
  | limit hminimum hmaximum => exact iff_of_true rfl ⟨hminimum, hmaximum⟩
  | _ => exact iff_of_false (by decide) (by omega)

theorem constructive_iff (h : Raise points major name call) :
    name = "bergen-constructive-raise" ↔ 7 ≤ points ∧ points ≤ 9 := by
  cases h with
  | constructive hminimum hmaximum => exact iff_of_true rfl ⟨hminimum, hmaximum⟩
  | _ => exact iff_of_false (by decide) (by omega)

theorem preemptive_iff (h : Raise points major name call) :
    name = "bergen-preemptive-raise" ↔ points ≤ 6 := by
  cases h with
  | preemptive hpoints => exact iff_of_true rfl hpoints
  | _ => exact iff_of_false (by decide) (by omega)

end Raise

theorem exists_outcome?_raisingTurn (h : context.auction.calls = opened major.suit.strain) :
    ∃ name call, raisingTurn.outcome? context = some (name, .ok call) ∧
      Raise context.evaluation.points major name call := by
  have hraise (level : Level) : CallRule.raiseMajor level.number context =
      .ok (.of level major.suit.strain) := by
    refine raiseMajor_opened context h ?_ level
    cases major <;> rfl
  have hfour : CallRule.raiseMajor 4 context = .ok (.of 4 major.suit.strain) := hraise 4
  have hthree : CallRule.raiseMajor 3 context = .ok (.of 3 major.suit.strain) := hraise 3
  simp only [raisingTurn, outcome?_ask, outcome?_say, outcome?_workOut,
    Condition.passed_pointsMin, Condition.passed_pointsRange, hfour, hthree]
  split_ifs with hgame hlimit hconstructive
  · exact ⟨_, _, rfl, .game hgame⟩
  · exact ⟨_, _, rfl, .limit hlimit.1 hlimit.2⟩
  · exact ⟨_, _, rfl, .constructive hconstructive.1 hconstructive.2⟩
  · exact ⟨_, _, rfl, .preemptive (by omega)⟩

/-- Over an opening of the major it is the responder's turn with four cards in it. -/
theorem outcome?_opened (h : context.auction.calls = opened major.suit.strain) :
    tree.outcome? context =
      if 4 ≤ context.evaluation.length major.suit then raisingTurn.outcome? context else none := by
  have hopened : ((Condition.auctionIsAny [opened .hearts, opened .spades]).verdict
      context).passed = true := by
    rw [Condition.passed_auctionIsAny, h]
    cases major <;> decide
  have hsupport : ((Condition.holding (.majorSupport 4 true)).verdict context).passed = true ↔
      4 ≤ context.evaluation.length major.suit := by
    refine (Condition.passed_majorSupport 4).trans ?_
    simp [raisableMajor?_opened h]
  rw [tree, outcome?_numbered, outcome?_ask, if_pos hopened, outcome?_ask, outcome?_stop]
  simp only [hsupport]

/-- The tree makes a call exactly with four cards in the major, and it is a raise. -/
theorem exists_ending_opened (h : context.auction.calls = opened major.suit.strain) :
    ((∃ node call, (tree.descend context).ending = .bid node call) ↔
      4 ≤ context.evaluation.length major.suit) ∧
    ∀ node call, (tree.descend context).ending = .bid node call →
      Raise context.evaluation.points major node.name call := by
  obtain ⟨name, call, hcall, hraise⟩ := exists_outcome?_raisingTurn h
  constructor
  · rw [exists_ending_iff, outcome?_opened h]
    split_ifs with hfour
    · exact iff_of_true ⟨name, call, hcall⟩ hfour
    · exact iff_of_false nofun hfour
  · intro node made hending
    have houtcome := outcome?_of_ending hending
    rw [outcome?_opened h] at houtcome
    split_ifs at houtcome with hfour
    rw [hcall] at houtcome
    obtain ⟨hname, hmade⟩ := Prod.mk.inj (Option.some.inj houtcome)
    rw [← hname, ← Except.ok.inj hmade]
    exact hraise

/-! ### The hands -/

/-- The hand opens the major: it has five cards in it, and no more in the other. -/
structure Opens (hand : Hand) (major : Major) : Prop where
  five_le : 5 ≤ hand.length major.suit
  other_le : hand.length major.other.suit ≤ hand.length major.suit

/-- A hand with a five-card major opens its longer one. -/
theorem exists_opens {hand : Hand} (h : ∃ major : Major, 5 ≤ hand.length major.suit) :
    ∃ major : Major, openedBy hand = major.suit.strain ∧ Opens hand major := by
  have hspades : hand.shape.spades = hand.length .spades := rfl
  have hhearts : hand.shape.hearts = hand.length .hearts := rfl
  have hfive : 5 ≤ hand.length .spades ∨ 5 ≤ hand.length .hearts := by
    obtain ⟨major, hlong⟩ := h
    cases major with
    | spades => exact .inl hlong
    | hearts => exact .inr hlong
  unfold openedBy
  rw [hspades, hhearts]
  split_ifs with hlonger
  · refine ⟨.spades, rfl, ?_, ?_⟩
    · exact Int.ofNat_le.mp hlonger.1
    · exact Int.ofNat_le.mp hlonger.2
  · have hopened : 5 ≤ hand.length .hearts ∧ hand.length .spades ≤ hand.length .hearts := by omega
    exact ⟨.hearts, rfl, hopened.1, hopened.2⟩

/-- North has a five-card major, and south from six to twelve points. -/
structure Paired (deal : Deal) (north south : Hand) : Prop where
  north_hand : deal.hand? .north = some north
  south_hand : deal.hand? .south = some south
  north_major : ∃ major : Major, 5 ≤ north.length major.suit
  six_le : 6 ≤ south.points
  le_twelve : south.points ≤ 12

/-- A deal that keeps the constraints of the convention has such hands. -/
theorem exists_paired {deal : Deal} (h : constraints.admits deal = true) :
    ∃ north south, Paired deal north south := by
  obtain ⟨north, hnorthHand, hnorth⟩ := DealConstraints.exists_keeps h (.head _)
  obtain ⟨south, hsouthHand, hsouth⟩ := DealConstraints.exists_keeps h (.tail _ (.head _))
  exact ⟨north, south, {
    north_hand := hnorthHand
    south_hand := hsouthHand
    north_major := hnorth.exists_major rfl
    six_le := Int.ofNat_le.mp (hsouth.minimumPoints 6 rfl)
    le_twelve := Int.ofNat_le.mp (hsouth.maximumPoints 12 rfl) }⟩

/-! ### What a raise shows -/

/-- The raise of the name is right for both hands: they have nine cards in the major, and the name
tells south's points. -/
structure Shows (north south : Hand) (major : Major) (name : String) : Prop where
  fit : 9 ≤ north.length major.suit + south.length major.suit
  limit_iff : name = "bergen-limit-raise" ↔ 10 ≤ south.points ∧ south.points ≤ 12
  constructive_iff : name = "bergen-constructive-raise" ↔ 7 ≤ south.points ∧ south.points ≤ 9
  preemptive_iff : name = "bergen-preemptive-raise" ↔ south.points = 6
  ne_game : name ≠ "bergen-game-raise"

/-- North's five cards and the four of a hand that raises make nine. -/
theorem Paired.shows {deal : Deal} {north south : Hand} {name : String} {call : Call}
    (h : Paired deal north south) (hopens : Opens north major)
    (hsupport : 4 ≤ south.length major.suit) (hraise : Raise south.points major name call) :
    Shows north south major name := by
  have hfive := hopens.five_le
  have hminimum := h.six_le
  have hmaximum := h.le_twelve
  exact {
    fit := by omega
    limit_iff := hraise.limit_iff.trans (by omega)
    constructive_iff := hraise.constructive_iff.trans (by omega)
    preemptive_iff := hraise.preemptive_iff.trans (by omega)
    ne_game := mt hraise.game_iff.mp (by omega) }

/-- In every deal for the convention north opens its longer major, with five cards.  South then has
a call exactly with four cards in that major, and it is a legal raise that is right for both
hands. -/
theorem raise_shows_fit {deal : Deal} (h : constraints.admits deal = true) :
    ∃ north south major auction,
      deal.hand? .north = some north ∧ deal.hand? .south = some south ∧
      convention.opening .south (some deal) = .ok (some auction) ∧
      auction = .ofCalls .north [.of 1 major.suit.strain, .pass] ∧ Opens north major ∧
      ∀ context : Context, context.auction = auction → context.seat = .south →
        context.evaluation = south.evaluation →
          ((∃ node call, (tree.descend context).ending = .bid node call) ↔
            4 ≤ south.length major.suit) ∧
          ∀ node call, (tree.descend context).ending = .bid node call →
            auction.permits call .south = true ∧ Shows north south major node.name := by
  obtain ⟨north, south, hpaired⟩ := exists_paired h
  obtain ⟨major, hstrain, hopens⟩ := exists_opens hpaired.north_major
  refine ⟨north, south, major, .ofCalls .north (opened major.suit.strain), hpaired.north_hand,
    hpaired.south_hand, ?opening, rfl, hopens, fun context hauction hseat hevaluation ↦ ?_⟩
  case opening =>
    rw [← hstrain]
    exact opening_of_hand? hpaired.north_hand
  have hcalls : context.auction.calls = opened major.suit.strain := by
    rw [hauction, Auction.calls_ofCalls]
  have hlength : context.evaluation.length major.suit = south.length major.suit := by
    rw [hevaluation, Hand.length_evaluation]
  have hpoints : context.evaluation.points = south.points := by
    rw [hevaluation]
    rfl
  obtain ⟨hmatches, hraises⟩ := exists_ending_opened hcalls
  rw [hlength] at hmatches
  have hsupport : (∃ node call, (tree.descend context).ending = .bid node call) ↔
      4 ≤ south.length major.suit := hmatches.trans (by omega)
  refine ⟨hsupport, fun node call hending ↦ ⟨?_, ?_⟩⟩
  · have hturn : context.IsTurnOf south (opened major.suit.strain) :=
      ⟨⟨.north, hauction⟩, by rw [hauction, hseat]; rfl, hevaluation⟩
    rw [← hauction, ← hseat]
    exact permits_of_isPermitted (fun dealer ↦ isPermitted_tree dealer context) hturn
      (outcome?_of_ending hending)
  · have hraise := hraises node call hending
    rw [hpoints] at hraise
    exact hpaired.shows hopens (hsupport.mp ⟨node, call, hending⟩) hraise

/-- Six spades and five hearts in a hand of fourteen points. -/
def longMajors : Hand :=
  .ofSuits [.ace, .king, .nine, .seven, .four, .two] [.ace, .queen, .eight, .five, .three] [.four]
    [.jack]

/-- Four spades and four hearts in a hand of six points. -/
def majorResponder : Hand :=
  .ofSuits [.queen, .eight, .six, .three] [.king, .nine, .seven, .two] [.jack, .eight, .two]
    [.nine, .three]

/-- A deal in which north and south have a fit in both majors. -/
def majorFitDeal : Deal where
  hand?
    | .north => some longMajors
    | .south => some majorResponder
    | _ => none

/-- North opens its six spades, and south, who has four of each major, raises them. -/
theorem raise_shows_fit_longMajors :
    constraints.admits majorFitDeal = true ∧
      ∃ node call, (tree.descend (.ofHand majorResponder
        (.ofCalls .north (opened .spades)) .south)).ending = .bid node call ∧
        node.name = "bergen-preemptive-raise" := by
  have hadmits : constraints.admits majorFitDeal = true := by decide
  refine ⟨hadmits, ?_⟩
  obtain ⟨_, _, major, _, hnorth, hsouth, -, rfl, hopens, htree⟩ := raise_shows_fit hadmits
  obtain rfl := Option.some.inj hnorth
  obtain rfl := Option.some.inj hsouth
  have hspades : major = .spades := by
    cases major with
    | spades => rfl
    | hearts => exact absurd hopens.other_le (by decide)
  subst hspades
  obtain ⟨hsupport, hshows⟩ := htree (.ofHand majorResponder (.ofCalls .north (opened .spades))
    .south) rfl rfl rfl
  obtain ⟨node, call, hending⟩ := hsupport.mpr (by decide)
  exact ⟨node, call, hending, (hshows node call hending).2.preemptive_iff.mpr (by decide)⟩

end Bergen

end BridgeBidding
