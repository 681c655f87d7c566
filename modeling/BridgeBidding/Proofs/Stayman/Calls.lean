import BridgeBidding.Convention.Stayman
import BridgeBidding.Proofs.Condition.Verdict
import BridgeBidding.Proofs.Tree.Outcome

/-!
# What is called when asking for a four-card major

Over one notrump the tree comes to a turn of its own after each auction of the convention: the
responder asks, the opener answers in a strain that tells of a four-card major or of none
(`Stayman.answerStrain`), and what the responder rebids tells whether there is a fit and whether
there are values for game (`Stayman.Rebid`).  In longer auctions the convention has nothing to call.
-/

set_option autoImplicit false
set_option relaxedAutoImplicit false

namespace BridgeBidding.Stayman

open RuleTree

variable {context : Context}

/-! ### Turns -/

/-- The calls up to the responder's turn to rebid over an answer in the strain. -/
def answered (answer : Strain) : List Call := asked ++ [.of 2 answer, .pass]

/-- The tree looks for the auction among those that belong to each turn. -/
theorem outcome?_tree (context : Context) :
    tree.outcome? context =
      if context.auction.calls = [.of 1 .notrump, .pass] then
        (askingTurn "" (.of 2 .clubs)).outcome? context
      else if context.auction.calls = [.of 2 .notrump, .pass] then
        (askingTurn "-2nt" (.of 3 .clubs)).outcome? context
      else if context.auction.calls = asked then
        (answeringTurn "" (.of 2 .hearts) (.of 2 .spades) (.of 2 .diamonds)).outcome? context
      else if context.auction.calls = [.of 2 .notrump, .pass, .of 3 .clubs, .pass] then
        (answeringTurn "-2nt" (.of 3 .hearts) (.of 3 .spades) (.of 3 .diamonds)).outcome? context
      else if context.auction.calls = answered .hearts then
        (afterMajor .hearts "h").outcome? context
      else if context.auction.calls = answered .spades then
        (afterMajor .spades "s").outcome? context
      else if context.auction.calls = answered .diamonds then
        afterDenial.outcome? context
      else none := by
  rw [tree, outcome?_numbered]
  simp only [outcome?_ask, Condition.passed_auctionIs, outcome?_stop]
  rfl

theorem outcome?_opened (h : context.auction.calls = [.of 1 .notrump, .pass]) :
    tree.outcome? context = (askingTurn "" (.of 2 .clubs)).outcome? context := by
  rw [outcome?_tree, if_pos h]

theorem outcome?_asked (h : context.auction.calls = asked) :
    tree.outcome? context =
      (answeringTurn "" (.of 2 .hearts) (.of 2 .spades) (.of 2 .diamonds)).outcome? context := by
  rw [outcome?_tree, h, if_neg (by decide), if_neg (by decide), if_pos rfl]

theorem outcome?_answered_hearts (h : context.auction.calls = answered .hearts) :
    tree.outcome? context = (afterMajor .hearts "h").outcome? context := by
  rw [outcome?_tree, h, if_neg (by decide), if_neg (by decide), if_neg (by decide),
    if_neg (by decide), if_pos rfl]

theorem outcome?_answered_spades (h : context.auction.calls = answered .spades) :
    tree.outcome? context = (afterMajor .spades "s").outcome? context := by
  rw [outcome?_tree, h, if_neg (by decide), if_neg (by decide), if_neg (by decide),
    if_neg (by decide), if_neg (by decide), if_pos rfl]

theorem outcome?_answered_diamonds (h : context.auction.calls = answered .diamonds) :
    tree.outcome? context = afterDenial.outcome? context := by
  rw [outcome?_tree, h, if_neg (by decide), if_neg (by decide), if_neg (by decide),
    if_neg (by decide), if_neg (by decide), if_neg (by decide), if_pos rfl]

/-- Once the responder has rebid the convention has no turn any more. -/
theorem outcome?_eq_none (h : 6 < context.auction.calls.length) : tree.outcome? context = none := by
  have hother (calls : List Call) (hlength : calls.length ≤ 6) :
      ¬ context.auction.calls = calls := by
    rintro rfl
    omega
  rw [outcome?_tree, if_neg (hother _ (by decide)), if_neg (hother _ (by decide)),
    if_neg (hother _ (by decide)), if_neg (hother _ (by decide)), if_neg (hother _ (by decide)),
    if_neg (hother _ (by decide)), if_neg (hother _ (by decide))]

/-! ### The responder asks -/

theorem outcome?_askingTurn {suffix : String} {call : Call} (major : Major)
    (hpoints : 8 ≤ context.evaluation.points)
    (hmajor : 4 ≤ context.evaluation.length major.suit) :
    (askingTurn suffix call).outcome? context = some ("stayman-ask", .ok call) := by
  have hsuit : major.suit ∈ [Suit.spades, .hearts] := by cases major <;> decide
  rw [askingTurn, outcome?_ask, if_pos ((Condition.passed_pointsMin 8).mpr hpoints), outcome?_ask,
    if_pos ((Condition.passed_anySuitMin _ 4).mpr ⟨_, hsuit, hmajor⟩), outcome?_say]

/-! ### The opener answers -/

/-- The strain that tells of a four-card major, of hearts first, or of none. -/
def answerStrain (evaluation : Evaluation) : Strain :=
  if 4 ≤ evaluation.length .hearts then .hearts
  else if 4 ≤ evaluation.length .spades then .spades
  else .diamonds

theorem answerStrain_mem (evaluation : Evaluation) :
    answerStrain evaluation ∈ [Strain.hearts, .spades, .diamonds] := by
  unfold answerStrain
  split
  · decide
  · split
    · decide
    · decide

/-- The opener's call tells of a four-card major or of none. -/
theorem exists_outcome?_answeringTurn (suffix : String) (level : Level) (context : Context) :
    ∃ name, (answeringTurn suffix (.of level .hearts) (.of level .spades)
      (.of level .diamonds)).outcome? context =
        some (name, .ok (.of level (answerStrain context.evaluation))) := by
  simp only [answeringTurn, outcome?_ask, outcome?_say, Condition.passed_suitMin, answerStrain]
  by_cases hhearts : 4 ≤ context.evaluation.length .hearts
  · exact ⟨_, by rw [if_pos hhearts, if_pos hhearts]⟩
  · by_cases hspades : 4 ≤ context.evaluation.length .spades
    · exact ⟨_, by rw [if_neg hhearts, if_neg hhearts, if_pos hspades, if_pos hspades]⟩
    · exact ⟨_, by rw [if_neg hhearts, if_neg hhearts, if_neg hspades, if_neg hspades]⟩

/-! ### The responder rebids -/

/-- The responder's rebid over an answer in the strain, by the name of the bid, with what it tells
about the hand. -/
inductive Rebid (evaluation : Evaluation) (answer : Strain) : String → Bid → Prop
  | majorFit (major : Major) (hanswer : answer = major.suit.strain)
    (hfit : 4 ≤ evaluation.length major.suit) (hpoints : 10 ≤ evaluation.points) :
    Rebid evaluation answer "stayman-rebid-major-fit" ⟨4, major.suit.strain⟩
  | majorFitInvite (major : Major) (hanswer : answer = major.suit.strain)
    (hfit : 4 ≤ evaluation.length major.suit) (hpoints : evaluation.points < 10) :
    Rebid evaluation answer "stayman-rebid-major-fit-invite" ⟨3, major.suit.strain⟩
  | noFit (hmisfit : ∀ major : Major, answer = major.suit.strain →
      evaluation.length major.suit < 4) (hpoints : 10 ≤ evaluation.points) :
    Rebid evaluation answer "stayman-rebid-no-fit" ⟨3, .notrump⟩
  | noFitInvite (hmisfit : ∀ major : Major, answer = major.suit.strain →
      evaluation.length major.suit < 4) (hpoints : evaluation.points < 10) :
    Rebid evaluation answer "stayman-rebid-no-fit-invite" ⟨2, .notrump⟩
  | smolenHearts (hanswer : answer = .diamonds) (hspades : 4 ≤ evaluation.length .spades)
    (hhearts : 5 ≤ evaluation.length .hearts) (hpoints : 10 ≤ evaluation.points) :
    Rebid evaluation answer "stayman-rebid-smolen-hearts" ⟨3, .hearts⟩
  | smolenSpades (hanswer : answer = .diamonds) (hspades : 5 ≤ evaluation.length .spades)
    (hhearts : 4 ≤ evaluation.length .hearts) (hpoints : 10 ≤ evaluation.points) :
    Rebid evaluation answer "stayman-rebid-smolen-spades" ⟨3, .spades⟩

/-- A major is told by its strain. -/
theorem major_eq_of_strain_eq {major other : Major}
    (h : major.suit.strain = other.suit.strain) : major = other := by
  cases major with
  | spades => cases other with
    | spades => rfl
    | hearts => cases h
  | hearts => cases other with
    | spades => cases h
    | hearts => rfl

/-- The tree comes to a rebid over an answer. -/
def Rebids (context : Context) (answer : Strain) (tree : RuleTree) : Prop :=
  ∃ name bid, tree.outcome? context = some (name, .ok (.bid bid)) ∧
    Rebid context.evaluation answer name bid

theorem rebids_withoutFit {answer : Strain} {name : String}
    (hmisfit : ∀ major : Major, answer = major.suit.strain →
      context.evaluation.length major.suit < 4) :
    Rebids context answer (withoutFit name) := by
  unfold Rebids
  simp only [withoutFit, outcome?_ask, outcome?_say, Condition.passed_pointsMin]
  by_cases hgame : 10 ≤ context.evaluation.points
  · rw [if_pos hgame]
    exact ⟨_, _, rfl, .noFit hmisfit hgame⟩
  · rw [if_neg hgame]
    exact ⟨_, _, rfl, .noFitInvite hmisfit (Int.not_le.mp hgame)⟩

/-- With four cards in the major that was shown the responder raises. -/
theorem rebids_afterMajor (major : Major) (letter : String) :
    Rebids context major.suit.strain (afterMajor major.suit letter) := by
  unfold Rebids
  rw [afterMajor, outcome?_ask]
  by_cases hfit : 4 ≤ context.evaluation.length major.suit
  · rw [if_pos ((Condition.passed_suitMin _ 4).mpr hfit), outcome?_ask]
    by_cases hgame : 10 ≤ context.evaluation.points
    · rw [if_pos ((Condition.passed_pointsMin 10).mpr hgame)]
      exact ⟨_, _, rfl, .majorFit major rfl hfit hgame⟩
    · rw [if_neg (mt (Condition.passed_pointsMin 10).mp hgame)]
      exact ⟨_, _, rfl, .majorFitInvite major rfl hfit (Int.not_le.mp hgame)⟩
  · rw [if_neg (mt (Condition.passed_suitMin _ 4).mp hfit)]
    refine rebids_withoutFit fun other hother ↦ ?_
    rw [← major_eq_of_strain_eq hother]
    exact Int.not_le.mp hfit

/-- After a denial the responder shows five cards in one major and four in the other. -/
theorem rebids_afterDenial : Rebids context .diamonds afterDenial := by
  unfold Rebids
  simp only [afterDenial, outcome?_ask, outcome?_say, Condition.passed_conjunction, List.all_cons,
    List.all_nil, Bool.and_true, Bool.and_eq_true, Condition.passed_pointsMin,
    Condition.passed_suitMin]
  by_cases hhearts : 10 ≤ context.evaluation.points ∧ 4 ≤ context.evaluation.length .spades ∧
      5 ≤ context.evaluation.length .hearts
  · rw [if_pos hhearts]
    exact ⟨_, _, rfl, .smolenHearts rfl hhearts.2.1 hhearts.2.2 hhearts.1⟩
  · rw [if_neg hhearts]
    by_cases hspades : 10 ≤ context.evaluation.points ∧ 5 ≤ context.evaluation.length .spades ∧
        4 ≤ context.evaluation.length .hearts
    · rw [if_pos hspades]
      exact ⟨_, _, rfl, .smolenSpades rfl hspades.2.1 hspades.2.2 hspades.1⟩
    · rw [if_neg hspades]
      refine rebids_withoutFit fun major hmajor ↦ ?_
      cases major <;> cases hmajor

/-- Over each of the answers the tree comes to a rebid. -/
theorem rebids_tree {answer : Strain} (hanswer : answer ∈ [Strain.hearts, .spades, .diamonds])
    (h : context.auction.calls = answered answer) : Rebids context answer tree := by
  simp only [List.mem_cons, List.not_mem_nil, or_false] at hanswer
  unfold Rebids
  rcases hanswer with rfl | rfl | rfl
  · rw [outcome?_answered_hearts h]
    exact rebids_afterMajor .hearts "h"
  · rw [outcome?_answered_spades h]
    exact rebids_afterMajor .spades "s"
  · rw [outcome?_answered_diamonds h]
    exact rebids_afterDenial

/-! ### What a rebid tells -/

/-- The names of the raises of a major. -/
def raiseNames : List String := ["stayman-rebid-major-fit", "stayman-rebid-major-fit-invite"]

/-- The names of the invitations to game. -/
def invitationNames : List String :=
  ["stayman-rebid-major-fit-invite", "stayman-rebid-no-fit-invite"]

/-- The names of the jumps in the shorter of two majors. -/
def smolenNames : List String := ["stayman-rebid-smolen-hearts", "stayman-rebid-smolen-spades"]

/-- The bids of a game. -/
def gameBids : List Bid := [⟨4, .hearts⟩, ⟨4, .spades⟩, ⟨3, .notrump⟩]

namespace Rebid

variable {evaluation : Evaluation} {answer : Strain} {name : String} {bid : Bid}

/-- Every rebid outranks the answer. -/
theorem outranks (h : Rebid evaluation answer name bid)
    (hanswer : answer ∈ [Strain.hearts, .spades, .diamonds]) :
    bid.outranks ⟨2, answer⟩ = true := by
  have hhigher : ∀ answer ∈ [Strain.hearts, .spades, .diamonds],
      ∀ bid ∈ ([⟨4, .hearts⟩, ⟨4, .spades⟩, ⟨3, .hearts⟩, ⟨3, .spades⟩, ⟨3, .notrump⟩,
        ⟨2, .notrump⟩] : List Bid), bid.outranks ⟨2, answer⟩ = true := by decide
  refine hhigher answer hanswer bid ?_
  cases h with
  | majorFit major => cases major <;> decide
  | majorFitInvite major => cases major <;> decide
  | _ => decide

/-- A raise is made exactly with four cards in the major that was shown. -/
theorem raise_iff (h : Rebid evaluation answer name bid) :
    name ∈ raiseNames ↔
      ∃ major : Major, answer = major.suit.strain ∧ 4 ≤ evaluation.length major.suit := by
  have hshort (hmisfit : ∀ major : Major, answer = major.suit.strain →
      evaluation.length major.suit < 4) :
      ¬ ∃ major : Major, answer = major.suit.strain ∧ 4 ≤ evaluation.length major.suit := by
    rintro ⟨major, hanswer, hfit⟩
    exact Int.not_le.mpr (hmisfit major hanswer) hfit
  have hdenied (hdenial : answer = .diamonds) :
      ¬ ∃ major : Major, answer = major.suit.strain ∧ 4 ≤ evaluation.length major.suit := by
    rintro ⟨major, hanswer, -⟩
    cases major <;> cases hdenial.symm.trans hanswer
  cases h with
  | majorFit major hanswer hfit => exact iff_of_true (by decide) ⟨major, hanswer, hfit⟩
  | majorFitInvite major hanswer hfit => exact iff_of_true (by decide) ⟨major, hanswer, hfit⟩
  | noFit hmisfit => exact iff_of_false (by decide) (hshort hmisfit)
  | noFitInvite hmisfit => exact iff_of_false (by decide) (hshort hmisfit)
  | smolenHearts hdenial => exact iff_of_false (by decide) (hdenied hdenial)
  | smolenSpades hdenial => exact iff_of_false (by decide) (hdenied hdenial)

/-- A raise keeps the strain of the answer. -/
theorem strain_of_raise (h : Rebid evaluation answer name bid) (hraise : name ∈ raiseNames) :
    bid.strain = answer := by
  cases h with
  | majorFit major hanswer => exact hanswer.symm
  | majorFitInvite major hanswer => exact hanswer.symm
  | _ => exact absurd hraise (by decide)

/-- An invitation is made exactly with fewer than ten points. -/
theorem invitation_iff (h : Rebid evaluation answer name bid) :
    name ∈ invitationNames ↔ evaluation.points < 10 := by
  cases h with
  | majorFitInvite _ _ _ hpoints => exact iff_of_true (by decide) hpoints
  | noFitInvite _ hpoints => exact iff_of_true (by decide) hpoints
  | majorFit _ _ _ hpoints => exact iff_of_false (by decide) (Int.not_lt.mpr hpoints)
  | noFit _ hpoints => exact iff_of_false (by decide) (Int.not_lt.mpr hpoints)
  | smolenHearts _ _ _ hpoints => exact iff_of_false (by decide) (Int.not_lt.mpr hpoints)
  | smolenSpades _ _ _ hpoints => exact iff_of_false (by decide) (Int.not_lt.mpr hpoints)

/-- Game is bid, or forced by a jump in the shorter major, with ten points. -/
theorem points_of_game (h : Rebid evaluation answer name bid)
    (hgame : bid ∈ gameBids ∨ name ∈ smolenNames) : 10 ≤ evaluation.points := by
  cases h with
  | majorFit _ _ _ hpoints => exact hpoints
  | majorFitInvite major =>
    refine absurd hgame ?_
    cases major <;> decide
  | noFit _ hpoints => exact hpoints
  | noFitInvite => exact absurd hgame (by decide)
  | smolenHearts _ _ _ hpoints => exact hpoints
  | smolenSpades _ _ _ hpoints => exact hpoints

end Rebid

end BridgeBidding.Stayman
