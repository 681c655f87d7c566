import BridgeBidding.Proofs.Auction.Dialogue
import BridgeBidding.Proofs.Deal.Constraints
import BridgeBidding.Proofs.Hand.Counting
import BridgeBidding.Proofs.Stayman.Calls

/-!
# The dialogue about four-card majors

Over one notrump by north and with silent opponents, every deal that the convention is meant for
leads to a dialogue of three bids: south asks, north answers and south rebids
(`Stayman.Suited.exists_script`).  The answer tells truly of north's majors (`Stayman.Tells`), and
the rebid fits both hands (`Stayman.Agrees`): a major is raised exactly with four cards in it, game
is bid only with twenty-five points between the hands, and an invitation is made exactly with eight
or nine points.
-/

set_option autoImplicit false
set_option relaxedAutoImplicit false

namespace BridgeBidding.Stayman

open RuleTree Auction

/-- The opening that is asked. -/
def openingBid : Bid := ⟨1, .notrump⟩

/-- The ask for a four-card major. -/
def askBid : Bid := ⟨2, .clubs⟩

/-- The auctions of a deal in which north has opened one notrump, north and south bid by the
convention, and east and west pass. -/
abbrev Asked (deal : Deal) : Auction → Prop :=
  Auction.Dialogue .north (tree.callOf deal) (ofCalls .north [.of 1 .notrump, .pass])

variable {deal : Deal} {north south : Hand}

/-! ### The hands -/

/-- North has a notrump opening without a five-card major, and south the values to ask and a
four-card major. -/
structure Suited (deal : Deal) (north south : Hand) : Prop where
  north_hand : deal.hand? .north = some north
  south_hand : deal.hand? .south = some south
  north_points : 15 ≤ north.points
  north_spades : north.length .spades ≤ 4
  north_hearts : north.length .hearts ≤ 4
  south_points : 8 ≤ south.points
  south_major : ∃ major : Major, 4 ≤ south.length major.suit

/-- A deal that keeps the constraints of the convention has such hands. -/
theorem exists_suited (h : constraints.admits deal = true) :
    ∃ north south, Suited deal north south := by
  obtain ⟨north, hnorthHand, hnorth⟩ := DealConstraints.exists_keeps h (.head _)
  obtain ⟨south, hsouthHand, hsouth⟩ := DealConstraints.exists_keeps h (.tail _ (.head _))
  exact ⟨north, south, {
    north_hand := hnorthHand
    south_hand := hsouthHand
    north_points := Int.ofNat_le.mp (hnorth.minimumPoints 15 rfl)
    north_spades := Int.ofNat_le.mp (hnorth.maximumLength _ (.head _))
    north_hearts := Int.ofNat_le.mp (hnorth.maximumLength _ (.tail _ (.head _)))
    south_points := Int.ofNat_le.mp (hsouth.minimumPoints 8 rfl)
    south_major := hsouth.exists_major rfl }⟩

/-! ### What is said -/

namespace Suited

theorem outcome?_ask (h : Suited deal north south) :
    tree.outcome? (contextAfter deal .north 0 south [openingBid]) =
      some ("stayman-ask", .ok (.bid askBid)) := by
  obtain ⟨major, hmajor⟩ := h.south_major
  have hlong : 4 ≤ (contextAfter deal .north 0 south [openingBid]).evaluation.length major.suit :=
    (Int.ofNat_le.mpr hmajor).trans_eq (Hand.length_evaluation south major.suit).symm
  rw [outcome?_opened (calls_contextAfter ..)]
  exact outcome?_askingTurn major (Int.ofNat_le.mpr h.south_points) hlong

end Suited

/-- North's answer tells of its majors. -/
theorem exists_outcome?_answer (deal : Deal) (north : Hand) :
    ∃ name, tree.outcome? (contextAfter deal .north 0 north [openingBid, askBid]) =
      some (name, .ok (.bid ⟨2, answerStrain north.evaluation⟩)) := by
  rw [outcome?_asked (calls_contextAfter ..)]
  exact exists_outcome?_answeringTurn "" 2 _

/-- South's rebid fits the answer. -/
theorem exists_outcome?_rebid (deal : Deal) (south : Hand) {answer : Strain}
    (hanswer : answer ∈ [Strain.hearts, .spades, .diamonds]) :
    ∃ name bid, tree.outcome?
        (contextAfter deal .north 0 south [openingBid, askBid, ⟨2, answer⟩]) =
          some (name, .ok (.bid bid)) ∧
      Rebid south.evaluation answer name bid :=
  rebids_tree hanswer (calls_contextAfter ..)

/-- After the rebid nobody has anything to say. -/
theorem saidAfter_eq_pass (deal : Deal) (answer rebid : Bid) :
    saidAfter (tree.callOf deal) .north 0 [openingBid, askBid, answer, rebid] = .pass := by
  refine saidAfter_callOf_eq_pass fun hand ↦ outcome?_eq_none ?_
  rw [calls_contextAfter, length_exchange]
  simp

/-! ### The dialogue -/

/-- In the dialogue it comes to the seat's turn after the calls, the tree matches the bid of the
name for its hand, and the call of the bid is legal. -/
structure Turn (deal : Deal) (calls : List Call) (seat : Seat) (name : String) (call : Call) :
    Prop where
  reached : Asked deal (ofCalls .north calls)
  isOpen : (ofCalls .north calls).isOver = false
  toAct : (ofCalls .north calls).toAct? = some seat
  matched : tree.Matches deal (ofCalls .north calls) seat name call
  legal : (ofCalls .north calls).permits call seat = true

/-- A bid of a script that rises is made at a turn. -/
theorem turn_of_follows (before : List Bid) {after : List Bid} {bid : Bid} {hand : Hand}
    {name : String}
    (hfollows : Follows (tree.callOf deal) .north 0 [openingBid] (before ++ bid :: after))
    (hchain : (openingBid :: (before ++ bid :: after)).IsChain fun low high ↦
      high.outranks low = true)
    (hhand : deal.hand? (Seat.north.advance (0 + 2 * (openingBid :: before).length)) = some hand)
    (houtcome : tree.outcome? (contextAfter deal .north 0 hand (openingBid :: before)) =
      some (name, .ok (.bid bid))) :
    Turn deal (exchange 0 (openingBid :: before))
      (Seat.north.advance (0 + 2 * (openingBid :: before).length)) name (.bid bid) := by
  have hopen := @isOver_exchange .north 0 (openingBid :: before) (by simp) [] (by simp)
  rw [List.append_nil] at hopen
  obtain ⟨node, hending, hname⟩ := exists_ending_of_outcome? houtcome
  exact {
    reached := hfollows.dialogue_turn (by simp) rfl
    isOpen := hopen
    toAct := by rw [toAct?_ofCalls, length_exchange]
    matched := ⟨hand, node, hhand, hname, hending⟩
    legal := permits_exchange_of_isChain (by simp) hchain }

/-- The bids of the dialogue after the opening. -/
def script (north : Hand) (rebid : Bid) : List Bid :=
  [askBid, ⟨2, answerStrain north.evaluation⟩, rebid]

namespace Suited

/-- With some rebid that fits the answer the two hands bid out the script. -/
theorem exists_script (h : Suited deal north south) :
    ∃ name rebid, Rebid south.evaluation (answerStrain north.evaluation) name rebid ∧
      Follows (tree.callOf deal) .north 0 [openingBid] (script north rebid) ∧
      tree.outcome? (contextAfter deal .north 0 south
        [openingBid, askBid, ⟨2, answerStrain north.evaluation⟩]) =
          some (name, .ok (.bid rebid)) := by
  obtain ⟨answerName, hanswer⟩ := exists_outcome?_answer deal north
  obtain ⟨name, rebid, hrebid, hfits⟩ :=
    exists_outcome?_rebid deal south (answerStrain_mem north.evaluation)
  have hsaysAsk : saidAfter (tree.callOf deal) .north 0 [openingBid] = .bid askBid :=
    saidAfter_callOf h.south_hand h.outcome?_ask
  have hsaysAnswer : saidAfter (tree.callOf deal) .north 0 [openingBid, askBid] =
      .bid ⟨2, answerStrain north.evaluation⟩ := saidAfter_callOf h.north_hand hanswer
  have hsaysRebid : saidAfter (tree.callOf deal) .north 0
      [openingBid, askBid, ⟨2, answerStrain north.evaluation⟩] = .bid rebid :=
    saidAfter_callOf h.south_hand hrebid
  exact ⟨name, rebid, hfits,
    ⟨hsaysAsk, hsaysAnswer, hsaysRebid, saidAfter_eq_pass deal _ rebid⟩, hrebid⟩

end Suited

/-! ### What the bids tell -/

/-- The answer is true of north's majors. -/
structure Tells (north : Hand) (answer : Bid) : Prop where
  hearts_iff : answer = ⟨2, .hearts⟩ ↔ north.length .hearts = 4
  spades_iff : answer = ⟨2, .spades⟩ ↔ north.length .spades = 4 ∧ north.length .hearts ≠ 4
  denial_iff : answer = ⟨2, .diamonds⟩ ↔ north.length .hearts ≠ 4 ∧ north.length .spades ≠ 4

/-- The rebid over the answer is right for both hands. -/
structure Agrees (north south : Hand) (answer : Bid) (name : String) (rebid : Bid) : Prop where
  misfit_of_denial : answer = ⟨2, .diamonds⟩ →
    ¬ ∃ major : Major, 4 ≤ north.length major.suit ∧ 4 ≤ south.length major.suit
  raise_iff : name ∈ raiseNames ↔
    ∃ major : Major, answer = ⟨2, major.suit.strain⟩ ∧ 4 ≤ south.length major.suit
  strain_of_raise : name ∈ raiseNames → rebid.strain = answer.strain
  points_of_game : rebid ∈ gameBids ∨ name ∈ smolenNames → 25 ≤ north.points + south.points
  invitation_iff : name ∈ invitationNames ↔ south.points = 8 ∨ south.points = 9

/-- The answer by the cards of the hand. -/
theorem answerStrain_evaluation (hand : Hand) :
    answerStrain hand.evaluation =
      if 4 ≤ hand.length .hearts then .hearts
      else if 4 ≤ hand.length .spades then .spades
      else .diamonds := by
  have hlong (suit : Suit) : 4 ≤ hand.evaluation.length suit ↔ 4 ≤ hand.length suit := by
    rw [Hand.length_evaluation]
    exact Int.ofNat_le
  simp only [answerStrain, hlong]

namespace Suited

/-- North has no five-card major, so that the answer tells the length. -/
theorem tells (h : Suited deal north south) : Tells north ⟨2, answerStrain north.evaluation⟩ := by
  have hspades := h.north_spades
  have hhearts := h.north_hearts
  rw [answerStrain_evaluation]
  by_cases hfour : 4 ≤ north.length .hearts
  · rw [if_pos hfour]
    exact {
      hearts_iff := iff_of_true rfl (by omega)
      spades_iff := iff_of_false (by decide) (by omega)
      denial_iff := iff_of_false (by decide) (by omega) }
  · rw [if_neg hfour]
    by_cases hother : 4 ≤ north.length .spades
    · rw [if_pos hother]
      exact {
        hearts_iff := iff_of_false (by decide) (by omega)
        spades_iff := iff_of_true rfl (by omega)
        denial_iff := iff_of_false (by decide) (by omega) }
    · rw [if_neg hother]
      exact {
        hearts_iff := iff_of_false (by decide) (by omega)
        spades_iff := iff_of_false (by decide) (by omega)
        denial_iff := iff_of_true rfl (by omega) }

/-- North's fifteen points and the ten of a hand that bids game make twenty-five. -/
theorem agrees (h : Suited deal north south) {name : String} {rebid : Bid}
    (hrebid : Rebid south.evaluation (answerStrain north.evaluation) name rebid) :
    Agrees north south ⟨2, answerStrain north.evaluation⟩ name rebid := by
  have hnorth := h.north_points
  have hsouth := h.south_points
  have hpoints : south.evaluation.points = south.points := rfl
  exact {
    misfit_of_denial := by
      intro hdenial
      obtain ⟨hhearts, hspades⟩ := h.tells.denial_iff.mp hdenial
      rintro ⟨major, hlong, -⟩
      cases major with
      | spades => exact hspades (Nat.le_antisymm h.north_spades hlong)
      | hearts => exact hhearts (Nat.le_antisymm h.north_hearts hlong)
    raise_iff := by
      simp only [hrebid.raise_iff, Hand.length_evaluation, Bid.mk.injEq, true_and]
      exact exists_congr fun major ↦ and_congr_right fun _ ↦ Int.ofNat_le
    strain_of_raise := hrebid.strain_of_raise
    points_of_game := by
      intro hgame
      have hten := hrebid.points_of_game hgame
      omega
    invitation_iff := by
      rw [hrebid.invitation_iff]
      omega }

end Suited

/-- Every deal for the convention is bid out in three turns, at each of which the tree matches a bid
and the bid is legal: south asks, north answers truly, and south rebids by what both hands have.
Then everybody passes. -/
theorem dialogue_truthful (h : constraints.admits deal = true) :
    ∃ north south answerName answer rebidName rebid,
      deal.hand? .north = some north ∧ deal.hand? .south = some south ∧
      Turn deal [.of 1 .notrump, .pass] .south "stayman-ask" (.of 2 .clubs) ∧
      Turn deal asked .north answerName (.bid answer) ∧
      Turn deal (asked ++ [.bid answer, .pass]) .south rebidName (.bid rebid) ∧
      (∃ auction, Asked deal auction ∧ auction.isOver = true) ∧
      (∀ auction, Asked deal auction → auction.isOver = true →
        auction = ofCalls .north
          (asked ++ [.bid answer, .pass, .bid rebid, .pass, .pass, .pass])) ∧
      Tells north answer ∧ Agrees north south answer rebidName rebid := by
  obtain ⟨north, south, hsuited⟩ := exists_suited h
  obtain ⟨answerName, hanswer⟩ := exists_outcome?_answer deal north
  obtain ⟨rebidName, rebid, hfits, hfollows, hrebid⟩ := hsuited.exists_script
  have hchain : (openingBid :: script north rebid).IsChain
      fun low high ↦ high.outranks low = true := by
    have hover : ∀ answer ∈ [Strain.hearts, .spades, .diamonds],
        (⟨2, answer⟩ : Bid).outranks askBid = true := by decide
    have hmem := answerStrain_mem north.evaluation
    simp only [script, List.isChain_cons_cons, List.isChain_singleton, and_true]
    exact ⟨by decide, hover _ hmem, hfits.outranks hmem⟩
  refine ⟨north, south, answerName, ⟨2, answerStrain north.evaluation⟩, rebidName, rebid,
    hsuited.north_hand, hsuited.south_hand, ?asks, ?answers, ?rebids, ?ends, ?only, hsuited.tells,
    hsuited.agrees hfits⟩
  case asks => exact turn_of_follows [] hfollows hchain hsuited.south_hand hsuited.outcome?_ask
  case answers => exact turn_of_follows [askBid] hfollows hchain hsuited.north_hand hanswer
  case rebids => exact turn_of_follows [askBid, _] hfollows hchain hsuited.south_hand hrebid
  case ends =>
    refine ⟨_, hfollows.dialogue_ended (by simp) rfl, ?_⟩
    rw [isOver_ofCalls]
    exact isFinished_exchange_passes (by simp)
  case only =>
    intro auction hrun hover
    exact hfollows.eq_of_isOver (by simp) rfl hrun hover

/-- Ten points with four hearts and four spades, opposite a notrump opening with four hearts. -/
def heartResponder : Hand :=
  .ofSuits [.king, .nine, .seven, .two] [.ace, .queen, .five, .three] [.jack, .four]
    [.eight, .six, .two]

/-- A deal with a fit in hearts. -/
def heartFitDeal : Deal where
  hand?
    | .north => some .strongNotrump
    | .south => some heartResponder
    | _ => none

theorem dialogue_truthful_heartFit :
    constraints.admits heartFitDeal = true ∧
      ∃ name rebid, Turn heartFitDeal (asked ++ [.of 2 .hearts, .pass]) .south name (.bid rebid) ∧
        name ∈ raiseNames ∧ rebid.strain = .hearts := by
  have hadmits : constraints.admits heartFitDeal = true := by decide
  obtain ⟨_, _, _, _, name, rebid, hnorth, hsouth, -, -, hturn, -, -, htells, hagrees⟩ :=
    dialogue_truthful hadmits
  obtain rfl := Option.some.inj hnorth
  obtain rfl := Option.some.inj hsouth
  obtain rfl := htells.hearts_iff.mpr (by decide)
  have hraise : name ∈ raiseNames := hagrees.raise_iff.mpr ⟨.hearts, rfl, by decide⟩
  exact ⟨hadmits, name, rebid, hturn, hraise, hagrees.strain_of_raise hraise⟩

end BridgeBidding.Stayman
