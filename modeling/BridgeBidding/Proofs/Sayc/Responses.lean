import BridgeBidding.Proofs.Auction.Reachable
import BridgeBidding.Proofs.Sayc.Uncontested

/-!
# The first response of the natural system

Partner has made the only bid of the auction.  The bids of the system are of fixed levels, and the
questions above a response let through only openings that it outranks (`Sayc.first_response_legal`).

For most responses the questions about the opening see to that.  One spade is bid over either major
as far as these go; that the major was hearts follows from the hand.  Three questions for raises
stand above that bid, and their points leave no gap: a hand with four cards in partner's major and
six points or more makes one of the raises (`Sayc.exists_raise`), so that over one spade no hand
with four spades comes to the question for them.
-/

set_option autoImplicit false
set_option relaxedAutoImplicit false

namespace BridgeBidding.Sayc

open RuleTree

variable {context : Context}

/-- The raises of partner's major, by the names of their bids. -/
def raises : List (String × Level) :=
  [("sayc-respond-simple-raise", .two), ("sayc-respond-limit-raise", .three),
    ("sayc-respond-game-raise", .four)]

/-- With four cards in partner's suit and the values to respond, one of the raises is made. -/
theorem exists_raise {strain : Strain} {suit : Suit}
    (hpartner : context.partnerFirstStrain? = some strain) (hsuit : strain.suit? = some suit)
    (hvalues : 6 ≤ context.evaluation.points) (hlength : 4 ≤ context.evaluation.length suit) :
    ∃ raise ∈ raises,
      afterMajor.outcome? context = some (raise.1, .ok (.of raise.2 strain)) := by
  have hraise (level : Level) :
      CallRule.inPartnerFirst level.number context = .ok (.of level strain) :=
    inStrain_eq_ok hpartner level
  have hpassed := passed_raise hpartner hsuit hvalues hlength
  simp only [afterMajor, outcome?_ask, if_pos ((Condition.passed_pointsMin 6).mpr hvalues)]
  by_cases hsimple : ((Condition.conjunction
      [.pointsRange 6 10, .holding (.partnerSuitSupport 3)]).verdict context).passed = true
  · rw [if_pos hsimple]
    exact ⟨("sayc-respond-simple-raise", .two), by simp [raises],
      outcome?_workOut_of_ok (hraise .two)⟩
  rw [if_neg hsimple]
  by_cases hlimit : ((Condition.conjunction
      [.pointsRange 10 12, .holding (.partnerSuitSupport 4)]).verdict context).passed = true
  · rw [if_pos hlimit]
    exact ⟨("sayc-respond-limit-raise", .three), by simp [raises],
      outcome?_workOut_of_ok (hraise .three)⟩
  rw [if_neg hlimit, if_pos ((hpassed.resolve_left hsimple).resolve_left hlimit)]
  exact ⟨("sayc-respond-game-raise", .four), by simp [raises],
    outcome?_workOut_of_ok (hraise .four)⟩

/-- The name of the bid of one spade over a major. -/
def spadeOverHeart : String := "sayc-respond-1s-over-1h"

theorem raise_ne_spadeOverHeart : ∀ raise ∈ raises, raise.1 ≠ spadeOverHeart := by decide

/-- After one of a major, one spade is bid on the values to respond and four spades. -/
theorem ensures_afterMajor :
    Ensures context (fun name _ ↦ name = spadeOverHeart →
      6 ≤ context.evaluation.points ∧ 4 ≤ context.evaluation.length .spades) afterMajor := by
  refine .ask (fun hvalues ↦ .ask (fun _ ↦ ?simple) fun _ ↦ .ask (fun _ ↦ ?limit) fun _ ↦
    .ask (fun _ ↦ ?game) fun _ ↦ .ask (fun hspades ↦ ?fourSpades) fun _ ↦ ?others) fun _ ↦ ?weak
  case simple => exact .of_names (by decide)
  case limit => exact .of_names (by decide)
  case game => exact .of_names (by decide)
  case others => exact .of_names (by decide)
  case weak => exact .of_names (by decide)
  case fourSpades =>
    intro name made _ _
    exact ⟨(Condition.passed_pointsMin 6).mp hvalues,
      (Condition.passed_suitMin .spades 4).mp hspades⟩

/-- One spade over a major is bid only over hearts, since every hand that could bid it over spades
raises. -/
theorem ensures_respondingTurn {opening : Bid}
    (h : context.openingBid? = some (context.seat.partner, opening)) :
    Ensures context (fun name _ ↦ name = spadeOverHeart → opening = ⟨1, .hearts⟩)
      respondingTurn := by
  refine .ask (fun _ ↦ ?answered) fun _ ↦ .ask (fun _ ↦ ?notrumpOpened) fun _ ↦
    .ask (fun hmajor ↦ ?majorOpened) fun _ ↦ ?others
  case answered => exact .of_names (by decide)
  case notrumpOpened => exact .of_names (by decide)
  case others => exact .of_names (by decide)
  case majorOpened =>
    intro name made houtcome hname
    obtain ⟨hvalues, hspades⟩ := ensures_afterMajor name made houtcome hname
    refine ((passed_either_partnerOpenedOne h .hearts .spades).mp hmajor).resolve_right ?_
    rintro rfl
    obtain ⟨raise, hraise, hraised⟩ :=
      exists_raise (partnerFirstStrain?_of_responding h) rfl hvalues hspades
    have hsame : raise.1 = spadeOverHeart := by
      rw [← hname]
      exact congrArg Prod.fst (Option.some.inj (hraised.symm.trans houtcome))
    exact raise_ne_spadeOverHeart raise hraise hsame

/-- A major is answered as one, unless the responder has bid before. -/
theorem outcome?_respondingTurn_of_spades
    (h : context.openingBid? = some (context.seat.partner, ⟨1, .spades⟩))
    (hfirst : context.ownBidCount = 0) :
    respondingTurn.outcome? context = afterMajor.outcome? context := by
  have hnew : ¬ ((Condition.position .seatHasBid).verdict context).passed = true := by
    simp [PositionTest.holds, hfirst]
  have hnotrump : ¬ ((partnerOpenedOne .notrump).verdict context).passed = true := by
    rw [passed_partnerOpenedOne h]
    decide
  have hmajor := (passed_either_partnerOpenedOne h .hearts .spades).mpr (.inr rfl)
  rw [respondingTurn, outcome?_ask, if_neg hnew, outcome?_ask, if_neg hnotrump, outcome?_ask,
    if_pos hmajor]

/-- The first response to an opening is legal whatever the opponents have done, short of bidding.
One spade over a major is reached only over one heart: opposite one spade a hand with four spades
and six points makes one of the raises. -/
theorem first_response_legal {opening : Bid} (hopen : context.auction.isOver = false)
    (hbids : context.auction.seatBids = [(context.seat.partner, opening)]) :
    (∀ call, (tree.descend context).ending.call? = some call →
      context.auction.permits call context.seat = true) ∧
    (∀ node, (tree.descend context).ending.reached? = some node → node.name = spadeOverHeart →
      opening = ⟨1, .hearts⟩) ∧
    (opening = ⟨1, .spades⟩ → 4 ≤ context.evaluation.length .spades →
      6 ≤ context.evaluation.points → ∃ node, ∃ raise ∈ raises, node.name = raise.1 ∧
        (tree.descend context).ending = .bid node (.of raise.2 .spades)) := by
  have hopening : context.openingBid? = some (context.seat.partner, opening) :=
    Position.openingBid?_of_bids hbids
  refine ⟨fun call hcall ↦ ?legal, fun node hnode hname ↦ ?heart, ?raised⟩
  case legal =>
    have hresponse := isResponse_of_call? hopening hcall
    refine (Auction.permits_iff_outranks hopen (congrArg List.getLast? hbids)
      hresponse.pass_or_bid _).mpr ?_
    rintro bid rfl
    exact outranks_of_mem_responses hresponse.mem
  case heart =>
    obtain ⟨made, houtcome⟩ := exists_outcome?_of_reached? hnode
    rw [outcome?_tree_of_responding hopening] at houtcome
    exact ensures_respondingTurn hopening node.name made houtcome hname
  case raised =>
    rintro rfl hspades hvalues
    have hfirst : context.ownBidCount = 0 := by
      have hne : context.seat.partner ≠ context.seat := Seat.partner_ne_self _
      simp [Position.ownBidCount, Position.ownBids, Position.bidsBy_eq, hbids, hne]
    obtain ⟨raise, hraise, hraised⟩ :=
      exists_raise (partnerFirstStrain?_of_responding hopening) rfl hvalues hspades
    rw [← outcome?_respondingTurn_of_spades hopening hfirst,
      ← outcome?_tree_of_responding hopening] at hraised
    obtain ⟨node, hending, hname⟩ := exists_ending_of_outcome? hraised
    exact ⟨node, raise, hraise, hname, hending⟩

/-- South has two points too many for a simple raise of north's spade that east has doubled, and
raises to three. -/
theorem first_response_legal_limitRaise :
    let auction := Auction.ofCalls .north [.of 1 .spades, .double]
    let hand := Hand.ofSuits [.ten, .nine, .eight, .seven] [.ace, .three, .two]
      [.king, .queen, .four] [.king, .five, .four]
    let context := Context.ofHand hand auction .south
    Auction.Reachable (some .north) auction ∧ auction.isOver = false ∧
      auction.seatBids = [(Seat.south.partner, ⟨1, .spades⟩)] ∧ 4 ≤ hand.length .spades ∧
      hand.points = 12 ∧ ∃ node, node.name = "sayc-respond-limit-raise" ∧
        (tree.descend context).ending = .bid node (.of 3 .spades) ∧
        auction.permits (.of 3 .spades) .south = true := by
  intro auction hand context
  obtain ⟨hlegal, -, hraised⟩ := @first_response_legal context ⟨1, .spades⟩ rfl rfl
  have hcall : (tree.descend context).ending.call? = some (.of 3 .spades) := rfl
  obtain ⟨node, raise, hraise, hname, hending⟩ := hraised rfl (by decide) (by decide)
  have hpermits := hlegal _ hcall
  rw [hending] at hcall
  have hthree : raise.2 = .three := (Bid.mk.inj (Call.bid.inj (Option.some.inj hcall))).1
  have hlimit : ∀ raise ∈ raises, raise.2 = .three → raise.1 = "sayc-respond-limit-raise" := by
    decide
  exact ⟨Auction.reachable_ofCalls (by decide), rfl, rfl, by decide, by decide, node,
    hname.trans (hlimit raise hraise hthree), by rw [hending, hthree]; rfl, hpermits⟩

end BridgeBidding.Sayc
