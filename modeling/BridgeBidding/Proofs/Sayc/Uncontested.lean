import BridgeBidding.Convention.Sayc
import BridgeBidding.Proofs.Convention.Suggestion
import BridgeBidding.Proofs.Hand.Counting
import BridgeBidding.Proofs.Sayc.Calls

/-!
# The natural system in uncontested auctions

Both members of a side call by the natural system and the other side passes.  Every call that the
system makes is legal but for one turn, the opener's rebid: there the system does not ask how high
partner has bid, and for some hands it names a bid that partner's response has passed
(`Sayc.TooLow`).  `Sayc.permits_iff_not_tooLow` says for which.
-/

set_option autoImplicit false
set_option relaxedAutoImplicit false

namespace BridgeBidding

namespace Sayc

open RuleTree

/-! ### Rebids that are too low -/

/-- The responses of two notrump and above that are no raise. -/
def highNotrumps : List Bid := [⟨2, .notrump⟩, ⟨3, .notrump⟩]

/-- The responses of one notrump and above that are no raise. -/
def notrumpsAndMinors : List Bid :=
  [⟨1, .notrump⟩, ⟨2, .clubs⟩, ⟨2, .diamonds⟩, ⟨2, .notrump⟩, ⟨3, .notrump⟩]

/-- The opener's hand makes the system rebid no higher than partner's response. -/
inductive TooLow (evaluation : Evaluation) (opening : Bid) : Bid → Prop
  /-- Three of the major again, after a raise to three. -/
  | invite (hmajor : opening.strain.isMajor = true) (hminimum : 17 ≤ evaluation.points)
    (hmaximum : evaluation.points ≤ 18) : TooLow evaluation opening ⟨3, opening.strain⟩
  /-- Three or four of the major, after a raise to four. -/
  | game (hmajor : opening.strain.isMajor = true) (hminimum : 17 ≤ evaluation.points) :
    TooLow evaluation opening ⟨4, opening.strain⟩
  /-- One notrump, after a response of one notrump or above. -/
  | oneNotrump {response : Bid} (hresponse : response ∈ notrumpsAndMinors)
    (hminimum : 12 ≤ evaluation.points) (hmaximum : evaluation.points ≤ 14)
    (hbalanced : evaluation.isBalanced = true) : TooLow evaluation opening response
  /-- Two of the suit opened, after a response of two notrump or above. -/
  | ownSuit {response : Bid} (suit : Suit) (hresponse : response ∈ highNotrumps)
    (hsuit : opening.strain.suit? = some suit) (hminimum : 12 ≤ evaluation.points)
    (hmaximum : evaluation.points ≤ 17) (hlength : 6 ≤ evaluation.length suit) :
    TooLow evaluation opening response
  /-- Two notrump, after a response of two notrump or above. -/
  | twoNotrump {response : Bid} (hresponse : response ∈ highNotrumps)
    (hminimum : 18 ≤ evaluation.points) (hmaximum : evaluation.points ≤ 19)
    (hbalanced : evaluation.isBalanced = true) : TooLow evaluation opening response

/-- How the rebids lie to a response that raises the major opened. -/
theorem raised_outranked {opening response : Bid} (hresponse : response ∈ responses opening)
    (hmajor : opening.strain.isMajor = true) (hraised : response.strain = opening.strain) :
    ((⟨4, opening.strain⟩ : Bid).outranks response = true ∨ response = ⟨4, opening.strain⟩) ∧
      ((⟨3, opening.strain⟩ : Bid).outranks response = true ∨ response = ⟨3, opening.strain⟩ ∨
        response = ⟨4, opening.strain⟩) := by
  obtain ⟨level, strain⟩ := opening
  revert response
  cases level <;> cases strain <;> revert hmajor <;> decide

/-- How the other rebids lie to any other response. -/
theorem unraised_outranked {opening response : Bid} (hresponse : response ∈ responses opening)
    (hunraised : ¬ (opening.strain.isMajor = true ∧ response.strain = opening.strain)) :
    (response.strain.isMajor = true →
      (⟨2, response.strain⟩ : Bid).outranks response = true) ∧
    (opening.strain.suit?.isSome = true →
      (⟨2, opening.strain⟩ : Bid).outranks response = true ∨ response ∈ highNotrumps) ∧
    ((⟨1, .notrump⟩ : Bid).outranks response = true ∨ response ∈ notrumpsAndMinors) ∧
    ((⟨2, .notrump⟩ : Bid).outranks response = true ∨ response ∈ highNotrumps) := by
  obtain ⟨level, strain⟩ := opening
  revert response
  cases level <;> cases strain <;> decide

/-- A rebid lies above the response unless the hand makes it too low. -/
theorem outranks_of_not_tooLow {evaluation : Evaluation} {opening response rebid : Bid}
    (hresponse : response ∈ responses opening)
    (hrebid : Rebid evaluation opening.strain response.strain (.bid rebid))
    (h : ¬ TooLow evaluation opening response) : rebid.outranks response = true := by
  cases hrebid with
  | game hmajor hraised hminimum =>
    rcases (raised_outranked hresponse hmajor hraised).1 with hhigh | heq
    · exact hhigh
    · exact absurd (heq ▸ .game hmajor (by omega)) h
  | invite hmajor hraised hminimum hmaximum =>
    rcases (raised_outranked hresponse hmajor hraised).2 with hhigh | heq | heq
    · exact hhigh
    · exact absurd (heq ▸ .invite hmajor hminimum hmaximum) h
    · exact absurd (heq ▸ .game hmajor hminimum) h
  | raise suit hunraised hmajor => exact (unraised_outranked hresponse hunraised).1 hmajor
  | ownSuit suit hunraised hsuit hminimum hmaximum hlength =>
    have hsome : opening.strain.suit?.isSome = true := by rw [hsuit, Option.isSome_some]
    rcases (unraised_outranked hresponse hunraised).2.1 hsome with hhigh | hmem
    · exact hhigh
    · exact absurd (.ownSuit suit hmem hsuit hminimum hmaximum hlength) h
  | oneNotrump hunraised hminimum hmaximum hbalanced =>
    rcases (unraised_outranked hresponse hunraised).2.2.1 with hhigh | hmem
    · exact hhigh
    · exact absurd (.oneNotrump hmem hminimum hmaximum hbalanced) h
  | twoNotrump hunraised hminimum hmaximum hbalanced =>
    rcases (unraised_outranked hresponse hunraised).2.2.2 with hhigh | hmem
    · exact hhigh
    · exact absurd (.twoNotrump hmem hminimum hmaximum hbalanced) h

theorem mem_notrumpsAndMinors {response : Bid} (h : response ∈ highNotrumps) :
    response ∈ notrumpsAndMinors := by
  revert response
  decide

theorem not_isMajor_of_mem {response : Bid} (h : response ∈ notrumpsAndMinors) :
    ¬ response.strain.isMajor = true := by
  revert response
  decide

theorem not_outranks_of_mem {response : Bid} (h : response ∈ notrumpsAndMinors) :
    ¬ (⟨1, .notrump⟩ : Bid).outranks response = true := by
  revert response
  decide

theorem not_outranks_of_mem_highNotrumps {response : Bid} (h : response ∈ highNotrumps)
    (strain : Strain) : ¬ (⟨2, strain⟩ : Bid).outranks response = true := by
  revert response
  cases strain <;> decide

/-- No rebid lies above a response of two notrump or more. -/
theorem Rebid.not_outranks_highNotrump {evaluation : Evaluation} {own : Strain}
    {response rebid : Bid} (hrebid : Rebid evaluation own response.strain (.bid rebid))
    (h : response ∈ highNotrumps) : ¬ rebid.outranks response = true := by
  have hminor := not_isMajor_of_mem (mem_notrumpsAndMinors h)
  cases hrebid with
  | game hmajor hraised => exact absurd (hraised ▸ hmajor) hminor
  | invite hmajor hraised => exact absurd (hraised ▸ hmajor) hminor
  | raise => exact not_outranks_of_mem_highNotrumps h _
  | ownSuit => exact not_outranks_of_mem_highNotrumps h _
  | oneNotrump => exact not_outranks_of_mem (mem_notrumpsAndMinors h)
  | twoNotrump => exact not_outranks_of_mem_highNotrumps h _

/-- After a raise the opener's rebid is three or four of the major. -/
theorem Rebid.of_raised {evaluation : Evaluation} {own : Strain} {rebid : Bid}
    (hrebid : Rebid evaluation own own (.bid rebid)) (hmajor : own.isMajor = true) :
    (rebid = ⟨4, own⟩ ∧ 19 ≤ evaluation.points) ∨ rebid = ⟨3, own⟩ := by
  cases hrebid with
  | game _ _ hminimum => exact Or.inl ⟨rfl, hminimum⟩
  | invite => exact Or.inr rfl
  | raise _ hunraised => exact absurd ⟨hmajor, rfl⟩ hunraised
  | ownSuit _ hunraised => exact absurd ⟨hmajor, rfl⟩ hunraised
  | oneNotrump hunraised => exact absurd ⟨hmajor, rfl⟩ hunraised
  | twoNotrump hunraised => exact absurd ⟨hmajor, rfl⟩ hunraised

/-- A rebid of a hand that makes it too low does not lie above the response. -/
theorem not_outranks_of_tooLow {evaluation : Evaluation} {opening response rebid : Bid}
    (hshape : evaluation.isBalanced = true → ∀ suit, evaluation.length suit ≤ 5)
    (hrebid : Rebid evaluation opening.strain response.strain (.bid rebid))
    (h : TooLow evaluation opening response) : ¬ rebid.outranks response = true := by
  cases h with
  | invite hmajor hminimum hmaximum =>
    rcases hrebid.of_raised hmajor with ⟨rfl, hgame⟩ | rfl
    · omega
    · exact Bool.eq_false_iff.mp (Bid.outranks_irrefl _)
  | game hmajor hminimum =>
    rcases hrebid.of_raised hmajor with ⟨rfl, -⟩ | rfl
    · exact Bool.eq_false_iff.mp (Bid.outranks_irrefl _)
    · cases opening.strain <;> decide
  | oneNotrump hresponse hminimum hmaximum hbalanced =>
    have hminor := not_isMajor_of_mem hresponse
    cases hrebid with
    | game hmajor hraised => exact absurd (hraised ▸ hmajor) hminor
    | invite hmajor hraised => exact absurd (hraised ▸ hmajor) hminor
    | raise _ _ hmajor => exact absurd hmajor hminor
    | ownSuit suit _ _ _ _ hlength =>
      have hshort := hshape hbalanced suit
      omega
    | oneNotrump => exact not_outranks_of_mem hresponse
    | twoNotrump _ htwoMinimum => omega
  | ownSuit suit hresponse => exact hrebid.not_outranks_highNotrump hresponse
  | twoNotrump hresponse => exact hrebid.not_outranks_highNotrump hresponse

/-- Passing after a raise is no rebid that is too low. -/
theorem not_tooLow_of_pass {evaluation : Evaluation} {opening response : Bid}
    (hrebid : Rebid evaluation opening.strain response.strain .pass) :
    ¬ TooLow evaluation opening response := by
  intro h
  cases hrebid with
  | pass hmajor hraised hmaximum =>
    have hresponseMajor : response.strain.isMajor = true := hraised ▸ hmajor
    cases h with
    | invite _ hminimum => omega
    | game _ hminimum => omega
    | oneNotrump hresponse => exact not_isMajor_of_mem hresponse hresponseMajor
    | ownSuit _ hresponse =>
      exact not_isMajor_of_mem (mem_notrumpsAndMinors hresponse) hresponseMajor
    | twoNotrump hresponse =>
      exact not_isMajor_of_mem (mem_notrumpsAndMinors hresponse) hresponseMajor

/-- The opener's rebid, if it is a bid, lies above the response exactly if the hand does not make it
too low. -/
theorem Rebid.outranks_iff {evaluation : Evaluation} {opening response : Bid} {call : Call}
    (hshape : evaluation.isBalanced = true → ∀ suit, evaluation.length suit ≤ 5)
    (hresponse : response ∈ responses opening)
    (hrebid : Rebid evaluation opening.strain response.strain call) :
    (∀ rebid, call = .bid rebid → rebid.outranks response = true) ↔
      ¬ TooLow evaluation opening response := by
  constructor
  · intro houtranks hlow
    rcases hrebid.pass_or_bid with rfl | ⟨rebid, rfl⟩
    · exact not_tooLow_of_pass hrebid hlow
    · exact not_outranks_of_tooLow hshape hrebid hlow (houtranks rebid rfl)
  · rintro hlow rebid rfl
    exact outranks_of_not_tooLow hresponse hrebid hlow

/-! ### Turn by turn -/

section Turns

variable {context : Context} {call : Call}

theorem opening_of_call? (h : context.auction.seatBids = [])
    (hcall : (tree.descend context).ending.call? = some call) :
    Opening context.evaluation call := by
  have hopening : context.openingBid? = none := Position.openingBid?_of_no_bid h
  obtain ⟨name, houtcome⟩ := call?_descend_eq_some_iff.mp hcall
  rw [outcome?_tree_of_opening hopening] at houtcome
  obtain ⟨otherName, made, hmade, htells⟩ := opens_openingTurn context
  rw [houtcome, Option.some.injEq, Prod.mk.injEq, Except.ok.injEq] at hmade
  exact hmade.2 ▸ htells

theorem isResponse_of_call? {opening : Bid}
    (h : context.openingBid? = some (context.seat.partner, opening))
    (hcall : (tree.descend context).ending.call? = some call) : IsResponse opening call := by
  obtain ⟨name, houtcome⟩ := call?_descend_eq_some_iff.mp hcall
  rw [outcome?_tree_of_responding h] at houtcome
  exact promises_respondingTurn h name call houtcome

theorem rebid_of_call? {opening response : Bid}
    (h : context.auction.seatBids = [(context.seat, opening), (context.seat.partner, response)])
    (hcall : (tree.descend context).ending.call? = some call) :
    Rebid context.evaluation opening.strain response.strain call := by
  have hopening : context.openingBid? = some (context.seat, opening) :=
    Position.openingBid?_of_bids h
  have hown : context.ownFirstStrain? = some opening.strain := by
    rw [Position.ownFirstStrain?, Position.ownBids,
      Position.head?_bidsBy_of_openingBid? hopening]
    rfl
  have hpartner : context.partnerLastStrain? = some response.strain := by
    have hne : context.seat ≠ context.seat.partner := (Seat.partner_ne_self _).symm
    simp [Position.partnerLastStrain?, Position.partnerBids, Position.bidsBy_eq, h, hne]
  obtain ⟨name, houtcome⟩ := call?_descend_eq_some_iff.mp hcall
  rw [outcome?_tree_of_rebidding hopening] at houtcome
  exact promises_rebiddingTurn hown hpartner name call houtcome

/-- A responder who has bid makes no other call. -/
theorem call?_eq_none_of_answered {opening response rebid : Bid}
    (h : context.auction.seatBids = [(context.seat.partner, opening), (context.seat, response),
      (context.seat.partner, rebid)]) : (tree.descend context).ending.call? = none := by
  have hopening : context.openingBid? = some (context.seat.partner, opening) :=
    Position.openingBid?_of_bids h
  have hbid : 0 < context.ownBidCount := by
    have hne : context.seat.partner ≠ context.seat := Seat.partner_ne_self _
    simp [Position.ownBidCount, Position.ownBids, Position.bidsBy_eq, h, hne]
  have houtcome : tree.outcome? context = none := by
    rw [outcome?_tree_of_responding hopening]
    simp [respondingTurn, PositionTest.holds, hbid]
  rw [Ending.call?_eq, outcome?_descend, houtcome]
  rfl

end Turns

/-! ### Runs -/

/-- What the seat knows when it calls. -/
def contextOf (hands : Seat → Hand) (vulnerability : Vulnerability) (auction : Auction)
    (seat : Seat) : Context :=
  Context.ofHand (hands seat) auction seat none vulnerability

/-- What the seat calls by the system: a pass if the tree gives no call. -/
def callOf (hands : Seat → Hand) (vulnerability : Vulnerability) (auction : Auction)
    (seat : Seat) : Call :=
  ((tree.descend (contextOf hands vulnerability auction seat)).ending.call?).getD .pass

/-- The seat opened, partner answered, and the hand makes the rebid too low. -/
def RebidsTooLow (auction : Auction) (seat : Seat) (evaluation : Evaluation) : Prop :=
  ∃ opening response, auction.seatBids = [(seat, opening), (seat.partner, response)] ∧
    TooLow evaluation opening response

section Runs

variable {side dealer : Seat} {hands : Seat → Hand} {vulnerability : Vulnerability}

theorem call?_of_callOf_eq_bid {auction : Auction} {seat : Seat} {bid : Bid}
    (h : callOf hands vulnerability auction seat = .bid bid) :
    (tree.descend (contextOf hands vulnerability auction seat)).ending.call? =
      some (.bid bid) := by
  rw [callOf] at h
  cases hcall : (tree.descend (contextOf hands vulnerability auction seat)).ending.call? with
  | none =>
    rw [hcall, Option.getD_none] at h
    cases h
  | some call =>
    rw [hcall, Option.getD_some] at h
    rw [h]

/-- After the first bid it is partner's turn. -/
theorem openingBid?_contextOf_exchange (lead : Nat) (opening : Bid) :
    (contextOf hands vulnerability (.ofCalls dealer (Auction.exchange lead [opening]))
        (dealer.advance (lead + 2))).openingBid? =
      some ((dealer.advance (lead + 2)).partner, opening) := by
  have hpartner : (dealer.advance (lead + 2)).partner = dealer.advance lead := by
    rw [Seat.advance_add]
    exact Seat.partner_partner _
  rw [Position.openingBid?_eq_head?, hpartner]
  change (Auction.ofCalls dealer (Auction.exchange lead [opening])).seatBids.head? = _
  rw [Auction.seatBids_exchange]
  rfl

/-- After the opener's rebid the responder makes no further call. -/
theorem call?_contextOf_exchange (lead : Nat) (opening response rebid : Bid) :
    (tree.descend (contextOf hands vulnerability
        (.ofCalls dealer (Auction.exchange lead [opening, response, rebid]))
        (dealer.advance (lead + 6)))).ending.call? = none := by
  have hseat : dealer.advance (lead + 6) = (dealer.advance lead).partner := by
    rw [Seat.advance_add]
    exact congrArg Seat.partner (Seat.next_next_next_next _)
  have hpartner : (dealer.advance (lead + 6)).partner = dealer.advance lead := by
    rw [hseat, Seat.partner_partner]
  have hbids :
      (Auction.ofCalls dealer (Auction.exchange lead [opening, response, rebid])).seatBids =
        [((dealer.advance (lead + 6)).partner, opening), (dealer.advance (lead + 6), response),
          ((dealer.advance (lead + 6)).partner, rebid)] := by
    rw [Auction.seatBids_exchange, hpartner, hseat]
    simp [Auction.answering]
  exact call?_eq_none_of_answered hbids

/-- In an uncontested auction between members who call by the system, a call that the system makes
is permitted exactly if the hand does not make the rebid too low. -/
theorem permits_iff_not_rebidsTooLow {auction : Auction} {seat : Seat} {call : Call}
    (hrun : auction.Uncontested side (callOf hands vulnerability) dealer)
    (hopen : auction.isOver = false) (hturn : auction.toAct? = some seat)
    (hside : seat.sameSide side = true)
    (hcall : (tree.descend (contextOf hands vulnerability auction seat)).ending.call? =
      some call) :
    auction.permits call seat = true ↔
      ¬ RebidsTooLow auction seat (hands seat).evaluation := by
  obtain ⟨lead, bids, rfl, rfl, hspoken⟩ := hrun.exists_exchange hopen hturn hside
  have hbids := Auction.seatBids_exchange dealer lead bids
  rcases bids with _ | ⟨opening, _ | ⟨response, _ | ⟨rebid, later⟩⟩⟩
  · -- nobody has bid
    have hopening := opening_of_call? hbids hcall
    refine iff_of_true (Auction.permits_of_no_bid hopen hbids hopening.pass_or_bid _) ?_
    rintro ⟨opening, response, hpair, -⟩
    cases hbids.symm.trans hpair
  · -- partner has opened
    have hresponse : IsResponse opening call :=
      isResponse_of_call? (openingBid?_contextOf_exchange lead opening) hcall
    have hlast := congrArg List.getLast? hbids
    refine iff_of_true ?_ ?_
    · refine (Auction.permits_iff_outranks hopen hlast hresponse.pass_or_bid _).mpr ?_
      rintro bid rfl
      exact outranks_of_mem_responses hresponse.mem
    · rintro ⟨first, second, hpair, -⟩
      cases congrArg List.length (hbids.symm.trans hpair)
  · -- partner has answered the opening
    have hseat : dealer.advance (lead + 2 * [opening, response].length) = dealer.advance lead := by
      rw [Seat.advance_add]
      exact Seat.next_next_next_next _
    rw [hseat] at hcall ⊢
    have hrebid := rebid_of_call? hbids hcall
    have hresponse : response ∈ responses opening :=
      (isResponse_of_call? (openingBid?_contextOf_exchange lead opening)
        (call?_of_callOf_eq_bid (hspoken.2 [opening] response [] rfl))).mem
    have hlast := congrArg List.getLast? hbids
    have hshape := @Hand.length_le_five_of_isBalanced (hands (dealer.advance lead))
    rw [Auction.permits_iff_outranks hopen hlast hrebid.pass_or_bid,
      Rebid.outranks_iff hshape hresponse hrebid, not_iff_not]
    constructor
    · intro hlow
      exact ⟨opening, response, hbids, hlow⟩
    · rintro ⟨first, second, hpair, hlow⟩
      obtain ⟨rfl, rfl⟩ : opening = first ∧ response = second := by
        simpa [Auction.answering] using hbids.symm.trans hpair
      exact hlow
  · -- the responder has bid and makes no further call
    have hnone := @call?_contextOf_exchange dealer hands vulnerability lead opening response rebid
    cases later with
    | nil => cases hcall.symm.trans hnone
    | cons further later =>
      have hfurther := hspoken.2 [opening, response, rebid] further later rfl
      cases (call?_of_callOf_eq_bid hfurther).symm.trans hnone

end Runs

/-- In an uncontested auction between members who call by the system, a call that the system makes
is legal, and so it is not left out, exactly if it is no rebid that the hand makes too low. -/
theorem uncontested_call_legal_iff {side dealer seat : Seat} {hands : Seat → Hand}
    {vulnerability : Vulnerability} {auction : Auction} {call : Call}
    (hrun : auction.Uncontested side (callOf hands vulnerability) dealer)
    (hopen : auction.isOver = false) (hturn : auction.toAct? = some seat)
    (hside : seat.sameSide side = true)
    (hcall : (tree.descend (contextOf hands vulnerability auction seat)).ending.call? =
      some call) :
    (auction.permits call seat = true ↔
      ¬ RebidsTooLow auction seat (hands seat).evaluation) ∧
    (convention.suggest? (contextOf hands vulnerability auction seat) true = .ok none ↔
      RebidsTooLow auction seat (hands seat).evaluation) := by
  have hpermits := permits_iff_not_rebidsTooLow hrun hopen hturn hside hcall
  refine ⟨hpermits, ?_⟩
  rw [Convention.suggest?_eq_none_iff hcall, not_iff_comm]
  exact hpermits.symm

/-! ### A limit raise -/

/-- A deal in which south raises north's spades to three, and north has seventeen points. -/
def limitRaiseHands : Seat → Hand
  | .north => .ofSuits [.ace, .king, .queen, .jack, .five] [.king, .queen, .four]
    [.queen, .three, .two] [.three, .two]
  | .east => .ofSuits [.six, .four] [.jack, .ten, .nine] [.ace, .jack, .ten, .nine]
    [.king, .queen, .jack, .ten]
  | .south => .ofSuits [.ten, .nine, .eight, .seven] [.ace, .three, .two] [.king, .five, .four]
    [.ace, .five, .four]
  | .west => .ofSuits [.three, .two] [.eight, .seven, .six, .five] [.eight, .seven, .six]
    [.nine, .eight, .seven, .six]

theorem uncontested_opening :
    (Auction.ofCalls .north [.of 1 .spades, .pass]).Uncontested .north
      (callOf limitRaiseHands .neither) .north := by
  have hnorth : (Auction.ofCalls .north [.of 1 .spades]).Uncontested .north
      (callOf limitRaiseHands .neither) .north := .call .start rfl rfl
  exact .call hnorth rfl rfl

theorem uncontested_limitRaise :
    (Auction.ofCalls .north [.of 1 .spades, .pass, .of 3 .spades, .pass]).Uncontested .north
      (callOf limitRaiseHands .neither) .north := by
  have hsouth : (Auction.ofCalls .north [.of 1 .spades, .pass, .of 3 .spades]).Uncontested .north
      (callOf limitRaiseHands .neither) .north := .call uncontested_opening rfl rfl
  exact .call hsouth rfl rfl

/-- South's raise is legal, since it is no rebid. -/
theorem uncontested_call_legal_iff_limitRaise :
    let auction := Auction.ofCalls .north [.of 1 .spades, .pass]
    auction.Uncontested .north (callOf limitRaiseHands .neither) .north ∧
      auction.isOver = false ∧ auction.toAct? = some .south ∧
      Seat.south.sameSide .north = true ∧
      (tree.descend (contextOf limitRaiseHands .neither auction .south)).ending.call? =
        some (.of 3 .spades) ∧
      auction.permits (.of 3 .spades) .south = true := by
  have hcall : (tree.descend (contextOf limitRaiseHands .neither
      (.ofCalls .north [.of 1 .spades, .pass]) .south)).ending.call? = some (.of 3 .spades) := rfl
  refine ⟨uncontested_opening, rfl, rfl, rfl, hcall, ?_⟩
  refine (uncontested_call_legal_iff uncontested_opening rfl rfl rfl hcall).1.mpr ?_
  rintro ⟨opening, response, hbids, -⟩
  cases congrArg List.length hbids

/-- North's rebid after it, three spades again, is not. -/
theorem limitRaise_rebid_illegal :
    (Seat.all.flatMap fun seat ↦ (limitRaiseHands seat).cards).Nodup ∧
      ∃ auction : Auction, auction.Uncontested .north (callOf limitRaiseHands .neither) .north ∧
        auction.isOver = false ∧ auction.toAct? = some .north ∧
        Seat.north.sameSide .north = true ∧
        (tree.descend (contextOf limitRaiseHands .neither auction .north)).ending.call? =
          some (.of 3 .spades) ∧
        auction.permits (.of 3 .spades) .north = false := by
  exact ⟨by decide +kernel, _, uncontested_limitRaise, rfl, rfl, rfl, rfl, rfl⟩

end Sayc

end BridgeBidding
