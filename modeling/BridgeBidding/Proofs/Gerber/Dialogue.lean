import BridgeBidding.Proofs.Auction.Dialogue
import BridgeBidding.Proofs.Deal.Constraints
import BridgeBidding.Proofs.Gerber.Calls
import BridgeBidding.Proofs.Hand.Counting

/-!
# The dialogue about aces and kings

Over one notrump by north and with silent opponents, the two hands that the convention is meant for
lead to one dialogue (`Gerber.script`): south asks for aces and north answers, and south asks for
kings exactly if the partnership has three aces, and then places the contract by what both hands
really have (`Gerber.placement`).  The answers are understood because the two hands have too many
points to be without aces or without kings.
-/

set_option autoImplicit false
set_option relaxedAutoImplicit false

namespace BridgeBidding.Gerber

open RuleTree AceAsking Auction

/-- The opening that is asked. -/
def openingBid : Bid := ⟨1, .notrump⟩

/-- The contract for the aces and kings of both hands: grand slam with all aces and three kings,
small slam with three aces, and else the lowest notrump bid that the answer leaves. -/
def placement (north south : Hand) : Bid where
  level :=
    if north.aces + south.aces = 4 ∧ 3 ≤ north.kings + south.kings then 7
    else if 3 ≤ north.aces + south.aces then 6
    else if north.aces = 2 then 5
    else 4
  strain := .notrump

theorem placement_of_slam {north south : Hand} (h : 3 ≤ north.aces + south.aces) :
    placement north south =
      ⟨if north.aces + south.aces = 4 ∧ 3 ≤ north.kings + south.kings then 7 else 6,
        .notrump⟩ := by
  rw [placement, if_pos h]

theorem placement_of_not_slam {north south : Hand} (h : ¬ 3 ≤ north.aces + south.aces) :
    placement north south = ⟨if north.aces = 2 then 5 else 4, .notrump⟩ := by
  have hfour : ¬ (north.aces + south.aces = 4 ∧ 3 ≤ north.kings + south.kings) := by omega
  rw [placement, if_neg hfour, if_neg h]

/-- The bids of the dialogue after the opening. -/
def script (north south : Hand) : List Bid :=
  if 3 ≤ north.aces + south.aces then
    [⟨4, .clubs⟩, ⟨4, answerStrain north.aces⟩, ⟨5, .clubs⟩, ⟨5, answerStrain north.kings⟩,
      placement north south]
  else
    [⟨4, .clubs⟩, ⟨4, answerStrain north.aces⟩, placement north south]

/-! ### What is heard -/

section Hearing

variable (context : Context) {strain other : Strain} {later : List Bid}

/-- The auction begins with the opening, the ask for aces and an answer in the strain. -/
theorem openerAces_eq
    (h : context.auction =
      ofCalls .north (exchange 0 (openingBid :: ⟨4, .clubs⟩ :: ⟨4, strain⟩ :: later))) :
    openerAces context = shown ⟨4, strain⟩ context.hand.aces := by
  have hanswer : answerAt? context.auction 4 4 = some ⟨4, strain⟩ := by
    rw [h]
    rfl
  rw [openerAces, hanswer]

theorem openerKings_eq
    (h : context.auction =
      ofCalls .north (exchange 0 (openingBid :: ⟨4, .clubs⟩ :: ⟨4, strain⟩ :: ⟨5, .clubs⟩ ::
        ⟨5, other⟩ :: later))) :
    openerKings context = shown ⟨5, other⟩ context.hand.kings := by
  have hanswer : answerAt? context.auction 8 5 = some ⟨5, other⟩ := by
    rw [h]
    rfl
  rw [openerKings, hanswer]

end Hearing

/-! ### The auctions of the dialogue -/

theorem mem_afterAceAnswer (held : Nat) :
    exchange 0 [openingBid, ⟨4, .clubs⟩, ⟨4, answerStrain held⟩] ∈ afterAceAnswer := by
  have hall : ∀ strain ∈ answerStrains,
      exchange 0 [openingBid, ⟨4, .clubs⟩, ⟨4, strain⟩] ∈ afterAceAnswer := by decide
  exact hall _ (answerStrain_mem held)

theorem mem_afterKingAsk (held : Nat) :
    exchange 0 [openingBid, ⟨4, .clubs⟩, ⟨4, answerStrain held⟩, ⟨5, .clubs⟩] ∈ afterKingAsk := by
  have hall : ∀ strain ∈ answerStrains,
      exchange 0 [openingBid, ⟨4, .clubs⟩, ⟨4, strain⟩, ⟨5, .clubs⟩] ∈ afterKingAsk := by decide
  exact hall _ (answerStrain_mem held)

theorem mem_afterKingAnswer (aces kings : Nat) :
    exchange 0 [openingBid, ⟨4, .clubs⟩, ⟨4, answerStrain aces⟩, ⟨5, .clubs⟩,
      ⟨5, answerStrain kings⟩] ∈ afterKingAnswer := by
  have hall : ∀ strain ∈ answerStrains, ∀ other ∈ answerStrains,
      exchange 0 [openingBid, ⟨4, .clubs⟩, ⟨4, strain⟩, ⟨5, .clubs⟩, ⟨5, other⟩] ∈
        afterKingAnswer := by decide
  exact hall _ (answerStrain_mem aces) _ (answerStrain_mem kings)

/-- Once the contract is placed the convention has no turn any more. -/
theorem not_mem_turns (north south : Hand) :
    exchange 0 (openingBid :: script north south) ∉ turns := by
  by_cases haces : 3 ≤ north.aces + south.aces
  · have hlength : ∀ calls ∈ turns, calls.length < 12 := by decide
    intro hmem
    have hshort := hlength _ hmem
    rw [length_exchange, script, if_pos haces] at hshort
    simp at hshort
  · have hall : ∀ strain ∈ answerStrains, ∀ level ∈ Level.all,
        exchange 0 [openingBid, ⟨4, .clubs⟩, ⟨4, strain⟩, ⟨level, .notrump⟩] ∉ turns := by decide
    rw [script, if_neg haces]
    refine hall _ (answerStrain_mem _) (placement north south).level ?_
    cases (placement north south).level <;> decide

/-! ### What is said -/

section Saying

variable {deal : Deal} {north south : Hand}

/-- South asks for aces. -/
theorem says_aceAsk (hsouth : deal.hand? .south = some south) (hpoints : 16 ≤ south.points)
    (hlengths : ∀ suit, 0 < south.length suit) :
    saidAfter (tree.callOf deal) .north 0 [openingBid] = .of 4 .clubs := by
  have hat : (contextAfter deal .north 0 south [openingBid]).auction.calls ∈ afterOpening := by
    rw [calls_contextAfter]
    decide
  have hvoid : south.shape.lengths.contains 0 = false := by
    have hpositive (suit : Suit) : ¬ (0 : Int) = south.length suit := by
      have hlength := hlengths suit
      omega
    simp [Shape.lengths, Hand.shape, hpositive]
  have houtcome : askingTurn.outcome? (contextAfter deal .north 0 south [openingBid]) =
      some ("gerber-ask", .ok aceAsk) := outcome?_askingTurn (Int.ofNat_le.mpr hpoints) hvoid
  exact saidAfter_callOf hsouth ((outcome?_afterOpening hat).trans houtcome)

/-- North tells the aces. -/
theorem says_aces (hnorth : deal.hand? .north = some north) :
    saidAfter (tree.callOf deal) .north 0 [openingBid, ⟨4, .clubs⟩] =
      .of 4 (answerStrain north.aces) := by
  have hat : (contextAfter deal .north 0 north [openingBid, ⟨4, .clubs⟩]).auction.calls ∈
      afterAceAsk := by
    rw [calls_contextAfter]
    decide
  obtain ⟨name, houtcome⟩ :=
    exists_outcome?_acesTurn (contextAfter deal .north 0 north [openingBid, ⟨4, .clubs⟩])
  exact saidAfter_callOf hnorth ((outcome?_afterAceAsk hat).trans houtcome)

/-- North tells the kings. -/
theorem says_kings (hnorth : deal.hand? .north = some north) (held : Nat) :
    saidAfter (tree.callOf deal) .north 0
        [openingBid, ⟨4, .clubs⟩, ⟨4, answerStrain held⟩, ⟨5, .clubs⟩] =
      .of 5 (answerStrain north.kings) := by
  have hat : (contextAfter deal .north 0 north [openingBid, ⟨4, .clubs⟩, ⟨4, answerStrain held⟩,
      ⟨5, .clubs⟩]).auction.calls ∈ afterKingAsk := by
    rw [calls_contextAfter]
    exact mem_afterKingAsk held
  obtain ⟨name, houtcome⟩ := exists_outcome?_kingsTurn (contextAfter deal .north 0 north
    [openingBid, ⟨4, .clubs⟩, ⟨4, answerStrain held⟩, ⟨5, .clubs⟩])
  exact saidAfter_callOf hnorth ((outcome?_afterKingAsk hat).trans houtcome)

/-- North's aces are understood. -/
theorem openerAces_contextAfter (deal : Deal) (htotal : north.aces + south.aces ≤ 4)
    (hsome : 0 < north.aces + south.aces) (later : List Bid) :
    openerAces (contextAfter deal .north 0 south
      (openingBid :: ⟨4, .clubs⟩ :: ⟨4, answerStrain north.aces⟩ :: later)) = north.aces := by
  have hheard := openerAces_eq (contextAfter deal .north 0 south
    (openingBid :: ⟨4, .clubs⟩ :: ⟨4, answerStrain north.aces⟩ :: later)) rfl
  exact hheard.trans (shown_answerStrain htotal hsome)

/-- South knows the aces of the partnership. -/
theorem totalAces_contextAfter (deal : Deal) (htotal : north.aces + south.aces ≤ 4)
    (hsome : 0 < north.aces + south.aces) (later : List Bid) :
    totalAces (contextAfter deal .north 0 south
      (openingBid :: ⟨4, .clubs⟩ :: ⟨4, answerStrain north.aces⟩ :: later)) =
        north.aces + south.aces := by
  rw [totalAces, openerAces_contextAfter deal htotal hsome, Nat.add_comm]
  rfl

/-- North's kings are understood. -/
theorem openerKings_contextAfter (deal : Deal) (htotal : north.kings + south.kings ≤ 4)
    (hsome : 0 < north.kings + south.kings) (aces : Nat) :
    openerKings (contextAfter deal .north 0 south
      [openingBid, ⟨4, .clubs⟩, ⟨4, answerStrain aces⟩, ⟨5, .clubs⟩,
        ⟨5, answerStrain north.kings⟩]) = north.kings := by
  have hheard := openerKings_eq (contextAfter deal .north 0 south
    [openingBid, ⟨4, .clubs⟩, ⟨4, answerStrain aces⟩, ⟨5, .clubs⟩,
      ⟨5, answerStrain north.kings⟩]) rfl
  exact hheard.trans (shown_answerStrain htotal hsome)

/-- South knows the kings of the partnership. -/
theorem totalKings_contextAfter (deal : Deal) (htotal : north.kings + south.kings ≤ 4)
    (hsome : 0 < north.kings + south.kings) (aces : Nat) :
    totalKings (contextAfter deal .north 0 south
      [openingBid, ⟨4, .clubs⟩, ⟨4, answerStrain aces⟩, ⟨5, .clubs⟩,
        ⟨5, answerStrain north.kings⟩]) = north.kings + south.kings := by
  rw [totalKings, openerKings_contextAfter deal htotal hsome, Nat.add_comm]
  rfl

/-- South hears the answer about aces, and asks for kings or places the contract. -/
theorem says_afterAces (hsouth : deal.hand? .south = some south)
    (htotal : north.aces + south.aces ≤ 4) (hsome : 0 < north.aces + south.aces) :
    saidAfter (tree.callOf deal) .north 0
        [openingBid, ⟨4, .clubs⟩, ⟨4, answerStrain north.aces⟩] =
      if 3 ≤ north.aces + south.aces then .of 5 .clubs else .bid (placement north south) := by
  have hauction := calls_contextAfter deal .north 0 south
    [openingBid, ⟨4, .clubs⟩, ⟨4, answerStrain north.aces⟩]
  have haces := totalAces_contextAfter deal htotal hsome []
  generalize hcontext : contextAfter deal .north 0 south
    [openingBid, ⟨4, .clubs⟩, ⟨4, answerStrain north.aces⟩] = context at hauction haces
  have hat : context.auction.calls ∈ afterAceAnswer := hauction ▸ mem_afterAceAnswer _
  have houtcome := (outcome?_afterAceAnswer hat).trans (outcome?_afterAces hat)
  rw [haces] at houtcome
  by_cases hthree : 3 ≤ north.aces + south.aces
  · rw [if_pos hthree] at houtcome ⊢
    exact saidAfter_callOf hsouth (hcontext ▸ houtcome)
  · have hanswer : context.auction.calls[4]? = some (.of 4 (answerStrain north.aces)) := by
      rw [hauction]
      rfl
    have hplace := placeAfterAces_eq hanswer (by omega)
    rw [if_neg hthree] at houtcome ⊢
    rw [hplace] at houtcome
    refine (saidAfter_callOf hsouth (hcontext ▸ houtcome)).trans ?_
    rw [placement_of_not_slam hthree]
    by_cases htwo : north.aces = 2
    · rw [if_pos htwo, htwo]
      rfl
    · have hother : Call.of 4 (answerStrain north.aces) ≠ .of 4 .spades := by
        simpa [answerStrain_eq_spades_iff] using htwo
      rw [if_neg htwo, if_neg hother]

/-- South hears the answer about kings and places the contract. -/
theorem says_afterKings (hsouth : deal.hand? .south = some south)
    (htotal : north.aces + south.aces ≤ 4) (hthree : 3 ≤ north.aces + south.aces)
    (htotalKings : north.kings + south.kings ≤ 4) (hsomeKings : 0 < north.kings + south.kings) :
    saidAfter (tree.callOf deal) .north 0
        [openingBid, ⟨4, .clubs⟩, ⟨4, answerStrain north.aces⟩, ⟨5, .clubs⟩,
          ⟨5, answerStrain north.kings⟩] = .bid (placement north south) := by
  have hauction := calls_contextAfter deal .north 0 south
    [openingBid, ⟨4, .clubs⟩, ⟨4, answerStrain north.aces⟩, ⟨5, .clubs⟩,
      ⟨5, answerStrain north.kings⟩]
  have haces := totalAces_contextAfter deal htotal (by omega)
    [⟨5, .clubs⟩, ⟨5, answerStrain north.kings⟩]
  have hkings := totalKings_contextAfter deal htotalKings hsomeKings north.aces
  generalize hcontext : contextAfter deal .north 0 south
    [openingBid, ⟨4, .clubs⟩, ⟨4, answerStrain north.aces⟩, ⟨5, .clubs⟩,
      ⟨5, answerStrain north.kings⟩] = context at hauction haces hkings
  have hat : context.auction.calls ∈ afterKingAnswer := hauction ▸ mem_afterKingAnswer _ _
  have houtcome := (outcome?_afterKingAnswer hat).trans (outcome?_afterKings hat)
  rw [placeAfterKings_eq (haces ▸ hthree), haces, hkings] at houtcome
  refine (saidAfter_callOf hsouth (hcontext ▸ houtcome)).trans ?_
  have hfour : 4 ≤ north.aces + south.aces ↔ north.aces + south.aces = 4 := by omega
  simp only [placement_of_slam hthree, hfour]
  split <;> rfl

/-- Once the contract is placed the tree gives no call. -/
theorem callOf?_after_script (north south : Hand) :
    tree.callOf? deal (ofCalls .north (exchange 0 (openingBid :: script north south)))
      (Seat.north.advance (0 + 2 * (openingBid :: script north south).length)) = none := by
  refine callOf?_eq_none fun hand ↦ outcome?_eq_none ?_
  rw [Context.ofHand, calls_ofCalls]
  exact not_mem_turns north south

theorem says_nothing (deal : Deal) (north south : Hand) :
    saidAfter (tree.callOf deal) .north 0 (openingBid :: script north south) = .pass := by
  rw [saidAfter, callOf, callOf?_after_script]
  rfl

end Saying

/-! ### The dialogue -/

/-- Each bid of the dialogue outranks the one before it. -/
theorem isChain_script (north south : Hand) :
    (openingBid :: script north south).IsChain fun low high ↦ high.outranks low = true := by
  have hanswer : ∀ strain ∈ answerStrains, (⟨4, strain⟩ : Bid).outranks ⟨4, .clubs⟩ = true := by
    decide
  by_cases haces : 3 ≤ north.aces + south.aces
  · have hask : ∀ strain ∈ answerStrains, (⟨5, .clubs⟩ : Bid).outranks ⟨4, strain⟩ = true := by
      decide
    have hkings : ∀ strain ∈ answerStrains, (⟨5, strain⟩ : Bid).outranks ⟨5, .clubs⟩ = true := by
      decide
    have hslam : ∀ strain ∈ answerStrains, (⟨7, .notrump⟩ : Bid).outranks ⟨5, strain⟩ = true ∧
        (⟨6, .notrump⟩ : Bid).outranks ⟨5, strain⟩ = true := by decide
    rw [script, if_pos haces, placement_of_slam haces]
    simp only [List.isChain_cons_cons, List.isChain_singleton, and_true]
    refine ⟨by decide, hanswer _ (answerStrain_mem _), hask _ (answerStrain_mem _),
      hkings _ (answerStrain_mem _), ?_⟩
    split
    · exact (hslam _ (answerStrain_mem _)).1
    · exact (hslam _ (answerStrain_mem _)).2
  · have hplace : ∀ held < 3, (⟨if held = 2 then 5 else 4, .notrump⟩ : Bid).outranks
        ⟨4, answerStrain held⟩ = true := by decide
    rw [script, if_neg haces, placement_of_not_slam haces]
    simp only [List.isChain_cons_cons, List.isChain_singleton, and_true]
    exact ⟨by decide, hanswer _ (answerStrain_mem _), hplace _ (by omega)⟩

/-- The script ends with the contract, in south's turn. -/
theorem exists_script_eq (north south : Hand) :
    ∃ before, openingBid :: script north south = before ++ [placement north south] ∧
      Seat.north.advance (0 + 2 * before.length) = .south := by
  rw [script]
  split
  · exact ⟨[openingBid, _, _, _, _], rfl, rfl⟩
  · exact ⟨[openingBid, _, _], rfl, rfl⟩

theorem lastBid?_after_script (north south : Hand) (passes : Nat) :
    (ofCalls .north (exchange 0 (openingBid :: script north south) ++
      List.replicate passes .pass)).lastBid? = some (.south, placement north south) := by
  obtain ⟨before, hscript, hseat⟩ := exists_script_eq north south
  rw [hscript, lastBid?_exchange, hseat]

section Dialogue

variable {deal : Deal} {north south : Hand}

/-- The auctions of a deal in which north has opened one notrump, north and south bid by the
convention, and east and west pass. -/
abbrev Asked (deal : Deal) : Auction → Prop :=
  Auction.Dialogue .north (tree.callOf deal) (ofCalls .north [.of 1 .notrump, .pass])

/-- The two hands are those that the convention is meant for, south without a void. -/
structure Suited (deal : Deal) (north south : Hand) : Prop where
  north_hand : deal.hand? .north = some north
  south_hand : deal.hand? .south = some south
  admitted : constraints.admits deal = true
  disjoint : north.cards.Disjoint south.cards
  no_void : ∀ suit, 0 < south.length suit

namespace Suited

theorem points (h : Suited deal north south) : 15 ≤ north.points ∧ 16 ≤ south.points := by
  obtain ⟨opener, hopenerHand, hopener⟩ := DealConstraints.exists_keeps h.admitted (.head _)
  obtain ⟨responder, hresponderHand, hresponder⟩ :=
    DealConstraints.exists_keeps h.admitted (.tail _ (.head _))
  obtain rfl := Option.some.inj (h.north_hand.symm.trans hopenerHand)
  obtain rfl := Option.some.inj (h.south_hand.symm.trans hresponderHand)
  exact ⟨Int.ofNat_le.mp (hopener.minimumPoints 15 rfl),
    Int.ofNat_le.mp (hresponder.minimumPoints 16 rfl)⟩

theorem aces_le (h : Suited deal north south) : north.aces + south.aces ≤ 4 :=
  Hand.countRank_add_le_four h.disjoint .ace

theorem kings_le (h : Suited deal north south) : north.kings + south.kings ≤ 4 :=
  Hand.countRank_add_le_four h.disjoint .king

theorem aces_pos (h : Suited deal north south) : 0 < north.aces + south.aces := by
  have hpoints := h.points
  exact Hand.aces_pos_of_points h.disjoint (by omega)

theorem kings_pos (h : Suited deal north south) : 0 < north.kings + south.kings := by
  have hpoints := h.points
  exact Hand.kings_pos_of_points h.disjoint (by omega)

/-- The two hands follow the script. -/
theorem follows_script (h : Suited deal north south) :
    Follows (tree.callOf deal) .north 0 [openingBid] (script north south) := by
  have hask := says_aceAsk h.south_hand h.points.2 h.no_void
  have haces := says_aces h.north_hand
  have hafter := says_afterAces h.south_hand h.aces_le h.aces_pos
  have hpass := says_nothing deal north south
  by_cases hthree : 3 ≤ north.aces + south.aces
  · have hkings := says_kings h.north_hand north.aces
    have hcontract := says_afterKings h.south_hand h.aces_le hthree h.kings_le h.kings_pos
    rw [if_pos hthree] at hafter
    rw [script, if_pos hthree] at hpass ⊢
    exact ⟨hask, haces, hafter, hkings, hcontract, hpass⟩
  · rw [if_neg hthree] at hafter
    rw [script, if_neg hthree] at hpass ⊢
    exact ⟨hask, haces, hafter, hpass⟩

/-- At a member's turn some bids of the script have been made. -/
theorem exists_turn (h : Suited deal north south) {auction : Auction} {seat : Seat}
    (hrun : Asked deal auction) (hopen : auction.isOver = false)
    (hturn : auction.toAct? = some seat) (hmember : seat.sameSide .north = true) :
    ∃ before after, script north south = before ++ after ∧
      auction = ofCalls .north (exchange 0 (openingBid :: before)) ∧
      seat = Seat.north.advance (0 + 2 * (openingBid :: before).length) :=
  h.follows_script.exists_turn (by simp) rfl hrun hopen hturn hmember

/-- Every call is matched and legal until the contract is placed, and then there is none. -/
theorem call_legal (h : Suited deal north south) {auction : Auction} {seat : Seat}
    (hrun : Asked deal auction) (hopen : auction.isOver = false)
    (hturn : auction.toAct? = some seat) (hmember : seat.sameSide .north = true) :
    (∃ call, tree.callOf? deal auction seat = some call ∧ auction.permits call seat = true) ∨
      (tree.callOf? deal auction seat = none ∧
        auction.lastBid? = some (.south, placement north south)) := by
  obtain ⟨before, after, hscript, rfl, rfl⟩ := h.exists_turn hrun hopen hturn hmember
  cases after with
  | nil =>
    rw [List.append_nil] at hscript
    have hlast := lastBid?_after_script north south 0
    rw [List.replicate_zero, List.append_nil, hscript] at hlast
    exact Or.inr ⟨hscript ▸ callOf?_after_script north south, hlast⟩
  | cons bid after =>
    have hsays : saidAfter (tree.callOf deal) .north 0 ([openingBid] ++ before) = .bid bid :=
      (hscript ▸ h.follows_script).drop.1
    refine Or.inl ⟨.bid bid, callOf?_eq_some_of_bid hsays, ?_⟩
    have hchain := isChain_script north south
    rw [hscript, ← List.cons_append] at hchain
    exact permits_exchange_of_isChain (by simp) hchain

/-- When south has heard the answer about aces, the bids are the ask and the answer. -/
theorem eq_of_isAt_afterAceAnswer (h : Suited deal north south) {auction : Auction}
    (hrun : Asked deal auction) (hopen : auction.isOver = false)
    (hturn : auction.toAct? = some .south) (hat : isAt afterAceAnswer auction = true) :
    auction = ofCalls .north
      (exchange 0 [openingBid, ⟨4, .clubs⟩, ⟨4, answerStrain north.aces⟩]) := by
  obtain ⟨before, after, hscript, rfl, -⟩ := h.exists_turn hrun hopen hturn rfl
  have hlengths : ∀ calls ∈ afterAceAnswer, calls.length = 6 := by decide
  have hlength := hlengths _ (List.contains_iff_mem.mp hat)
  rw [calls_ofCalls, length_exchange, List.length_cons] at hlength
  have hbefore : before = (script north south).take 2 := by
    rw [hscript, List.take_left' (by omega)]
  rw [hbefore, script]
  split <;> rfl

/-- When south has heard the answer about kings, the partnership has three aces, and the bids are
the asks and the answers. -/
theorem eq_of_isAt_afterKingAnswer (h : Suited deal north south) {auction : Auction}
    (hrun : Asked deal auction) (hopen : auction.isOver = false)
    (hturn : auction.toAct? = some .south) (hat : isAt afterKingAnswer auction = true) :
    3 ≤ north.aces + south.aces ∧
      auction = ofCalls .north (exchange 0 [openingBid, ⟨4, .clubs⟩, ⟨4, answerStrain north.aces⟩,
        ⟨5, .clubs⟩, ⟨5, answerStrain north.kings⟩]) := by
  obtain ⟨before, after, hscript, rfl, -⟩ := h.exists_turn hrun hopen hturn rfl
  have hlengths : ∀ calls ∈ afterKingAnswer, calls.length = 10 := by decide
  have hlength := hlengths _ (List.contains_iff_mem.mp hat)
  rw [calls_ofCalls, length_exchange, List.length_cons] at hlength
  have hbefore : before = (script north south).take 4 := by
    rw [hscript, List.take_left' (by omega)]
  by_cases hthree : 3 ≤ north.aces + south.aces
  · refine ⟨hthree, ?_⟩
    rw [hbefore, script, if_pos hthree]
    rfl
  · have hshort := congrArg List.length hscript
    rw [script, if_neg hthree, List.length_append] at hshort
    simp only [List.length_cons, List.length_nil] at hshort
    omega

end Suited

/-- What south knows in the auction. -/
def southContext (deal : Deal) (south : Hand) (auction : Auction) : Context :=
  Context.ofHand south auction .south none deal.vulnerability

namespace Suited

/-- South hears the aces that north holds, and asks for kings if the partnership has three. -/
theorem hears_aces (h : Suited deal north south) {auction : Auction} (hrun : Asked deal auction)
    (hopen : auction.isOver = false) (hturn : auction.toAct? = some .south)
    (hat : isAt afterAceAnswer auction = true) :
    openerAces (southContext deal south auction) = north.aces ∧
      (tree.callOf? deal auction .south = some kingAsk ↔ 3 ≤ north.aces + south.aces) := by
  obtain rfl := h.eq_of_isAt_afterAceAnswer hrun hopen hturn hat
  refine ⟨openerAces_contextAfter deal h.aces_le h.aces_pos [], ?_⟩
  have hsays := says_afterAces h.south_hand h.aces_le h.aces_pos
  by_cases hthree : 3 ≤ north.aces + south.aces
  · rw [if_pos hthree] at hsays
    exact iff_of_true (callOf?_eq_some_of_bid hsays) hthree
  · rw [if_neg hthree] at hsays
    refine iff_of_false (fun hask ↦ ?_) hthree
    have hbid := Option.some.inj ((callOf?_eq_some_of_bid hsays).symm.trans hask)
    cases congrArg Bid.strain (Call.bid.inj hbid)

/-- South hears the kings that north holds, and knows the aces. -/
theorem hears_kings (h : Suited deal north south) {auction : Auction} (hrun : Asked deal auction)
    (hopen : auction.isOver = false) (hturn : auction.toAct? = some .south)
    (hat : isAt afterKingAnswer auction = true) :
    3 ≤ north.aces + south.aces ∧ openerAces (southContext deal south auction) = north.aces ∧
      openerKings (southContext deal south auction) = north.kings := by
  obtain ⟨hthree, rfl⟩ := h.eq_of_isAt_afterKingAnswer hrun hopen hturn hat
  exact ⟨hthree, openerAces_contextAfter deal h.aces_le h.aces_pos _,
    openerKings_contextAfter deal h.kings_le h.kings_pos _⟩

/-- The dialogue comes to the answer about aces. -/
theorem exists_afterAceAnswer (h : Suited deal north south) :
    ∃ auction, Asked deal auction ∧ auction.isOver = false ∧ auction.toAct? = some .south ∧
      isAt afterAceAnswer auction = true := by
  have hscript : script north south =
      [⟨4, .clubs⟩, ⟨4, answerStrain north.aces⟩] ++ (script north south).drop 2 := by
    rw [script]
    split <;> rfl
  have hfollows := h.follows_script
  rw [hscript] at hfollows
  refine ⟨_, hfollows.dialogue_turn (by simp) rfl, ?_, toAct?_ofCalls .., ?_⟩
  · exact @isOver_ofCalls_of_action .north (exchange 0 [openingBid, ⟨4, .clubs⟩]) [.pass] _
      (by simp) (by simp)
  · rw [isAt, calls_ofCalls]
    exact List.contains_iff_mem.mpr (mem_afterAceAnswer _)

/-- With three aces the dialogue comes to the answer about kings. -/
theorem exists_afterKingAnswer (h : Suited deal north south)
    (hthree : 3 ≤ north.aces + south.aces) :
    ∃ auction, Asked deal auction ∧ auction.isOver = false ∧ auction.toAct? = some .south ∧
      isAt afterKingAnswer auction = true := by
  have hscript : script north south =
      [⟨4, .clubs⟩, ⟨4, answerStrain north.aces⟩, ⟨5, .clubs⟩, ⟨5, answerStrain north.kings⟩] ++
        [placement north south] := by
    rw [script, if_pos hthree]
    rfl
  have hfollows := h.follows_script
  rw [hscript] at hfollows
  refine ⟨_, hfollows.dialogue_turn (by simp) rfl, ?_, toAct?_ofCalls .., ?_⟩
  · exact @isOver_ofCalls_of_action .north
      (exchange 0 [openingBid, ⟨4, .clubs⟩, ⟨4, answerStrain north.aces⟩, ⟨5, .clubs⟩]) [.pass] _
      (by simp) (by simp)
  · rw [isAt, calls_ofCalls]
    exact List.contains_iff_mem.mpr (mem_afterKingAnswer _ _)

/-- The dialogue ends. -/
theorem exists_isOver (h : Suited deal north south) :
    ∃ auction, Asked deal auction ∧ auction.isOver = true := by
  refine ⟨_, h.follows_script.dialogue_ended (by simp) rfl, ?_⟩
  rw [isOver_ofCalls]
  exact isFinished_exchange_passes (by simp)

/-- When the dialogue is over, south has asked for kings if the partnership has three aces, and has
bid the contract last. -/
theorem contract (h : Suited deal north south) {auction : Auction} (hrun : Asked deal auction)
    (hover : auction.isOver = true) :
    (kingAsk ∈ auction.calls ↔ 3 ≤ north.aces + south.aces) ∧
      auction.lastBid? = some (.south, placement north south) := by
  obtain rfl := h.follows_script.eq_of_isOver (by simp) rfl hrun hover
  refine ⟨?_, lastBid?_after_script north south 2⟩
  rw [calls_ofCalls]
  by_cases hthree : 3 ≤ north.aces + south.aces
  · refine iff_of_true ?_ hthree
    rw [script, if_pos hthree]
    simp [exchange, kingAsk]
  · refine iff_of_false ?_ hthree
    rw [script, if_neg hthree, placement_of_not_slam hthree]
    simp [exchange, kingAsk, openingBid]

end Suited

theorem level_placement (north south : Hand) :
    ((placement north south).level = 7 ↔
      north.aces + south.aces = 4 ∧ 3 ≤ north.kings + south.kings) ∧
    ((placement north south).level = 6 ↔ 3 ≤ north.aces + south.aces ∧
      ¬ (north.aces + south.aces = 4 ∧ 3 ≤ north.kings + south.kings)) ∧
    (north.aces + south.aces < 3 → (placement north south).level.number < 6) := by
  by_cases hthree : 3 ≤ north.aces + south.aces
  · rw [placement_of_slam hthree]
    split
    next hgrand => exact ⟨iff_of_true rfl hgrand, iff_of_false nofun fun h ↦ h.2 hgrand, by omega⟩
    next hsmall => exact ⟨iff_of_false nofun hsmall, iff_of_true rfl ⟨hthree, hsmall⟩, by omega⟩
  · rw [placement_of_not_slam hthree]
    have hgrand : ¬ (north.aces + south.aces = 4 ∧ 3 ≤ north.kings + south.kings) := by omega
    split
    · exact ⟨iff_of_false nofun hgrand, iff_of_false nofun fun h ↦ hthree h.1, fun _ ↦ by decide⟩
    · exact ⟨iff_of_false nofun hgrand, iff_of_false nofun fun h ↦ hthree h.1, fun _ ↦ by decide⟩

/-- The dialogue of two suited hands tells both what they need: every call is matched and legal
until the contract is placed; south hears the number of aces, and of kings, that north holds; south
asks for kings exactly with three aces; and the contract is the slam that the partnership's aces and
kings call for, or else lower than a slam. -/
theorem dialogue_places_contract (h : Suited deal north south) :
    (∀ auction seat, Asked deal auction → auction.isOver = false →
      auction.toAct? = some seat → seat.sameSide .north = true →
        (∃ call, tree.callOf? deal auction seat = some call ∧
          auction.permits call seat = true) ∨
        (tree.callOf? deal auction seat = none ∧
          auction.lastBid? = some (.south, placement north south))) ∧
    (∃ auction, Asked deal auction ∧ auction.isOver = false ∧ auction.toAct? = some .south ∧
      isAt afterAceAnswer auction = true) ∧
    (∀ auction, Asked deal auction → auction.isOver = false → auction.toAct? = some .south →
      isAt afterAceAnswer auction = true →
        openerAces (southContext deal south auction) = north.aces ∧
        (tree.callOf? deal auction .south = some kingAsk ↔ 3 ≤ north.aces + south.aces)) ∧
    (3 ≤ north.aces + south.aces → ∃ auction, Asked deal auction ∧ auction.isOver = false ∧
      auction.toAct? = some .south ∧ isAt afterKingAnswer auction = true) ∧
    (∀ auction, Asked deal auction → auction.isOver = false → auction.toAct? = some .south →
      isAt afterKingAnswer auction = true →
        3 ≤ north.aces + south.aces ∧
        openerAces (southContext deal south auction) = north.aces ∧
        openerKings (southContext deal south auction) = north.kings) ∧
    (∃ auction, Asked deal auction ∧ auction.isOver = true) ∧
    ∀ auction, Asked deal auction → auction.isOver = true →
      (kingAsk ∈ auction.calls ↔ 3 ≤ north.aces + south.aces) ∧
      ∃ level, auction.lastBid? = some (.south, ⟨level, .notrump⟩) ∧
        (level = 7 ↔ north.aces + south.aces = 4 ∧ 3 ≤ north.kings + south.kings) ∧
        (level = 6 ↔ 3 ≤ north.aces + south.aces ∧
          ¬ (north.aces + south.aces = 4 ∧ 3 ≤ north.kings + south.kings)) ∧
        (north.aces + south.aces < 3 → level.number < 6) := by
  refine ⟨fun auction seat ↦ h.call_legal, h.exists_afterAceAnswer, fun auction ↦ h.hears_aces,
    h.exists_afterKingAnswer, fun auction ↦ h.hears_kings, h.exists_isOver, ?_⟩
  intro auction hrun hover
  obtain ⟨hkings, hlast⟩ := h.contract hrun hover
  exact ⟨hkings, _, hlast, level_placement north south⟩

/-- Twenty-three points opposite a strong notrump, with the other two aces and kings. -/
def strongResponder : Hand :=
  .ofSuits [.king, .jack, .ten, .nine] [.ace, .queen, .ten] [.ace, .queen, .jack]
    [.king, .queen, .jack]

/-- A deal for a grand slam. -/
def grandSlamDeal : Deal where
  hand?
    | .north => some .strongNotrump
    | .south => some strongResponder
    | _ => none

theorem dialogue_places_contract_grandSlam :
    Suited grandSlamDeal .strongNotrump strongResponder ∧
      ∃ auction, Asked grandSlamDeal auction ∧ auction.isOver = true ∧
        auction.lastBid? = some (.south, ⟨7, .notrump⟩) := by
  have hsuited : Suited grandSlamDeal .strongNotrump strongResponder :=
    { north_hand := rfl
      south_hand := rfl
      admitted := by decide
      disjoint := by
        have hapart : ∀ card ∈ Hand.strongNotrump.cards, card ∉ strongResponder.cards := by decide
        exact fun card hcard ↦ hapart card hcard
      no_void := by
        intro suit
        cases suit <;> decide }
  obtain ⟨-, -, -, -, -, ⟨auction, hrun, hover⟩, hcontract⟩ := dialogue_places_contract hsuited
  obtain ⟨-, level, hlast, hgrand, -⟩ := hcontract auction hrun hover
  refine ⟨hsuited, auction, hrun, hover, ?_⟩
  rw [hlast, hgrand.mpr (by decide)]

end Dialogue

end BridgeBidding.Gerber
