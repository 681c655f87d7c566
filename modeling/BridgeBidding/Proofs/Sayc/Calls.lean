import BridgeBidding.Convention.Sayc
import BridgeBidding.Proofs.Auction.Uncontested
import BridgeBidding.Proofs.Condition.Verdict
import BridgeBidding.Proofs.Tree.Outcome

/-!
# The calls of the natural system

What the natural system calls, turn by turn: an opening tells points and shape (`Sayc.Opening`), a
response lies above the opening (`Sayc.responses`), and the opener's rebid depends on the strains of
the opening and of partner's latest bid (`Sayc.Rebid`).
-/

set_option autoImplicit false
set_option relaxedAutoImplicit false

namespace BridgeBidding

namespace Sayc

open RuleTree

variable {context : Context}

/-! ### Whose turn it is -/

theorem outcome?_tree_of_opening (h : context.openingBid? = none) :
    tree.outcome? context = openingTurn.outcome? context := by
  simp [tree, PositionTest.holds, h]

theorem outcome?_tree_of_rebidding {opening : Bid}
    (h : context.openingBid? = some (context.seat, opening)) :
    tree.outcome? context = rebiddingTurn.outcome? context := by
  simp [tree, PositionTest.holds, h]

theorem outcome?_tree_of_responding {opening : Bid}
    (h : context.openingBid? = some (context.seat.partner, opening)) :
    tree.outcome? context = respondingTurn.outcome? context := by
  simp [tree, PositionTest.holds, h, Seat.partner_ne_self]

/-! ### Opening -/

/-- What an opening call tells about the hand. -/
inductive Opening (evaluation : Evaluation) : Call → Prop
  | strong (hpoints : 22 ≤ evaluation.points) : Opening evaluation (.of 2 .clubs)
  | twoNotrump (hminimum : 20 ≤ evaluation.points) (hmaximum : evaluation.points ≤ 21)
    (hbalanced : evaluation.isBalanced = true) : Opening evaluation (.of 2 .notrump)
  | oneNotrump (hminimum : 15 ≤ evaluation.points) (hmaximum : evaluation.points ≤ 17)
    (hbalanced : evaluation.isBalanced = true) (hspades : evaluation.length .spades < 5)
    (hhearts : evaluation.length .hearts < 5) : Opening evaluation (.of 1 .notrump)
  | spades (hminimum : 12 ≤ evaluation.points) (hmaximum : evaluation.points ≤ 21)
    (hspades : 5 ≤ evaluation.length .spades)
    (hhearts : evaluation.length .hearts ≤ evaluation.length .spades) :
    Opening evaluation (.of 1 .spades)
  | hearts (hminimum : 12 ≤ evaluation.points) (hmaximum : evaluation.points ≤ 21)
    (hhearts : 5 ≤ evaluation.length .hearts) : Opening evaluation (.of 1 .hearts)
  | clubs (hminimum : 12 ≤ evaluation.points) (hmaximum : evaluation.points ≤ 21)
    (hspades : evaluation.length .spades < 5) (hhearts : evaluation.length .hearts < 5)
    (hclubs : 3 ≤ evaluation.length .clubs) (hdiamonds : evaluation.length .diamonds < 4) :
    Opening evaluation (.of 1 .clubs)
  | diamonds (hminimum : 12 ≤ evaluation.points) (hmaximum : evaluation.points ≤ 21)
    (hspades : evaluation.length .spades < 5) (hhearts : evaluation.length .hearts < 5)
    (hminors : evaluation.length .clubs < 3 ∨ 4 ≤ evaluation.length .diamonds) :
    Opening evaluation (.of 1 .diamonds)
  | weakTwo (suit : Suit) (hsuit : suit ≠ .clubs) (hminimum : 5 ≤ evaluation.points)
    (hmaximum : evaluation.points ≤ 11) (hlength : 6 ≤ evaluation.length suit) :
    Opening evaluation (.of 2 suit.strain)
  | pass (hpoints : evaluation.points < 12) : Opening evaluation .pass

theorem Opening.pass_or_bid {evaluation : Evaluation} {call : Call} (h : Opening evaluation call) :
    call = .pass ∨ ∃ bid, call = .bid bid := by
  cases h with
  | pass => exact Or.inl rfl
  | _ => exact Or.inr ⟨_, rfl⟩

/-- The tree comes to a call that tells what is true of the hand. -/
def Opens (context : Context) (tree : RuleTree) : Prop :=
  ∃ name call, tree.outcome? context = some (name, .ok call) ∧ Opening context.evaluation call

theorem opens_oneOfASuit (hminimum : 12 ≤ context.evaluation.points)
    (hmaximum : context.evaluation.points ≤ 21) : Opens context oneOfASuit := by
  have hbelow : ((Condition.holding (.suitBelow .diamonds 4)).verdict context).passed = true ↔
      context.evaluation.length .diamonds < 4 := Condition.passed_suitBelow .diamonds 4
  rw [Opens]
  simp only [oneOfASuit, outcome?_ask, outcome?_say, Condition.passed_longerMajor,
    Condition.passed_suitMin, Condition.passed_both, hbelow, Major.suit, Major.other]
  by_cases hspades : 5 ≤ context.evaluation.length .spades ∧
      context.evaluation.length .hearts ≤ context.evaluation.length .spades
  · rw [if_pos hspades]
    exact ⟨_, _, rfl, .spades hminimum hmaximum hspades.1 hspades.2⟩
  · rw [if_neg hspades]
    by_cases hhearts : 5 ≤ context.evaluation.length .hearts
    · rw [if_pos hhearts]
      exact ⟨_, _, rfl, .hearts hminimum hmaximum hhearts⟩
    · rw [if_neg hhearts]
      by_cases hclubs : 3 ≤ context.evaluation.length .clubs ∧
          context.evaluation.length .diamonds < 4
      · rw [if_pos hclubs]
        exact ⟨_, _, rfl, .clubs hminimum hmaximum (by omega) (by omega) hclubs.1 hclubs.2⟩
      · rw [if_neg hclubs]
        exact ⟨_, _, rfl, .diamonds hminimum hmaximum (by omega) (by omega) (by omega)⟩

/-- A weak two, or else what something else comes to. -/
theorem opens_weakTwo {suit : Suit} {letter : String} {otherwise : RuleTree} (hsuit : suit ≠ .clubs)
    (hotherwise : Opens context otherwise) : Opens context (weakTwo suit letter otherwise) := by
  rw [Opens]
  simp only [weakTwo, outcome?_ask, outcome?_say, Condition.passed_both,
    Condition.passed_pointsRange, Condition.passed_suitMin]
  by_cases hweak : (5 ≤ context.evaluation.points ∧ context.evaluation.points ≤ 11) ∧
      6 ≤ context.evaluation.length suit
  · rw [if_pos hweak]
    exact ⟨_, _, rfl, .weakTwo suit hsuit hweak.1.1 hweak.1.2 hweak.2⟩
  · rw [if_neg hweak]
    exact hotherwise

theorem opens_weakOpening (hpoints : context.evaluation.points < 12) :
    Opens context weakOpening := by
  refine opens_weakTwo (by decide) (opens_weakTwo (by decide) (opens_weakTwo (by decide) ?_))
  exact ⟨_, _, rfl, .pass hpoints⟩

/-- Whoever opens has a call that tells what is true of the hand. -/
theorem opens_openingTurn (context : Context) : Opens context openingTurn := by
  rw [Opens]
  simp only [openingTurn, outcome?_ask, outcome?_say, Condition.passed_conjunction,
    Condition.passed_pointsMin, Condition.passed_pointsRange, Condition.passed_balanced,
    Condition.passed_noFiveCardMajor, List.all_cons, List.all_nil, Bool.and_true,
    Bool.and_eq_true]
  by_cases hstrong : 22 ≤ context.evaluation.points
  · rw [if_pos hstrong]
    exact ⟨_, _, rfl, .strong hstrong⟩
  · rw [if_neg hstrong]
    by_cases htwo : (20 ≤ context.evaluation.points ∧ context.evaluation.points ≤ 21) ∧
        context.evaluation.isBalanced = true
    · rw [if_pos htwo]
      exact ⟨_, _, rfl, .twoNotrump htwo.1.1 htwo.1.2 htwo.2⟩
    · rw [if_neg htwo]
      by_cases hone : (15 ≤ context.evaluation.points ∧ context.evaluation.points ≤ 17) ∧
          context.evaluation.isBalanced = true ∧
            context.evaluation.length .spades < 5 ∧ context.evaluation.length .hearts < 5
      · rw [if_pos hone]
        exact ⟨_, _, rfl, .oneNotrump hone.1.1 hone.1.2 hone.2.1 hone.2.2.1 hone.2.2.2⟩
      · rw [if_neg hone]
        by_cases hvalues : 12 ≤ context.evaluation.points
        · rw [if_pos hvalues]
          exact opens_oneOfASuit hvalues (by omega)
        · rw [if_neg hvalues]
          exact opens_weakOpening (by omega)

/-! ### Responding -/

/-- The bids by which the system answers an opening. -/
def responses (opening : Bid) : List Bid :=
  match opening.level, opening.strain with
  | .one, .notrump => [⟨2, .clubs⟩, ⟨2, .notrump⟩, ⟨3, .notrump⟩]
  | .one, .spades =>
    [⟨1, .notrump⟩, ⟨2, .clubs⟩, ⟨2, .diamonds⟩, ⟨2, .spades⟩, ⟨3, .spades⟩, ⟨4, .spades⟩]
  | .one, .hearts =>
    [⟨1, .spades⟩, ⟨1, .notrump⟩, ⟨2, .clubs⟩, ⟨2, .diamonds⟩, ⟨2, .hearts⟩, ⟨3, .hearts⟩,
      ⟨4, .hearts⟩]
  | .one, .diamonds | .one, .clubs =>
    [⟨1, .hearts⟩, ⟨1, .spades⟩, ⟨1, .notrump⟩, ⟨2, .notrump⟩, ⟨3, .notrump⟩]
  | _, _ => []

/-- The call is a pass or one of the bids that answer the opening. -/
def IsResponse (opening : Bid) (call : Call) : Prop :=
  call = .pass ∨ ∃ response ∈ responses opening, call = .bid response

/-- Every response lies above the opening. -/
theorem outranks_of_mem_responses {opening response : Bid} (h : response ∈ responses opening) :
    response.outranks opening = true := by
  obtain ⟨level, strain⟩ := opening
  revert response
  cases level <;> cases strain <;> decide

theorem IsResponse.bid {opening response : Bid} (h : response ∈ responses opening) :
    IsResponse opening (.bid response) :=
  Or.inr ⟨response, h, rfl⟩

theorem IsResponse.pass_or_bid {opening : Bid} {call : Call} (h : IsResponse opening call) :
    call = .pass ∨ ∃ bid, call = .bid bid :=
  h.imp_right fun ⟨response, _, hcall⟩ ↦ ⟨response, hcall⟩

theorem IsResponse.mem {opening response : Bid} (h : IsResponse opening (.bid response)) :
    response ∈ responses opening := by
  rcases h with hpass | ⟨bid, hbid, heq⟩
  · cases hpass
  · exact Call.bid.inj heq ▸ hbid

/-- A bid of a level in a strain that the auction gives. -/
theorem inStrain_eq_ok {strain? : Context → Option Strain} {strain : Strain}
    (h : strain? context = some strain) (level : Level) :
    CallRule.inStrain level.number strain? context = .ok (.bid ⟨level, strain⟩) := by
  simp only [CallRule.inStrain, h, Bid.ofLevel_number]

theorem promises_afterNotrump :
    Promises context (IsResponse ⟨1, .notrump⟩) afterNotrump := by
  refine .ask (fun _ ↦ .ask (fun _ ↦ ?stayman) fun _ ↦ .ask (fun _ ↦ ?game) fun _ ↦ ?invite)
    fun _ ↦ ?weak
  case stayman => exact .say (.bid (by decide))
  case game => exact .say (.bid (by decide))
  case invite => exact .say (.bid (by decide))
  case weak => exact .say (Or.inl rfl)

theorem promises_afterMinor {strain : Strain} (hminor : strain.isMinor = true) :
    Promises context (IsResponse ⟨1, strain⟩) afterMinor := by
  have hmember : ∀ response ∈ responses ⟨1, .clubs⟩, response ∈ responses ⟨1, strain⟩ := by
    cases strain with
    | clubs => exact fun _ h ↦ h
    | diamonds => exact fun _ h ↦ h
    | _ => cases hminor
  refine .ask (fun _ ↦ .ask (fun _ ↦ ?fourHearts) fun _ ↦ .ask (fun _ ↦ ?fourSpades) fun _ ↦
    .ask (fun _ ↦ ?oneNotrump) fun _ ↦ .ask (fun _ ↦ ?twoNotrump) fun _ ↦
    .ask (fun _ ↦ ?threeNotrump) fun _ ↦ .stop) fun _ ↦ ?weak
  case fourHearts => exact .say (.bid (hmember _ (by decide)))
  case fourSpades => exact .say (.bid (hmember _ (by decide)))
  case oneNotrump => exact .say (.bid (hmember _ (by decide)))
  case twoNotrump => exact .say (.bid (hmember _ (by decide)))
  case threeNotrump => exact .say (.bid (hmember _ (by decide)))
  case weak => exact .say (Or.inl rfl)

/-- Support for partner's suit is support for the strain that partner opened. -/
theorem passed_support {strain : Strain} (hpartner : context.partnerFirstStrain? = some strain)
    (minimum : Int) :
    ((Condition.holding (.partnerSuitSupport minimum)).verdict context).passed = true ↔
      ∃ suit, strain.suit? = some suit ∧ minimum ≤ context.evaluation.length suit := by
  rw [Condition.passed_partnerSuitSupport, HandTest.partnerSuit?, hpartner, Option.bind_some]

/-- The questions for raises leave no gap: with four cards in partner's suit and the values to
respond, one of them is answered with yes. -/
theorem passed_raise {strain : Strain} {suit : Suit}
    (hpartner : context.partnerFirstStrain? = some strain) (hsuit : strain.suit? = some suit)
    (hvalues : 6 ≤ context.evaluation.points) (hlength : 4 ≤ context.evaluation.length suit) :
    ((Condition.conjunction
      [.pointsRange 6 10, .holding (.partnerSuitSupport 3)]).verdict context).passed = true ∨
    ((Condition.conjunction
      [.pointsRange 10 12, .holding (.partnerSuitSupport 4)]).verdict context).passed = true ∨
    ((Condition.conjunction
      [.pointsMin 13, .holding (.partnerSuitSupport 4)]).verdict context).passed = true := by
  have hthree : ((Condition.holding (.partnerSuitSupport 3)).verdict context).passed = true :=
    (passed_support hpartner 3).mpr ⟨suit, hsuit, by omega⟩
  have hfour : ((Condition.holding (.partnerSuitSupport 4)).verdict context).passed = true :=
    (passed_support hpartner 4).mpr ⟨suit, hsuit, hlength⟩
  simp only [Condition.passed_both, hthree, hfour, and_true, Condition.passed_pointsRange,
    Condition.passed_pointsMin]
  omega

/-- A hand with four spades and the values to respond raises spades, so it bids one spade only over
hearts. -/
theorem strain_ne_spades {strain : Strain} (hpartner : context.partnerFirstStrain? = some strain)
    (hvalues : 6 ≤ context.evaluation.points) (hspades : 4 ≤ context.evaluation.length .spades)
    (hsimple : ¬ ((Condition.conjunction
      [.pointsRange 6 10, .holding (.partnerSuitSupport 3)]).verdict context).passed = true)
    (hlimit : ¬ ((Condition.conjunction
      [.pointsRange 10 12, .holding (.partnerSuitSupport 4)]).verdict context).passed = true)
    (hgame : ¬ ((Condition.conjunction
      [.pointsMin 13, .holding (.partnerSuitSupport 4)]).verdict context).passed = true) :
    strain ≠ .spades := by
  rintro rfl
  rcases passed_raise hpartner rfl hvalues hspades with hpassed | hpassed | hpassed
  · exact hsimple hpassed
  · exact hlimit hpassed
  · exact hgame hpassed

theorem promises_afterMajor {strain : Strain} (hmajor : strain.isMajor = true)
    (hpartner : context.partnerFirstStrain? = some strain) :
    Promises context (IsResponse ⟨1, strain⟩) afterMajor := by
  have hraises : ∀ level ∈ [Level.two, .three, .four],
      (⟨level, strain⟩ : Bid) ∈ responses ⟨1, strain⟩ := by
    cases strain with
    | hearts => decide
    | spades => decide
    | _ => cases hmajor
  have hothers : ∀ response ∈ ([⟨1, .notrump⟩, ⟨2, .clubs⟩, ⟨2, .diamonds⟩] : List Bid),
      response ∈ responses ⟨1, strain⟩ := by
    cases strain with
    | hearts => decide
    | spades => decide
    | _ => cases hmajor
  have hraise (level : Level) (hlevel : level ∈ [Level.two, .three, .four]) (call : Call)
      (hcall : CallRule.inPartnerFirst level.number context = .ok call) :
      IsResponse ⟨1, strain⟩ call := by
    rw [CallRule.inPartnerFirst, inStrain_eq_ok hpartner level, Except.ok.injEq] at hcall
    exact hcall ▸ .bid (hraises level hlevel)
  refine .ask (fun hvalues ↦ .ask (fun _ ↦ ?simple) fun hsimple ↦ .ask (fun _ ↦ ?limit) fun hlimit ↦
    .ask (fun _ ↦ ?game) fun hgame ↦ .ask (fun hspades ↦ ?fourSpades) fun _ ↦
    .ask (fun _ ↦ .ask (fun _ ↦ ?fourClubs) fun _ ↦ .ask (fun _ ↦ ?fourDiamonds) fun _ ↦ .stop)
      fun _ ↦ .ask (fun _ ↦ ?oneNotrump) fun _ ↦ .stop) fun _ ↦ ?weak
  case simple => exact .workOut (hraise .two (by decide))
  case limit => exact .workOut (hraise .three (by decide))
  case game => exact .workOut (hraise .four (by decide))
  case fourClubs => exact .say (.bid (hothers _ (by decide)))
  case fourDiamonds => exact .say (.bid (hothers _ (by decide)))
  case oneNotrump => exact .say (.bid (hothers _ (by decide)))
  case weak => exact .say (Or.inl rfl)
  case fourSpades =>
    have hne : strain ≠ .spades := strain_ne_spades hpartner
      ((Condition.passed_pointsMin 6).mp hvalues) ((Condition.passed_suitMin .spades 4).mp hspades)
      hsimple hlimit hgame
    cases strain with
    | hearts => exact .say (.bid (by decide))
    | spades => exact absurd rfl hne
    | _ => cases hmajor

/-- Where partner opened, its first strain is that of the opening. -/
theorem partnerFirstStrain?_of_responding {opening : Bid}
    (h : context.openingBid? = some (context.seat.partner, opening)) :
    context.partnerFirstStrain? = some opening.strain := by
  have hfirst := Position.head?_bidsBy_of_openingBid? h
  rw [Position.partnerFirstStrain?, Position.partnerBids, hfirst, Option.map_some]

theorem passed_partnerOpenedOne {opening : Bid}
    (h : context.openingBid? = some (context.seat.partner, opening)) (strain : Strain) :
    ((partnerOpenedOne strain).verdict context).passed = true ↔ opening = ⟨1, strain⟩ := by
  simp [partnerOpenedOne, PositionTest.holds, h, Bid.plain]

theorem passed_either_partnerOpenedOne {opening : Bid}
    (h : context.openingBid? = some (context.seat.partner, opening)) (first second : Strain) :
    ((Condition.disjunction [partnerOpenedOne first, partnerOpenedOne second]).verdict
      context).passed = true ↔ opening = ⟨1, first⟩ ∨ opening = ⟨1, second⟩ := by
  rw [← passed_partnerOpenedOne h, ← passed_partnerOpenedOne h, ← Bool.or_eq_true]
  exact Bool.eq_iff_iff.mp (Condition.passed_either_position _ _)

/-- Opposite an opening, the system passes or bids one of the responses to it. -/
theorem promises_respondingTurn {opening : Bid}
    (h : context.openingBid? = some (context.seat.partner, opening)) :
    Promises context (IsResponse opening) respondingTurn := by
  have hpartner := partnerFirstStrain?_of_responding h
  refine .ask (fun _ ↦ .stop) fun _ ↦ .ask (fun hnotrump ↦ ?notrumpOpened) fun _ ↦
    .ask (fun hmajor ↦ ?majorOpened) fun _ ↦ .ask (fun hminor ↦ ?minorOpened) fun _ ↦ .stop
  case notrumpOpened =>
    rw [(passed_partnerOpenedOne h .notrump).mp hnotrump]
    exact promises_afterNotrump
  case majorOpened =>
    rcases (passed_either_partnerOpenedOne h .hearts .spades).mp hmajor with rfl | rfl
    · exact promises_afterMajor rfl hpartner
    · exact promises_afterMajor rfl hpartner
  case minorOpened =>
    rcases (passed_either_partnerOpenedOne h .clubs .diamonds).mp hminor with rfl | rfl
    · exact promises_afterMinor rfl
    · exact promises_afterMinor rfl

/-! ### The opener's rebid -/

/-- The opener's rebid after an opening in the strain `own`, when partner's latest bid is in the
strain `partner`, with what it tells about the hand. -/
inductive Rebid (evaluation : Evaluation) (own partner : Strain) : Call → Prop
  | game (hmajor : own.isMajor = true) (hraised : partner = own)
    (hminimum : 19 ≤ evaluation.points) : Rebid evaluation own partner (.of 4 own)
  | invite (hmajor : own.isMajor = true) (hraised : partner = own)
    (hminimum : 17 ≤ evaluation.points) (hmaximum : evaluation.points ≤ 18) :
    Rebid evaluation own partner (.of 3 own)
  | pass (hmajor : own.isMajor = true) (hraised : partner = own)
    (hmaximum : evaluation.points ≤ 16) : Rebid evaluation own partner .pass
  | raise (suit : Suit) (hunraised : ¬ (own.isMajor = true ∧ partner = own))
    (hmajor : partner.isMajor = true) (hsuit : partner.suit? = some suit)
    (hminimum : 12 ≤ evaluation.points) (hmaximum : evaluation.points ≤ 16)
    (hlength : 4 ≤ evaluation.length suit) : Rebid evaluation own partner (.of 2 partner)
  | ownSuit (suit : Suit) (hunraised : ¬ (own.isMajor = true ∧ partner = own))
    (hsuit : own.suit? = some suit) (hminimum : 12 ≤ evaluation.points)
    (hmaximum : evaluation.points ≤ 17) (hlength : 6 ≤ evaluation.length suit) :
    Rebid evaluation own partner (.of 2 own)
  | oneNotrump (hunraised : ¬ (own.isMajor = true ∧ partner = own))
    (hminimum : 12 ≤ evaluation.points) (hmaximum : evaluation.points ≤ 14)
    (hbalanced : evaluation.isBalanced = true) : Rebid evaluation own partner (.of 1 .notrump)
  | twoNotrump (hunraised : ¬ (own.isMajor = true ∧ partner = own))
    (hminimum : 18 ≤ evaluation.points) (hmaximum : evaluation.points ≤ 19)
    (hbalanced : evaluation.isBalanced = true) : Rebid evaluation own partner (.of 2 .notrump)

theorem Rebid.pass_or_bid {evaluation : Evaluation} {own partner : Strain} {call : Call}
    (h : Rebid evaluation own partner call) : call = .pass ∨ ∃ bid, call = .bid bid := by
  cases h with
  | pass => exact Or.inl rfl
  | _ => exact Or.inr ⟨_, rfl⟩

theorem promises_rebiddingTurn {own partner : Strain}
    (hown : context.ownFirstStrain? = some own)
    (hpartner : context.partnerLastStrain? = some partner) :
    Promises context (Rebid context.evaluation own partner) rebiddingTurn := by
  have hraised : ((Condition.position .partnerRaisedMajor).verdict context).passed = true ↔
      own.isMajor = true ∧ partner = own := by
    simp [PositionTest.holds, PositionTest.majorIsRaised, hown, hpartner]
  have hworkOut (level : Level) {strain? : Context → Option Strain} {strain : Strain}
      (hstrain : strain? context = some strain)
      (hrebid : Rebid context.evaluation own partner (.of level strain)) (call : Call)
      (hcall : CallRule.inStrain level.number strain? context = .ok call) :
      Rebid context.evaluation own partner call := by
    rw [inStrain_eq_ok hstrain level, Except.ok.injEq] at hcall
    exact hcall ▸ hrebid
  refine .ask (fun hyes ↦ .ask (fun hgame ↦ ?game) fun hnogame ↦ .ask (fun hinvite ↦ ?invite)
    fun hnoinvite ↦ ?minimum) fun hno ↦ .ask (fun hsupport ↦ ?raise) fun _ ↦
    .ask (fun hlong ↦ ?ownSuit) fun _ ↦ .ask (fun hone ↦ ?oneNotrump) fun _ ↦
    .ask (fun htwo ↦ ?twoNotrump) fun _ ↦ .stop
  case game =>
    obtain ⟨hmajor, hsame⟩ := hraised.mp hyes
    exact .workOut (hworkOut .four hown
      (.game hmajor hsame ((Condition.passed_pointsMin 19).mp hgame)))
  case invite =>
    obtain ⟨hmajor, hsame⟩ := hraised.mp hyes
    obtain ⟨hminimum, hmaximum⟩ := (Condition.passed_pointsRange 17 18).mp hinvite
    exact .workOut (hworkOut .three hown (.invite hmajor hsame hminimum hmaximum))
  case minimum =>
    obtain ⟨hmajor, hsame⟩ := hraised.mp hyes
    rw [Condition.passed_pointsMin] at hnogame
    rw [Condition.passed_pointsRange] at hnoinvite
    exact .say (.pass hmajor hsame (by omega))
  case raise =>
    rw [hraised] at hno
    obtain ⟨hpoints, hsupport⟩ := Condition.passed_both.mp hsupport
    obtain ⟨hminimum, hmaximum⟩ := (Condition.passed_pointsRange 12 16).mp hpoints
    obtain ⟨suit, hpicked, hlength⟩ := (Condition.passed_partnerMajorSupport 4).mp hsupport
    obtain ⟨hmajor, hsuit⟩ : partner.isMajor = true ∧ partner.suit? = some suit := by
      simpa [HandTest.partnerMajor?, hpartner] using hpicked
    exact .workOut (hworkOut .two hpartner
      (.raise suit hno hmajor hsuit hminimum hmaximum hlength))
  case ownSuit =>
    rw [hraised] at hno
    obtain ⟨hpoints, hlong⟩ := Condition.passed_both.mp hlong
    obtain ⟨hminimum, hmaximum⟩ := (Condition.passed_pointsRange 12 17).mp hpoints
    obtain ⟨suit, hsuit, hlength⟩ := (Condition.passed_openedSuitMin 6).mp hlong
    rw [HandTest.ownSuit?, hown, Option.bind_some] at hsuit
    exact .workOut (hworkOut .two hown
      (.ownSuit suit hno hsuit hminimum hmaximum hlength))
  case oneNotrump =>
    rw [hraised] at hno
    obtain ⟨hpoints, hbalanced⟩ := Condition.passed_both.mp hone
    obtain ⟨hminimum, hmaximum⟩ := (Condition.passed_pointsRange 12 14).mp hpoints
    exact .say (.oneNotrump hno hminimum hmaximum hbalanced)
  case twoNotrump =>
    rw [hraised] at hno
    obtain ⟨hpoints, hbalanced⟩ := Condition.passed_both.mp htwo
    obtain ⟨hminimum, hmaximum⟩ := (Condition.passed_pointsRange 18 19).mp hpoints
    exact .say (.twoNotrump hno hminimum hmaximum hbalanced)

end Sayc

end BridgeBidding
