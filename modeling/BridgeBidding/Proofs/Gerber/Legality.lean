import BridgeBidding.Proofs.Convention.Turns
import BridgeBidding.Proofs.Gerber.Calls

/-!
# The legality of Gerber's calls

Whatever the hand, Gerber's calls are permitted in all auctions but some in which the responder
places the contract after the answer about kings.  If that answer is five notrump and the responder
knows of fewer than three aces, the contract is to be five notrump too, which is not to be had any
more (`Gerber.RepeatsAnswer`).  The contract after the answer about aces takes account of such an
answer.
-/

set_option autoImplicit false
set_option relaxedAutoImplicit false

namespace BridgeBidding.Gerber

open RuleTree AceAsking Auction

variable {dealer : Seat} {context : Context}

/-- The opener has told three kings by five notrump, and the responder, who knows of fewer than
three aces, is about to stop in five notrump. -/
def RepeatsAnswer (context : Context) : Prop :=
  context.auction.calls ∈ afterKingAnswer ∧
    context.auction.calls[8]? = some (.of 5 .notrump) ∧ totalAces context < 3

/-! ### The turns up to the answer about aces -/

theorem isPermitted_askingTurn (h : context.auction.calls ∈ afterOpening) :
    askingTurn.IsPermitted dealer context := by
  have hall : ∀ calls ∈ afterOpening, mayCallAll calls [aceAsk] = true := by decide
  exact isPermitted_of_bids rfl _ rfl (hall _ h)

theorem isPermitted_acesTurn (h : context.auction.calls ∈ afterAceAsk) :
    acesTurn.IsPermitted dealer context := by
  have hall : ∀ calls ∈ afterAceAsk,
      mayCallAll calls [.of 4 .notrump, .of 4 .spades, .of 4 .hearts, .of 4 .diamonds] = true := by
    decide
  exact isPermitted_of_bids rfl _ rfl (hall _ h)

theorem isPermitted_kingsTurn (h : context.auction.calls ∈ afterKingAsk) :
    kingsTurn.IsPermitted dealer context := by
  have hall : ∀ calls ∈ afterKingAsk,
      mayCallAll calls [.of 5 .notrump, .of 5 .spades, .of 5 .hearts, .of 5 .diamonds] = true := by
    decide
  exact isPermitted_of_bids rfl _ rfl (hall _ h)

/-- The aces that are heard in an answer on the fourth level. -/
theorem openerAces_of_answer {strain : Strain}
    (h : context.auction.calls[4]? = some (.of 4 strain)) :
    openerAces context = shown ⟨4, strain⟩ context.hand.aces := by
  rw [calls, List.getElem?_map] at h
  obtain ⟨entry, hentry, hcall⟩ := Option.map_eq_some_iff.mp h
  have hanswer : answerAt? context.auction 4 4 = some ⟨4, strain⟩ := by
    simp [answerAt?, hentry, Entry.bid?, hcall, Call.bid?]
  rw [openerAces, hanswer]

/-- An answer of four notrump tells of three aces. -/
theorem ne_notrump_of_totalAces_lt {strain : Strain}
    (h : context.auction.calls[4]? = some (.of 4 strain)) (haces : totalAces context < 3) :
    strain ≠ .notrump := by
  rintro rfl
  have hthree : openerAces context = 3 := openerAces_of_answer h
  rw [totalAces, hthree] at haces
  omega

/-- After the answer about aces the responder asks for kings, or stops in notrump above the
answer. -/
theorem isPermitted_afterAces (h : context.auction.calls ∈ afterAceAnswer) :
    afterAces.IsPermitted dealer context := by
  intro name call houtcome
  rw [outcome?_afterAces h] at houtcome
  by_cases haces : 3 ≤ totalAces context
  · rw [if_pos haces] at houtcome
    obtain rfl := Except.ok.inj (Prod.mk.inj (Option.some.inj houtcome)).2
    have hask : ∀ calls ∈ afterAceAnswer, mayCallAll calls [kingAsk] = true := by decide
    exact mayCall_of_mayCallAll (hask _ h) dealer List.mem_cons_self
  · have hanswers : ∀ calls ∈ afterAceAnswer, ∃ strain ∈ answerStrains,
        calls[4]? = some (.of 4 strain) := by decide
    obtain ⟨strain, -, hanswer⟩ := hanswers _ h
    have hfewer : totalAces context < 3 := Nat.lt_of_not_le haces
    have hstrain : strain ≠ .notrump := ne_notrump_of_totalAces_lt hanswer hfewer
    rw [if_neg haces, placeAfterAces_eq hanswer hfewer] at houtcome
    obtain rfl := Except.ok.inj (Prod.mk.inj (Option.some.inj houtcome)).2
    have hplace : ∀ calls ∈ afterAceAnswer, ∀ strain ∈ Strain.all,
        calls[4]? = some (.of 4 strain) → strain ≠ .notrump →
          mayCallAll calls [if Call.of 4 strain = .of 4 .spades then .of 5 .notrump
            else .of 4 .notrump] = true := by decide
    have hmem : strain ∈ Strain.all := by cases strain <;> decide
    exact mayCall_of_mayCallAll (hplace _ h strain hmem hanswer hstrain) dealer List.mem_cons_self

/-! ### The contract after the answer about kings -/

/-- The contract after the answer about kings: a slam with three aces, and else five notrump. -/
theorem placeAfterKings_cases (context : Context) :
    (3 ≤ totalAces context ∧ ∃ call ∈ [Call.of 6 .notrump, .of 7 .notrump],
      placeAfterKings context = .ok call) ∨
    (totalAces context < 3 ∧ placeAfterKings context = .ok (.of 5 .notrump)) := by
  by_cases haces : 3 ≤ totalAces context
  · refine .inl ⟨haces, _, ?_, placeAfterKings_eq haces⟩
    split <;> decide
  · have hfour : ¬ (4 ≤ totalAces context ∧ 3 ≤ totalKings context) := by omega
    refine .inr ⟨Nat.lt_of_not_le haces, ?_⟩
    simp only [placeAfterKings, hfour, haces, if_false]

theorem isPermitted_afterKings (h : context.auction.calls ∈ afterKingAnswer)
    (hnew : ¬ RepeatsAnswer context) : afterKings.IsPermitted dealer context := by
  intro name call houtcome
  rw [outcome?_afterKings h] at houtcome
  have hplaced := (Prod.mk.inj (Option.some.inj houtcome)).2
  rcases placeAfterKings_cases context with ⟨-, slam, hslam, hmade⟩ | ⟨haces, hmade⟩
  · obtain rfl := Except.ok.inj (hmade.symm.trans hplaced)
    have hall : ∀ calls ∈ afterKingAnswer,
        mayCallAll calls [.of 6 .notrump, .of 7 .notrump] = true := by decide
    exact mayCall_of_mayCallAll (hall _ h) dealer hslam
  · obtain rfl := Except.ok.inj (hmade.symm.trans hplaced)
    have hall : ∀ calls ∈ afterKingAnswer, calls[8]? ≠ some (.of 5 .notrump) →
        mayCallAll calls [.of 5 .notrump] = true := by decide
    have hanswer : context.auction.calls[8]? ≠ some (.of 5 .notrump) :=
      fun hfive ↦ hnew ⟨h, hfive, haces⟩
    exact mayCall_of_mayCallAll (hall _ h hanswer) dealer List.mem_cons_self

/-! ### All turns -/

/-- Unless the contract would repeat the answer about kings, all calls are permitted. -/
theorem isPermitted_tree (hnew : ¬ RepeatsAnswer context) : tree.IsPermitted dealer context := by
  apply Promises.numbered
  apply isPermitted_afterAny isPermitted_askingTurn
  apply isPermitted_afterAny isPermitted_acesTurn
  apply isPermitted_afterAny isPermitted_kingsTurn
  apply isPermitted_afterAny isPermitted_afterAces
  apply isPermitted_afterAny fun hturn ↦ isPermitted_afterKings hturn hnew
  exact Promises.stop

/-- If the contract repeats the answer about kings, it is five notrump. -/
theorem RepeatsAnswer.outcome?_tree (h : RepeatsAnswer context) :
    tree.outcome? context = some ("gerber-slam-signoff", .ok (.of 5 .notrump)) := by
  obtain ⟨hturn, -, haces⟩ := h
  rw [outcome?_afterKingAnswer hturn, outcome?_afterKings hturn]
  rcases placeAfterKings_cases context with ⟨hthree, -⟩ | ⟨-, hmade⟩
  · omega
  · rw [hmade]

/-- The calls of the convention are permitted to the seat whose turn it is, except for a contract
that repeats the answer about kings. -/
theorem mayCall_iff {name : String} {call : Call}
    (houtcome : tree.outcome? context = some (name, .ok call)) :
    mayCall dealer context.auction.calls call = true ↔ ¬ RepeatsAnswer context := by
  constructor
  · intro hpermitted hrepeats
    have hall : ∀ dealer ∈ Seat.all, ∀ calls ∈ afterKingAnswer,
        calls[8]? = some (.of 5 .notrump) → mayCall dealer calls (.of 5 .notrump) = false := by
      decide
    rw [hrepeats.outcome?_tree] at houtcome
    obtain rfl := Except.ok.inj (Prod.mk.inj (Option.some.inj houtcome)).2
    rw [hall dealer (Seat.mem_all dealer) _ hrepeats.1 hrepeats.2.1] at hpermitted
    cases hpermitted
  · intro hnew
    exact isPermitted_tree hnew name call houtcome

end BridgeBidding.Gerber
