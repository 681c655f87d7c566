import BridgeBidding.Convention.Gerber
import BridgeBidding.Proofs.Condition.Verdict
import BridgeBidding.Proofs.Tree.Outcome

/-!
# What is called when asking for aces and kings

The five kinds of auctions in which the convention has something to call differ in their length, so
that in each of them the tree comes to the turn that belongs to it.  An answer tells the number held
by its strain (`Gerber.answerStrain`), and a listener who holds some of the four cards, or knows
that the partnership does, hears the number that was told (`Gerber.shown_answerStrain`).
-/

set_option autoImplicit false
set_option relaxedAutoImplicit false

namespace BridgeBidding.Gerber

open RuleTree AceAsking

variable {context : Context}

/-! ### Turns -/

/-- The opener's turn to tell aces. -/
def acesTurn : RuleTree :=
  answeringTurn "gerber-response" "ace" .aceCount
    (.of 4 .notrump) (.of 4 .spades) (.of 4 .hearts) (.of 4 .diamonds)

/-- The opener's turn to tell kings. -/
def kingsTurn : RuleTree :=
  answeringTurn "gerber-king-response" "king" .kingCount
    (.of 5 .notrump) (.of 5 .spades) (.of 5 .hearts) (.of 5 .diamonds)

/-- The tree looks for the auction among those that belong to each turn. -/
theorem outcome?_tree (context : Context) :
    tree.outcome? context =
      if afterOpening.contains context.auction.calls then askingTurn.outcome? context
      else if afterAceAsk.contains context.auction.calls then acesTurn.outcome? context
      else if afterKingAsk.contains context.auction.calls then kingsTurn.outcome? context
      else if afterAceAnswer.contains context.auction.calls then afterAces.outcome? context
      else if afterKingAnswer.contains context.auction.calls then afterKings.outcome? context
      else none := by
  rw [tree, outcome?_numbered]
  simp only [outcome?_ask, Condition.passed_auctionIsAny, outcome?_stop]
  rfl

theorem outcome?_afterOpening (h : context.auction.calls ∈ afterOpening) :
    tree.outcome? context = askingTurn.outcome? context := by
  rw [outcome?_tree, if_pos (List.contains_iff_mem.mpr h)]

theorem outcome?_afterAceAsk (h : context.auction.calls ∈ afterAceAsk) :
    tree.outcome? context = acesTurn.outcome? context := by
  have hother : ∀ calls ∈ afterAceAsk, ¬ afterOpening.contains calls = true := by decide
  rw [outcome?_tree, if_neg (hother _ h), if_pos (List.contains_iff_mem.mpr h)]

theorem outcome?_afterKingAsk (h : context.auction.calls ∈ afterKingAsk) :
    tree.outcome? context = kingsTurn.outcome? context := by
  have hother : ∀ calls ∈ afterKingAsk, ¬ afterOpening.contains calls = true ∧
      ¬ afterAceAsk.contains calls = true := by decide
  obtain ⟨hopening, haces⟩ := hother _ h
  rw [outcome?_tree, if_neg hopening, if_neg haces, if_pos (List.contains_iff_mem.mpr h)]

theorem outcome?_afterAceAnswer (h : context.auction.calls ∈ afterAceAnswer) :
    tree.outcome? context = afterAces.outcome? context := by
  have hother : ∀ calls ∈ afterAceAnswer, ¬ afterOpening.contains calls = true ∧
      ¬ afterAceAsk.contains calls = true ∧ ¬ afterKingAsk.contains calls = true := by decide
  obtain ⟨hopening, haces, hkings⟩ := hother _ h
  rw [outcome?_tree, if_neg hopening, if_neg haces, if_neg hkings,
    if_pos (List.contains_iff_mem.mpr h)]

theorem outcome?_afterKingAnswer (h : context.auction.calls ∈ afterKingAnswer) :
    tree.outcome? context = afterKings.outcome? context := by
  have hother : ∀ calls ∈ afterKingAnswer, ¬ afterOpening.contains calls = true ∧
      ¬ afterAceAsk.contains calls = true ∧ ¬ afterKingAsk.contains calls = true ∧
      ¬ afterAceAnswer.contains calls = true := by decide
  obtain ⟨hopening, haces, hkings, hanswer⟩ := hother _ h
  rw [outcome?_tree, if_neg hopening, if_neg haces, if_neg hkings, if_neg hanswer,
    if_pos (List.contains_iff_mem.mpr h)]

/-- The auctions in which the convention has a turn. -/
def turns : List (List Call) :=
  afterOpening ++ afterAceAsk ++ afterKingAsk ++ afterAceAnswer ++ afterKingAnswer

theorem outcome?_eq_none (h : context.auction.calls ∉ turns) : tree.outcome? context = none := by
  simp only [turns, List.mem_append, not_or] at h
  simp only [← List.contains_iff_mem] at h
  obtain ⟨⟨⟨⟨hopening, haces⟩, hkings⟩, haceAnswer⟩, hkingAnswer⟩ := h
  rw [outcome?_tree, if_neg hopening, if_neg haces, if_neg hkings, if_neg haceAnswer,
    if_neg hkingAnswer]

/-! ### The responder asks -/

theorem outcome?_askingTurn (hpoints : 16 ≤ context.evaluation.points)
    (hlengths : context.evaluation.shape.lengths.contains 0 = false) :
    askingTurn.outcome? context = some ("gerber-ask", .ok aceAsk) := by
  have hpassed : ((Condition.conjunction [.pointsMin 16, .holding .noVoid]).verdict
      context).passed = true := by
    rw [Condition.passed_both, Condition.passed_pointsMin, Condition.passed_noVoid, hlengths]
    exact ⟨hpoints, rfl⟩
  rw [askingTurn, outcome?_ask, if_pos hpassed]
  rfl

/-! ### The opener answers -/

/-- The strain that tells how many cards are held. -/
def answerStrain : Nat → Strain
  | 1 => .hearts
  | 2 => .spades
  | 3 => .notrump
  | _ => .diamonds

theorem answerStrain_mem (held : Nat) : answerStrain held ∈ answerStrains := by
  rcases held with _ | _ | _ | _ | held <;> simp [answerStrain, answerStrains]

theorem answerStrain_eq_spades_iff {held : Nat} : answerStrain held = .spades ↔ held = 2 := by
  rcases held with _ | _ | _ | _ | held <;> simp [answerStrain]

/-- The opener's call tells the number held. -/
theorem exists_outcome?_answeringTurn {start noun : String} {count : Value → HandTest} {held : Nat}
    (level : Level)
    (hcount : ∀ number : Int, ((Condition.holding (count number)).verdict context).passed =
      decide (number = held)) :
    ∃ name, (answeringTurn start noun count (.of level .notrump) (.of level .spades)
      (.of level .hearts) (.of level .diamonds)).outcome? context =
        some (name, .ok (.of level (answerStrain held))) := by
  have hthree : ((Condition.holding (count 3)).verdict context).passed = decide (held = 3) := by
    rw [decide_eq_decide.mpr (by omega : held = 3 ↔ (3 : Int) = held)]
    exact hcount 3
  have htwo : ((Condition.holding (count 2)).verdict context).passed = decide (held = 2) := by
    rw [decide_eq_decide.mpr (by omega : held = 2 ↔ (2 : Int) = held)]
    exact hcount 2
  have hone : ((Condition.holding (count 1)).verdict context).passed = decide (held = 1) := by
    rw [decide_eq_decide.mpr (by omega : held = 1 ↔ (1 : Int) = held)]
    exact hcount 1
  simp only [answeringTurn, outcome?_ask, outcome?_say, hthree, htwo, hone, decide_eq_true_iff]
  rcases held with _ | _ | _ | _ | held <;> simp [answerStrain]

theorem exists_outcome?_acesTurn (context : Context) :
    ∃ name, acesTurn.outcome? context =
      some (name, .ok (.of 4 (answerStrain context.hand.aces))) :=
  exists_outcome?_answeringTurn 4 Condition.passed_aceCount

theorem exists_outcome?_kingsTurn (context : Context) :
    ∃ name, kingsTurn.outcome? context =
      some (name, .ok (.of 5 (answerStrain context.hand.kings))) :=
  exists_outcome?_answeringTurn 5 Condition.passed_kingCount

/-- The answer is understood: of four cards the partnership holds some, so none and four are told
apart by whether the listener has any. -/
theorem shown_answerStrain {level : Level} {held own : Nat} (htotal : held + own ≤ 4)
    (hsome : 0 < held + own) : shown ⟨level, answerStrain held⟩ own = held := by
  rcases held with _ | _ | _ | _ | _ | held
  · have hown : own ≠ 0 := by omega
    simp [shown, answerStrain, hown]
  · rfl
  · rfl
  · rfl
  · have hown : own = 0 := by omega
    simp [shown, answerStrain, hown]
  · omega

/-! ### The responder places the contract -/

/-- With three aces the responder asks for kings, and else places the contract. -/
theorem outcome?_afterAces (h : context.auction.calls ∈ afterAceAnswer) :
    afterAces.outcome? context =
      if 3 ≤ totalAces context then some ("gerber-king-ask", .ok kingAsk)
      else some ("gerber-signoff", placeAfterAces context) := by
  have hat : isAt afterAceAnswer context.auction = true := List.contains_iff_mem.mpr h
  simp only [afterAces, outcome?_ask, Condition.passed_askForKings, Condition.passed_answerHeard,
    hat, Bool.true_and, Bool.true_or, if_true, decide_eq_true_iff]
  rfl

theorem outcome?_afterKings (h : context.auction.calls ∈ afterKingAnswer) :
    afterKings.outcome? context = some ("gerber-slam-signoff", placeAfterKings context) := by
  have hat : isAt afterKingAnswer context.auction = true := List.contains_iff_mem.mpr h
  simp only [afterKings, outcome?_ask, Condition.passed_answerHeard, hat, Bool.or_true, if_true]
  rfl

/-- With fewer than three aces the contract is four notrump, or five over an answer of four
spades. -/
theorem placeAfterAces_eq {answer : Call} (hanswer : context.auction.calls[4]? = some answer)
    (haces : totalAces context < 3) :
    placeAfterAces context =
      .ok (if answer = .of 4 .spades then .of 5 .notrump else .of 4 .notrump) := by
  have hfour : ¬ totalAces context = 4 := by omega
  have hthree : ¬ 3 ≤ totalAces context := by omega
  simp only [placeAfterAces, hfour, hthree, if_false, hanswer]

/-- With three aces or more the contract is a slam. -/
theorem placeAfterKings_eq (haces : 3 ≤ totalAces context) :
    placeAfterKings context =
      .ok (if 4 ≤ totalAces context ∧ 3 ≤ totalKings context then .of 7 .notrump
        else .of 6 .notrump) := by
  simp only [placeAfterKings, haces, if_true]
  split <;> rfl

end BridgeBidding.Gerber
