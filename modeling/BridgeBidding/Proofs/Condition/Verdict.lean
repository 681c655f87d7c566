import BridgeBidding.Condition.Named
import BridgeBidding.Proofs.Success

/-!
# When verdicts pass

A verdict passes when the condition holds and can be described.  For all of several conditions that
is the same as every one of them passing (`Condition.passed_conjunction`); for any of several it is
so only if none fails (`Condition.passed_disjunction`), since an alternative that fails makes the
whole fail.

The questions that ask for whole numbers never fail, and pass as the hand and the auction say.
-/

set_option autoImplicit false
set_option relaxedAutoImplicit false

namespace BridgeBidding

open Success

namespace Condition

/-- What is true of every question, of the opposite of a condition of which it is true, and of a
combination of conditions of which it is true, is true of every condition. -/
@[elab_as_elim]
theorem induct {motive : Condition → Prop} (position : ∀ test, motive (position test))
    (holding : ∀ test, motive (holding test)) (custom : ∀ test, motive (custom test))
    (negation : ∀ condition, motive condition → motive (negation condition))
    (conjunction : ∀ parts, (∀ part ∈ parts, motive part) → motive (conjunction parts))
    (disjunction : ∀ parts, (∀ part ∈ parts, motive part) → motive (disjunction parts))
    (condition : Condition) : motive condition :=
  @Condition.rec motive (fun parts ↦ ∀ part ∈ parts, motive part) position holding custom negation
    conjunction disjunction (by simp) (fun _ _ hfirst hrest ↦ List.forall_mem_cons.mpr
      ⟨hfirst, hrest⟩) condition

variable {context : Context} {condition : Condition} {parts : List Condition}

/-- The condition can be answered and described. -/
def IsSettled (context : Context) (condition : Condition) : Prop :=
  (∃ answer, condition.holds context = .ok answer) ∧
    ∃ description, condition.describe context = .ok description

/-- A verdict passes as the condition is answered, if it can be described. -/
theorem passed_verdict {answer : Bool} {description : String}
    (hholds : condition.holds context = .ok answer)
    (hdescribe : condition.describe context = .ok description) :
    (condition.verdict context).passed = answer := by
  simp [verdict, hholds, hdescribe]

theorem passed_iff :
    (condition.verdict context).passed = true ↔
      condition.holds context = .ok true ∧
        ∃ description, condition.describe context = .ok description := by
  rw [verdict]
  cases hholds : condition.holds context with
  | error failure => simp
  | ok answer =>
    cases hdescribe : condition.describe context with
    | error failure => simp
    | ok description => simp

/-! ### Combinations -/

theorem holdAll_eq_true_iff :
    holdAll context parts = .ok true ↔ ∀ part ∈ parts, part.holds context = .ok true := by
  induction parts with
  | nil => simp [holdAll]
  | cons part rest ih =>
    rw [holdAll, List.forall_mem_cons, ← ih]
    cases part.holds context with
    | error failure => simp
    | ok answer => cases answer <;> simp

theorem exists_descriptions_iff :
    (∃ texts, descriptions context parts = .ok texts) ↔
      ∀ part ∈ parts, ∃ description, part.describe context = .ok description := by
  induction parts with
  | nil => simp [descriptions]
  | cons part rest ih =>
    rw [descriptions, List.forall_mem_cons, ← ih]
    cases part.describe context with
    | error failure => simp
    | ok description =>
      cases descriptions context rest with
      | error failure => simp
      | ok texts => simp

/-- All of several conditions pass exactly if every one of them does. -/
theorem passed_conjunction (context : Context) (parts : List Condition) :
    ((conjunction parts).verdict context).passed =
      parts.all fun part ↦ (part.verdict context).passed := by
  have hdescribed : (∃ description, (conjunction parts).describe context = .ok description) ↔
      ∃ texts, descriptions context parts = .ok texts := by
    rw [describe]
    cases descriptions context parts with
    | error failure => simp
    | ok texts => simp
  rw [Bool.eq_iff_iff, passed_iff, List.all_eq_true, holds, holdAll_eq_true_iff, hdescribed,
    exists_descriptions_iff]
  simp only [passed_iff]
  exact ⟨fun ⟨hholds, htexts⟩ part hpart ↦ ⟨hholds part hpart, htexts part hpart⟩,
    fun h ↦ ⟨fun part hpart ↦ (h part hpart).1, fun part hpart ↦ (h part hpart).2⟩⟩

theorem passed_both {first second : Condition} :
    ((conjunction [first, second]).verdict context).passed = true ↔
      (first.verdict context).passed = true ∧ (second.verdict context).passed = true := by
  rw [passed_conjunction, List.all_eq_true, List.forall_mem_cons, List.forall_mem_singleton]

/-- The parts that hold are found among settled parts, each with a description. -/
theorem answersDescribed_eq_ok (h : ∀ part ∈ parts, part.IsSettled context) :
    ∃ described, answersDescribed context parts = .ok described ∧
      answers context parts = .ok (described.map Prod.fst) ∧
      described.map Prod.fst = parts.map fun part ↦ (part.verdict context).passed := by
  induction parts with
  | nil => exact ⟨[], rfl, rfl, rfl⟩
  | cons part rest ih =>
    obtain ⟨⟨answer, hanswer⟩, description, hdescription⟩ := h part List.mem_cons_self
    obtain ⟨described, hdescribed, hanswers, hpassed⟩ :=
      ih fun other hother ↦ h other (List.mem_cons_of_mem _ hother)
    refine ⟨(answer, description) :: described, ?_, ?_, ?_⟩
    · simp [answersDescribed, hanswer, hdescription, hdescribed]
    · simp [answers, hanswer, hanswers]
    · simp [hpassed, passed_verdict hanswer hdescription]

/-- Any of several settled conditions pass exactly if one of them does. -/
theorem passed_disjunction (h : ∀ part ∈ parts, part.IsSettled context) :
    ((disjunction parts).verdict context).passed =
      parts.any fun part ↦ (part.verdict context).passed := by
  obtain ⟨described, hdescribed, hanswers, hpassed⟩ := answersDescribed_eq_ok h
  have hholds : (disjunction parts).holds context =
      .ok (parts.any fun part ↦ (part.verdict context).passed) := by
    rw [holds, hanswers, hpassed]
    simp [List.any_map]
  have hdescribe : ∃ description, (disjunction parts).describe context = .ok description := by
    rw [describe, hdescribed, ok_bind]
    cases described.find? Prod.fst with
    | none => exact ⟨_, rfl⟩
    | some first => exact ⟨_, rfl⟩
  obtain ⟨description, hdescription⟩ := hdescribe
  exact passed_verdict hholds hdescription

/-! ### Questions that never fail -/

/-- A question that is answered and described by one comparison passes as the comparison says. -/
theorem passed_compared {compared : Except Failure Bool} {answer : Bool} {met unmet : String}
    (hcompared : compared = .ok answer) (hholds : condition.holds context = compared)
    (hdescribe : condition.describe context = do
      if ← compared then return met else return unmet) :
    (condition.verdict context).passed = answer := by
  subst hcompared
  cases answer with
  | true => exact passed_verdict hholds hdescribe
  | false => exact passed_verdict hholds hdescribe

theorem isSettled_position (test : PositionTest) :
    (position test).IsSettled context :=
  ⟨⟨_, rfl⟩, _, rfl⟩

@[simp] theorem passed_position (test : PositionTest) :
    ((position test).verdict context).passed = test.holds context.toPosition := rfl

/-- Either of two questions about the auction. -/
@[simp] theorem passed_either_position (first second : PositionTest) :
    ((disjunction [position first, position second]).verdict context).passed =
      (first.holds context.toPosition || second.holds context.toPosition) := by
  have hsettled : ∀ part ∈ [position first, position second], part.IsSettled context := by
    simp [isSettled_position]
  simp [passed_disjunction hsettled]

theorem passed_auctionIs {calls : List Call} :
    ((auctionIs calls).verdict context).passed = true ↔ context.auction.calls = calls := by
  rw [auctionIs, passed_position, PositionTest.holds, Pattern.fits, decide_eq_true_iff]
  rfl

theorem passed_auctionIsAny {auctions : List (List Call)} :
    ((auctionIsAny auctions).verdict context).passed =
      auctions.contains context.auction.calls := by
  rw [auctionIsAny, passed_position, PositionTest.holds, Pattern.firstFit?, Bool.eq_iff_iff,
    List.find?_isSome, List.contains_iff_mem]
  constructor
  · rintro ⟨pattern, hpattern, hfits⟩
    obtain ⟨calls, hcalls, rfl⟩ := List.mem_map.mp hpattern
    have heq : context.auction.calls = calls := of_decide_eq_true hfits
    exact heq ▸ hcalls
  · intro hcalls
    exact ⟨.ofCalls _, List.mem_map_of_mem hcalls, decide_eq_true rfl⟩

@[simp] theorem passed_balanced :
    ((holding .balanced).verdict context).passed = context.evaluation.isBalanced := rfl

@[simp] theorem passed_noVoid :
    ((holding .noVoid).verdict context).passed =
      !context.evaluation.shape.lengths.contains 0 := rfl

@[simp] theorem passed_aceCount (count : Int) :
    ((holding (.aceCount count)).verdict context).passed =
      decide (count = context.hand.aces) := by
  rw [passed_verdict rfl rfl, Comparison.exactly_int]

@[simp] theorem passed_kingCount (count : Int) :
    ((holding (.kingCount count)).verdict context).passed =
      decide (count = context.hand.kings) := by
  rw [passed_verdict rfl rfl, Comparison.exactly_int]

@[simp] theorem passed_askForKings :
    ((holding .askForKings).verdict context).passed =
      (AceAsking.isAt AceAsking.afterAceAnswer context.auction &&
        decide (3 ≤ AceAsking.totalAces context)) := rfl

@[simp] theorem passed_answerHeard :
    ((holding .answerHeard).verdict context).passed =
      (AceAsking.isAt AceAsking.afterAceAnswer context.auction ||
        AceAsking.isAt AceAsking.afterKingAnswer context.auction) := rfl

@[simp] theorem passed_noFiveCardMajor :
    ((holding .noFiveCardMajor).verdict context).passed = true ↔
      context.evaluation.length .spades < 5 ∧ context.evaluation.length .hearts < 5 := by
  rw [passed_verdict rfl rfl, Bool.and_eq_true, decide_eq_true_iff, decide_eq_true_iff]
  rfl

@[simp] theorem passed_longerMajor (major : Major) :
    ((holding (.longerMajor major)).verdict context).passed = true ↔
      5 ≤ context.evaluation.length major.suit ∧
        context.evaluation.length major.other.suit ≤ context.evaluation.length major.suit := by
  rw [passed_verdict rfl rfl, Bool.and_eq_true, decide_eq_true_iff, decide_eq_true_iff]
  rfl

@[simp] theorem passed_pointsMin (minimum : Int) :
    ((pointsMin minimum).verdict context).passed = true ↔
      minimum ≤ context.evaluation.points := by
  have hpassed : ((pointsMin minimum).verdict context).passed =
      decide (minimum ≤ context.evaluation.points) :=
    passed_compared (Comparison.atLeast_int _ _) rfl rfl
  rw [hpassed, decide_eq_true_iff]

@[simp] theorem passed_pointsRange (minimum maximum : Int) :
    ((pointsRange minimum maximum).verdict context).passed = true ↔
      minimum ≤ context.evaluation.points ∧ context.evaluation.points ≤ maximum := by
  have hpassed : ((pointsRange minimum maximum).verdict context).passed =
      (decide (minimum ≤ context.evaluation.points) &&
        decide (context.evaluation.points ≤ maximum)) :=
    passed_compared (Comparison.within_int _ _ _) rfl rfl
  rw [hpassed, Bool.and_eq_true, decide_eq_true_iff, decide_eq_true_iff]

@[simp] theorem passed_suitMin (suit : Suit) (minimum : Int) :
    ((suitMin suit minimum).verdict context).passed = true ↔
      minimum ≤ context.evaluation.length suit := by
  have hpassed : ((suitMin suit minimum).verdict context).passed =
      decide (minimum ≤ context.evaluation.length suit) :=
    passed_compared (Comparison.atLeast_int _ _) rfl rfl
  rw [hpassed, decide_eq_true_iff]

/-- The search for a long suit finds one exactly if there is one. -/
theorem exists_firstLong?_int (context : Context) (minimum : Int) (suits : List Suit) :
    ∃ suit?, HandTest.firstLong? context (.int minimum) suits = .ok suit? ∧
      (suit?.isSome = true ↔ ∃ suit ∈ suits, minimum ≤ context.evaluation.length suit) := by
  induction suits with
  | nil => exact ⟨none, rfl, by simp⟩
  | cons suit rest ih =>
    rw [HandTest.firstLong?, Comparison.atLeast_int, ok_bind]
    by_cases hlong : minimum ≤ context.length suit
    · rw [decide_eq_true hlong, if_pos rfl]
      exact ⟨some suit, rfl, iff_of_true rfl ⟨suit, List.mem_cons_self, hlong⟩⟩
    · rw [decide_eq_false hlong, if_neg Bool.false_ne_true]
      obtain ⟨suit?, hsuit, hsome⟩ := ih
      refine ⟨suit?, hsuit, hsome.trans ?_⟩
      simp only [List.mem_cons, exists_eq_or_imp]
      exact (or_iff_right hlong).symm

@[simp] theorem passed_anySuitMin (suits : List Suit) (minimum : Int) :
    ((anySuitMin suits minimum).verdict context).passed = true ↔
      ∃ suit ∈ suits, minimum ≤ context.evaluation.length suit := by
  obtain ⟨suit?, hsuit, hsome⟩ := exists_firstLong?_int context minimum suits
  have hholds : (anySuitMin suits minimum).holds context = .ok suit?.isSome := by
    rw [anySuitMin, holds, HandTest.holds, hsuit]
    rfl
  have hdescribe : ∃ description,
      (anySuitMin suits minimum).describe context = .ok description := by
    rw [anySuitMin, describe, HandTest.describe, HandTest.describeAnySuit, hsuit, ok_bind]
    cases suit? with
    | none => exact ⟨_, rfl⟩
    | some suit => exact ⟨_, rfl⟩
  obtain ⟨description, hdescription⟩ := hdescribe
  rw [passed_verdict hholds hdescription, hsome]

@[simp] theorem passed_suitBelow (suit : Suit) (threshold : Int) :
    ((holding (.suitBelow suit threshold)).verdict context).passed = true ↔
      context.evaluation.length suit < threshold := by
  have hpassed : ((holding (.suitBelow suit threshold)).verdict context).passed =
      decide (context.evaluation.length suit < threshold) :=
    passed_compared (Comparison.below_int _ _) rfl rfl
  rw [hpassed, decide_eq_true_iff]

/-- A question about the length of a suit that the auction picks, if it picks one. -/
theorem passed_fits {suit? : Option Suit} {minimum : Int} {missing : String} {test : HandTest}
    (hholds : test.holds context = HandTest.fits context suit? (.int minimum))
    (hdescribe : test.describe context =
      HandTest.describeFit context suit? (.int minimum) missing) :
    ((holding test).verdict context).passed = true ↔
      ∃ suit, suit? = some suit ∧ minimum ≤ context.evaluation.length suit := by
  cases suit? with
  | none =>
    have hfails : (holding test).holds context = .ok false := hholds
    have hmissing : (holding test).describe context = .ok missing := hdescribe
    simp [passed_verdict hfails hmissing]
  | some suit =>
    have hpassed : ((holding test).verdict context).passed =
        decide (minimum ≤ context.evaluation.length suit) :=
      passed_compared (Comparison.atLeast_int _ _) hholds hdescribe
    simp [hpassed]

@[simp] theorem passed_partnerSuitSupport (minimum : Int) :
    ((holding (.partnerSuitSupport minimum)).verdict context).passed = true ↔
      ∃ suit, HandTest.partnerSuit? context = some suit ∧
        minimum ≤ context.evaluation.length suit :=
  passed_fits rfl rfl

@[simp] theorem passed_partnerMajorSupport (minimum : Int) :
    ((holding (.partnerMajorSupport minimum)).verdict context).passed = true ↔
      ∃ suit, HandTest.partnerMajor? context = some suit ∧
        minimum ≤ context.evaluation.length suit :=
  passed_fits rfl rfl

@[simp] theorem passed_openedSuitMin (minimum : Int) :
    ((holding (.openedSuitMin minimum)).verdict context).passed = true ↔
      ∃ suit, HandTest.ownSuit? context = some suit ∧
        minimum ≤ context.evaluation.length suit :=
  passed_fits rfl rfl

end Condition

end BridgeBidding
