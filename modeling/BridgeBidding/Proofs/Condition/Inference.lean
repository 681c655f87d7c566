import BridgeBidding.Convention.Registry
import BridgeBidding.Hand.Sample
import BridgeBidding.Proofs.Tree.Flattening

/-!
# What inferences say

An inference is true of a hand or not (`Inference.HoldsOf`).  A single whole bound and a balanced or
unbalanced shape have an inverse, which is true of exactly the other hands
(`Inference.IsInvertible.exists_inverse`).

Most questions ask exactly what their inference says, so that the opposite of the question says the
inverse rightly.  Two ask for more: a hand without a shortage need not be balanced, and a major that
is not both long and the longer one may still be long.  The opposites of these two say the inverse
as well, and so more than they ask (`Condition.Overstates`).  Everything else that conditions say
about hands is true (`Condition.inference_informs`).
-/

set_option autoImplicit false
set_option relaxedAutoImplicit false

namespace BridgeBidding

open Success

theorem Comparison.within_eq_true_iff {held : Int} {minimum maximum : Value} :
    within held minimum maximum = .ok true ↔
      atLeast held minimum = .ok true ∧ atMost held maximum = .ok true := by
  rw [within, atLeast]
  cases minimum.amount? with
  | none => simp
  | some amount => cases hreached : amount.isAtMost held <;> simp [hreached]

/-! ### Inferences that are true of a hand -/

namespace Inference

variable {evaluation : Evaluation} {hand : Hand} {inference : Inference}

/-- The parameter is there and compares as it should. -/
def Meets (inference : Inference) (name : String) (compare : Value → Except Failure Bool) : Prop :=
  ∃ value, inference.parameter name = .ok value ∧ compare value = .ok true

/-- The length of the suit that the inference names compares with the parameter as it should. -/
def MeetsLength (evaluation : Evaluation) (inference : Inference) (name : String)
    (compare : Int → Value → Except Failure Bool) : Prop :=
  ∃ letter suit, inference.parameter "suit" = .ok letter ∧ Suit.ofValue? letter = some suit ∧
    inference.Meets name (compare (evaluation.length suit))

/-- The inference is true of a hand with the evaluation. -/
def HoldsIn (evaluation : Evaluation) (inference : Inference) : Prop :=
  if inference.kind = "hcp-min" then
    inference.Meets "min" (Comparison.atLeast evaluation.points)
  else if inference.kind = "hcp-max" then
    inference.Meets "max" (Comparison.atMost evaluation.points)
  else if inference.kind = "hcp-range" then
    inference.Meets "min" (Comparison.atLeast evaluation.points) ∧
      inference.Meets "max" (Comparison.atMost evaluation.points)
  else if inference.kind = "suit-min" then
    inference.MeetsLength evaluation "min" Comparison.atLeast
  else if inference.kind = "suit-max" then
    inference.MeetsLength evaluation "max" Comparison.atMost
  else if inference.kind = "balanced" then
    evaluation.isBalanced = inference.saysBalanced
  else if inference.kind = "two-suited" then
    inference.Meets "min_long"
        (Comparison.atLeast (evaluation.shape.length evaluation.shape.longest)) ∧
      inference.Meets "min_short"
        (Comparison.atLeast (evaluation.shape.length evaluation.shape.second))
  else
    False

/-- The inference is true of the hand; the numbers of aces and kings are counted in the hand, and
everything else is seen in its evaluation. -/
def HoldsOf (hand : Hand) (inference : Inference) : Prop :=
  if inference.kind = "ace-count" then
    inference.Meets "count" fun count ↦ .ok (Comparison.exactly hand.aces count)
  else if inference.kind = "king-count" then
    inference.Meets "count" fun count ↦ .ok (Comparison.exactly hand.kings count)
  else
    inference.HoldsIn hand.evaluation

theorem holdsOf_iff_holdsIn (hace : inference.kind ≠ "ace-count")
    (hking : inference.kind ≠ "king-count") :
    inference.HoldsOf hand ↔ inference.HoldsIn hand.evaluation := by
  rw [HoldsOf, if_neg hace, if_neg hking]

theorem holdsIn_pointsMin {minimum : Value} :
    (pointsMin minimum).HoldsIn evaluation ↔
      Comparison.atLeast evaluation.points minimum = .ok true := by
  simp [HoldsIn, pointsMin, Meets, parameter, Fields.get?]

theorem holdsIn_pointsMax {maximum : Value} :
    (pointsMax maximum).HoldsIn evaluation ↔
      Comparison.atMost evaluation.points maximum = .ok true := by
  simp [HoldsIn, pointsMax, Meets, parameter, Fields.get?]

theorem holdsIn_pointsRange {minimum maximum : Value} :
    (pointsRange minimum maximum).HoldsIn evaluation ↔
      Comparison.atLeast evaluation.points minimum = .ok true ∧
        Comparison.atMost evaluation.points maximum = .ok true := by
  simp [HoldsIn, pointsRange, Meets, parameter, Fields.get?]

theorem ofValue?_parameter (suit : Suit) : Suit.ofValue? suit.parameter = some suit := by
  cases suit <;> decide

theorem holdsIn_suitMin {suit : Suit} {minimum : Value} :
    (suitMin suit.parameter minimum).HoldsIn evaluation ↔
      Comparison.atLeast (evaluation.length suit) minimum = .ok true := by
  simp [HoldsIn, suitMin, MeetsLength, Meets, parameter, Fields.get?, ofValue?_parameter]

theorem holdsIn_suitMax {suit : Suit} {maximum : Value} :
    (suitMax suit.parameter maximum).HoldsIn evaluation ↔
      Comparison.atMost (evaluation.length suit) maximum = .ok true := by
  simp [HoldsIn, suitMax, MeetsLength, Meets, parameter, Fields.get?, ofValue?_parameter]

theorem holdsIn_balanced {truth : Bool} :
    (balanced truth).HoldsIn evaluation ↔ evaluation.isBalanced = truth := by
  cases truth <;> simp [HoldsIn, balanced, saysBalanced, Fields.get?, Value.isVoid]

theorem holdsIn_twoSuited {longest second : Value} :
    (twoSuited longest second).HoldsIn evaluation ↔
      Comparison.atLeast (evaluation.shape.length evaluation.shape.longest) longest = .ok true ∧
        Comparison.atLeast (evaluation.shape.length evaluation.shape.second) second =
          .ok true := by
  simp [HoldsIn, twoSuited, Meets, parameter, Fields.get?]

theorem holdsOf_aceCount {count : Value} :
    (aceCount count).HoldsOf hand ↔ Comparison.exactly hand.aces count = true := by
  simp [HoldsOf, aceCount, Meets, parameter, Fields.get?]

theorem holdsOf_kingCount {count : Value} :
    (kingCount count).HoldsOf hand ↔ Comparison.exactly hand.kings count = true := by
  simp [HoldsOf, kingCount, Meets, parameter, Fields.get?]

/-! ### Inferences that have an inverse -/

/-- A single whole bound, or a shape that is balanced or not. -/
inductive IsInvertible : Inference → Prop
  | pointsMin {bound : Value} {number : Int} (hwhole : bound.amount? = some (.whole number)) :
    IsInvertible (pointsMin bound)
  | pointsMax {bound : Value} {number : Int} (hwhole : bound.amount? = some (.whole number)) :
    IsInvertible (pointsMax bound)
  | suitMin (suit : Suit) {bound : Value} {number : Int}
      (hwhole : bound.amount? = some (.whole number)) :
    IsInvertible (suitMin suit.parameter bound)
  | suitMax (suit : Suit) {bound : Value} {number : Int}
      (hwhole : bound.amount? = some (.whole number)) :
    IsInvertible (suitMax suit.parameter bound)
  | balanced (truth : Bool) : IsInvertible (balanced truth)

/-- What is held is below a whole bound exactly if it is at most one less. -/
theorem atMost_iff_not_atLeast {held number : Int} {bound : Value}
    (hwhole : bound.amount? = some (.whole number)) :
    Comparison.atMost held (.int (number + -1)) = .ok true ↔
      ¬ Comparison.atLeast held bound = .ok true := by
  simp only [Comparison.atMost_int, Comparison.atLeast, hwhole, Amount.isAtMost, Except.ok.injEq,
    decide_eq_true_iff]
  omega

/-- What is held is above a whole bound exactly if it is at least one more. -/
theorem atLeast_iff_not_atMost {held number : Int} {bound : Value}
    (hwhole : bound.amount? = some (.whole number)) :
    Comparison.atLeast held (.int (number + 1)) = .ok true ↔
      ¬ Comparison.atMost held bound = .ok true := by
  simp only [Comparison.atLeast_int, Comparison.atMost, hwhole, Amount.isAtLeast,
    Except.ok.injEq, decide_eq_true_iff]
  omega

/-- The inverse is true of exactly the other hands, and has an inverse in turn. -/
theorem IsInvertible.exists_inverse (h : inference.IsInvertible) :
    ∃ other, inference.inverse = .ok (some other) ∧ other.IsInvertible ∧
      ∀ evaluation, other.HoldsIn evaluation ↔ ¬ inference.HoldsIn evaluation := by
  cases h with
  | @pointsMin bound number hwhole =>
    refine ⟨.pointsMax (.int (number + -1)), ?_, .pointsMax rfl, fun evaluation ↦ ?_⟩
    · simp [inverse, Inference.pointsMin, shifted, parameter, Fields.get?, Value.plus?, hwhole,
        Amount.plus]
    · rw [holdsIn_pointsMax, holdsIn_pointsMin, atMost_iff_not_atLeast hwhole]
  | @pointsMax bound number hwhole =>
    refine ⟨.pointsMin (.int (number + 1)), ?_, .pointsMin rfl, fun evaluation ↦ ?_⟩
    · simp [inverse, Inference.pointsMax, shifted, parameter, Fields.get?, Value.plus?, hwhole,
        Amount.plus]
    · rw [holdsIn_pointsMin, holdsIn_pointsMax, atLeast_iff_not_atMost hwhole]
  | @suitMin suit bound number hwhole =>
    refine ⟨.suitMax suit.parameter (.int (number + -1)), ?_, .suitMax suit rfl,
      fun evaluation ↦ ?_⟩
    · simp [inverse, Inference.suitMin, shifted, parameter, Fields.get?, Value.plus?, hwhole,
        Amount.plus]
    · rw [holdsIn_suitMax, holdsIn_suitMin, atMost_iff_not_atLeast hwhole]
  | @suitMax suit bound number hwhole =>
    refine ⟨.suitMin suit.parameter (.int (number + 1)), ?_, .suitMin suit rfl,
      fun evaluation ↦ ?_⟩
    · simp [inverse, Inference.suitMax, shifted, parameter, Fields.get?, Value.plus?, hwhole,
        Amount.plus]
    · rw [holdsIn_suitMin, holdsIn_suitMax, atLeast_iff_not_atMost hwhole]
  | balanced truth =>
    refine ⟨.balanced !truth, ?_, .balanced _, fun evaluation ↦ ?_⟩
    · cases truth <;> rfl
    · rw [holdsIn_balanced, holdsIn_balanced]
      cases truth <;> simp

/-- What has an inverse is seen in the evaluation of the hand. -/
theorem IsInvertible.holdsOf_iff (h : inference.IsInvertible) :
    inference.HoldsOf hand ↔ inference.HoldsIn hand.evaluation := by
  cases h <;> exact holdsOf_iff_holdsIn (of_decide_eq_true rfl) (of_decide_eq_true rfl)

end Inference

/-! ### Conditions and what they say -/

/-- The value is a whole number, or a truth value, which counts as one. -/
def Value.isWhole : Value → Bool
  | int _ | bool _ => true
  | _ => false

theorem Value.exists_whole {bound : Value} (h : bound.isWhole = true) :
    ∃ number, bound.amount? = some (.whole number) := by
  cases bound with
  | int number => exact ⟨number, rfl⟩
  | bool truth => exact ⟨_, rfl⟩
  | _ => cases h

/-- A bound of which the inverse is one more or one less is whole. -/
def HandTest.isWhole : HandTest → Bool
  | pointsMin bound | pointsMax bound | suitMin _ bound | suitBelow _ bound => bound.isWhole
  | _ => true

namespace Condition

/-- The condition is not a question written out by hand, does not ask for a bound that is not whole,
and is not the opposite of such a condition. -/
def isStandard : Condition → Bool
  | holding test => test.isWhole
  | custom _ => false
  | negation condition => condition.isStandard
  | _ => true

/-- The condition, or its opposite if it is `opposed`, says more about the hand than it asks. -/
def Overstates (hand : Hand) : Condition → Bool → Prop
  | negation condition, opposed => condition.Overstates hand !opposed
  | holding .shortage, true => hand.isBalanced = false
  | holding (.longerMajor major), true => 5 ≤ hand.length major.suit
  | _, _ => False

/-- What the inference says about the hand, given the answer to the condition: an inference with an
inverse is true when the answer is positive, and false when it is negative, unless it overstates;
any other is true when the answer is positive. -/
def Agrees (hand : Hand) (condition : Condition) (answer : Bool) (inference : Inference) : Prop :=
  (inference.IsInvertible ∧
      (inference.HoldsIn hand.evaluation ↔
        if answer = true then ¬ condition.Overstates hand false
        else condition.Overstates hand true)) ∨
    (inference.inverse = .ok none ∧ ¬ condition.Overstates hand false ∧
      (answer = true → inference.HoldsOf hand))

variable {context : Context} {condition : Condition} {answer : Bool} {inference : Inference}

/-- An inference with an inverse agrees when it compares what the answer compares and there is
nothing to overstate. -/
theorem Agrees.of_compared {compared : Except Failure Bool}
    (hevaluation : context.evaluation = context.hand.evaluation)
    (hinvertible : inference.IsInvertible) (hanswer : compared = .ok answer)
    (hholds : inference.HoldsIn context.evaluation ↔ compared = .ok true)
    (hover : ∀ opposed, ¬ condition.Overstates context.hand opposed) :
    condition.Agrees context.hand answer inference := by
  refine Or.inl ⟨hinvertible, ?_⟩
  rw [← hevaluation, hholds, hanswer]
  cases answer <;> simp [hover]

/-- An inference without an inverse agrees when a positive answer makes it true. -/
theorem Agrees.of_imp (hinverse : inference.inverse = .ok none)
    (hholds : answer = true → inference.HoldsOf context.hand)
    (hover : ¬ condition.Overstates context.hand false) :
    condition.Agrees context.hand answer inference :=
  Or.inr ⟨hinverse, hover, hholds⟩

theorem isTwoSuited_eq_true_iff {shape : Shape} {longest second : Value} :
    HandTest.isTwoSuited shape longest second = .ok true ↔
      Comparison.atLeast (shape.length shape.longest) longest = .ok true ∧
        Comparison.atLeast (shape.length shape.second) second = .ok true := by
  rw [HandTest.isTwoSuited]
  cases Comparison.atLeast (shape.length shape.longest) longest with
  | error failure => simp
  | ok long => cases long <;> simp

theorem not_isBalanced_of_shortage {evaluation : Evaluation}
    (h : (evaluation.shape.lengths.any fun length ↦ decide (length ≤ 1)) = true) :
    evaluation.isBalanced = false := by
  obtain ⟨length, hlength, hshort⟩ := List.any_eq_true.mp h
  rw [Evaluation.isBalanced, balancedLengths, Bool.and_eq_false_iff]
  refine Or.inl (List.all_eq_false.mpr ⟨length, hlength, ?_⟩)
  have hle : length ≤ 1 := of_decide_eq_true hshort
  simp only [decide_eq_true_iff]
  omega

/-- The inference of a question agrees with its answer. -/
theorem agrees_holding {test : HandTest}
    (hevaluation : context.evaluation = context.hand.evaluation)
    (hwhole : test.isWhole = true) (hanswer : test.holds context = .ok answer)
    (hinference : test.inference? = some inference) :
    (holding test).Agrees context.hand answer inference := by
  cases test with
  | pointsMin minimum =>
    obtain ⟨number, hnumber⟩ := Value.exists_whole hwhole
    obtain rfl := Option.some.inj hinference
    exact .of_compared hevaluation (.pointsMin hnumber) hanswer Inference.holdsIn_pointsMin
      (by simp [Overstates])
  | pointsMax maximum =>
    obtain ⟨number, hnumber⟩ := Value.exists_whole hwhole
    obtain rfl := Option.some.inj hinference
    exact .of_compared hevaluation (.pointsMax hnumber) hanswer Inference.holdsIn_pointsMax
      (by simp [Overstates])
  | suitMin suit minimum =>
    obtain ⟨number, hnumber⟩ := Value.exists_whole hwhole
    obtain rfl := Option.some.inj hinference
    exact .of_compared hevaluation (.suitMin suit hnumber) hanswer Inference.holdsIn_suitMin
      (by simp [Overstates])
  | suitBelow suit threshold =>
    obtain ⟨number, hnumber⟩ := Value.exists_whole hwhole
    have hbelow : (holding (.suitBelow suit threshold)).holds context =
        .ok (decide (context.evaluation.length suit < number)) := by
      rw [holds, HandTest.holds, Comparison.below, hnumber]
      rfl
    have hshifted : threshold.plus? (-1) = some (.int (number + -1)) := by
      simp [Value.plus?, hnumber, Amount.plus]
    obtain rfl : Inference.suitMax suit.parameter (.int (number + -1)) = inference := by
      simpa [HandTest.inference?, hshifted] using hinference
    refine .of_compared hevaluation (.suitMax suit rfl) hanswer ?_ (by simp [Overstates])
    rw [Inference.holdsIn_suitMax, ← holds, hbelow, Comparison.atMost_int]
    simp only [Except.ok.injEq, decide_eq_true_iff]
    omega
  | balanced =>
    obtain rfl := Option.some.inj hinference
    refine .of_compared hevaluation (.balanced true) hanswer ?_ (by simp [Overstates])
    rw [Inference.holdsIn_balanced, HandTest.holds, Except.ok.injEq]
  | shortage =>
    obtain rfl := Option.some.inj hinference
    obtain rfl := Except.ok.inj hanswer
    refine Or.inl ⟨.balanced false, ?_⟩
    rw [Inference.holdsIn_balanced, ← hevaluation]
    split
    next hshort => simp [Overstates, not_isBalanced_of_shortage hshort]
    next => rw [hevaluation]; rfl
  | longerMajor major =>
    obtain rfl := Option.some.inj hinference
    obtain rfl := Except.ok.inj hanswer
    have hlength : context.length major.suit = context.hand.length major.suit := by
      rw [Context.length, hevaluation]
      cases major <;> rfl
    have hholds : (Inference.suitMin major.suit.parameter 5).HoldsIn context.hand.evaluation ↔
        5 ≤ context.length major.suit := by
      have hfive := Comparison.atLeast_int (context.length major.suit) 5
      rw [Inference.holdsIn_suitMin, ← hevaluation]
      exact (Eq.congr_left hfive).trans (by rw [Except.ok.injEq, decide_eq_true_iff])
    refine Or.inl ⟨.suitMin major.suit rfl, ?_⟩
    rw [hholds]
    split
    next hlonger =>
      have hfive := (Bool.and_eq_true_iff.mp hlonger).1
      simp [Overstates, of_decide_eq_true hfive]
    next =>
      change 5 ≤ context.length major.suit ↔ 5 ≤ context.hand.length major.suit
      rw [hlength]
      omega
  | pointsRange minimum maximum =>
    obtain rfl := Option.some.inj hinference
    refine .of_imp rfl (fun htrue ↦ ?_) (by simp [Overstates])
    have hrange : (Inference.pointsRange minimum maximum).HoldsIn context.evaluation :=
      Inference.holdsIn_pointsRange.mpr (Comparison.within_eq_true_iff.mp (htrue ▸ hanswer))
    exact (Inference.holdsOf_iff_holdsIn (by simp [Inference.pointsRange])
      (by simp [Inference.pointsRange])).mpr (hevaluation ▸ hrange)
  | aceCount count =>
    obtain rfl := Option.some.inj hinference
    obtain rfl := Except.ok.inj hanswer
    exact .of_imp rfl Inference.holdsOf_aceCount.mpr (by simp [Overstates])
  | kingCount count =>
    obtain rfl := Option.some.inj hinference
    obtain rfl := Except.ok.inj hanswer
    exact .of_imp rfl Inference.holdsOf_kingCount.mpr (by simp [Overstates])
  | twoSuited longest second =>
    obtain rfl := Option.some.inj hinference
    refine .of_imp rfl (fun htrue ↦ ?_) (by simp [Overstates])
    have hsuits : (Inference.twoSuited longest second).HoldsIn context.evaluation :=
      Inference.holdsIn_twoSuited.mpr (isTwoSuited_eq_true_iff.mp (htrue ▸ hanswer))
    exact (Inference.holdsOf_iff_holdsIn (by simp [Inference.twoSuited])
      (by simp [Inference.twoSuited])).mpr (hevaluation ▸ hsuits)
  | _ => cases hinference

/-- The inverse of an inference agrees with the opposite answer. -/
theorem Agrees.negation {hand : Hand} {other : Inference}
    (h : condition.Agrees hand (!answer) inference)
    (hother : inference.inverse = .ok (some other)) :
    (negation condition).Agrees hand answer other := by
  rcases h with ⟨hinvertible, hholds⟩ | ⟨hinverse, -⟩
  · obtain ⟨inverse, hinverse, hagain, hopposite⟩ := hinvertible.exists_inverse
    obtain rfl : inverse = other := Option.some.inj (Except.ok.inj (hinverse.symm.trans hother))
    refine Or.inl ⟨hagain, ?_⟩
    rw [hopposite, hholds]
    cases answer <;> simp [Overstates]
  · cases hinverse.symm.trans hother

/-- The inference of a condition agrees with its answer. -/
theorem agrees (hevaluation : context.evaluation = context.hand.evaluation)
    (hstandard : condition.isStandard = true) (hanswer : condition.holds context = .ok answer)
    (hinference : condition.inference? = some inference) :
    condition.Agrees context.hand answer inference := by
  induction condition using induct generalizing answer inference with
  | holding test => exact agrees_holding hevaluation hstandard hanswer hinference
  | negation condition ih =>
    obtain ⟨inner, hinner, hopposite⟩ := bind_eq_ok_iff.mp hanswer
    obtain rfl := Except.ok.inj hopposite
    cases hcondition : condition.inference? with
    | none => simp [inference?, hcondition, Inference.inverse?, Except.toOption] at hinference
    | some stated =>
      have hagrees := ih hstandard hinner hcondition
      rw [← Bool.not_not inner] at hagrees
      refine hagrees.negation ?_
      rw [inference?, hcondition, Inference.inverse?] at hinference
      cases hinverse : stated.inverse with
      | error error => simp [hinverse, Except.toOption] at hinference
      | ok inverse =>
        rw [hinverse] at hinference
        exact congrArg Except.ok hinference
  | custom test => cases hstandard
  | _ => cases hinference

/-- What the condition says about the hand when it holds is true, except where it overstates. -/
def Informs (context : Context) (condition : Condition) : Prop :=
  ∀ inference, condition.inference? = some inference → condition.holds context = .ok true →
    (inference.HoldsOf context.hand ↔ ¬ condition.Overstates context.hand false)

theorem informs_of_isStandard (hevaluation : context.evaluation = context.hand.evaluation)
    (hstandard : condition.isStandard = true) : condition.Informs context := by
  intro inference hinference hholds
  rcases agrees hevaluation hstandard hholds hinference with
    ⟨hinvertible, hiff⟩ | ⟨-, hover, himp⟩
  · rw [hinvertible.holdsOf_iff, hiff, if_pos rfl]
  · exact iff_of_true (himp rfl) hover

end Condition

/-! ### The rules of trees -/

namespace RuleTree

/-- The conditions of a flattened rule are conditions of the tree and opposites of them. -/
theorem isStandard_of_flatten {tree : RuleTree} {rules : List Rule} {rule : Rule}
    {condition : Condition} (hflatten : tree.flatten = .ok rules)
    (hstandard : ∀ asked ∈ tree.conditions, asked.isStandard = true) (hrule : rule ∈ rules)
    (hcondition : condition ∈ rule.conditions) : condition.isStandard = true := by
  obtain ⟨rfl, -⟩ := flatten_eq_ok hflatten
  obtain ⟨path, hpath, rfl⟩ := List.mem_map.mp hrule
  have hasked : condition ∈ path.conditions := by
    rw [ruleOf, List.nil_append] at hcondition
    rcases List.mem_append.mp hcondition with hauction | hhand
    · exact List.mem_of_mem_filter hauction
    · exact List.mem_of_mem_filter hhand
  obtain ⟨junction, hjunction, rfl⟩ := List.mem_map.mp hasked
  have hdecision := hstandard _ (mem_conditions_of_mem_paths hpath junction hjunction)
  rw [Junction.asked]
  cases junction.required with
  | true => exact hdecision
  | false => exact hdecision

theorem exists_flatten_of_mem_rules {tree : RuleTree} {rule : Rule} (h : rule ∈ tree.rules) :
    ∃ rules, tree.flatten = .ok rules ∧ rule ∈ rules := by
  rw [rules] at h
  cases hflatten : tree.flatten with
  | error error => simp [hflatten] at h
  | ok rules => exact ⟨rules, rfl, by simpa [hflatten] using h⟩

end RuleTree

namespace Registry

theorem rules_of_mem_builtin {convention : Convention} (h : convention ∈ builtin) :
    convention.rules = convention.tree.rules := by
  simp only [builtin, List.mem_cons, List.not_mem_nil, or_false] at h
  rcases h with rfl | rfl | rfl | rfl | rfl | rfl <;> rfl

theorem isStandard_of_mem_builtin {convention : Convention} {condition : Condition}
    (h : convention ∈ builtin) (hcondition : condition ∈ convention.tree.conditions) :
    condition.isStandard = true := by
  have hall : (builtin.all fun convention ↦
      convention.tree.conditions.all Condition.isStandard) = true := by decide
  exact List.all_eq_true.mp (List.all_eq_true.mp hall convention h) condition hcondition

end Registry

namespace Condition

variable {context : Context}

/-- Whenever a condition that is made of questions with whole bounds holds, what it says about the
hand is true exactly if it does not overstate; in particular for the conditions of the rules that a
tree is flattened to, and of the rules of the built-in conventions. -/
theorem inference_informs (hevaluation : context.evaluation = context.hand.evaluation) :
    (∀ condition : Condition, condition.isStandard = true → condition.Informs context) ∧
    (∀ (tree : RuleTree) (rules : List Rule), tree.flatten = .ok rules →
      (∀ asked ∈ tree.conditions, asked.isStandard = true) →
      ∀ rule ∈ rules, ∀ condition ∈ rule.conditions, condition.Informs context) ∧
    ∀ convention ∈ Registry.builtin, ∀ rule ∈ convention.rules,
      ∀ condition ∈ rule.conditions, condition.Informs context := by
  refine ⟨fun condition ↦ informs_of_isStandard hevaluation, ?_, ?_⟩
  · intro tree rules hflatten hstandard rule hrule condition hcondition
    exact informs_of_isStandard hevaluation
      (RuleTree.isStandard_of_flatten hflatten hstandard hrule hcondition)
  · intro convention hconvention rule hrule condition hcondition
    rw [Registry.rules_of_mem_builtin hconvention] at hrule
    obtain ⟨rules, hflatten, hrule⟩ := RuleTree.exists_flatten_of_mem_rules hrule
    exact informs_of_isStandard hevaluation (RuleTree.isStandard_of_flatten hflatten
      (fun asked ↦ Registry.isStandard_of_mem_builtin hconvention) hrule hcondition)

/-- A hand with three spades has no long spades, and is rightly said to have four at most. -/
theorem inference_informs_strongNotrump :
    let context := Context.ofHand .strongNotrump (.empty (some .north)) .north
    let condition := negation (holding (.longerMajor .spades))
    let inference := Inference.suitMax Suit.spades.parameter 4
    context.evaluation = context.hand.evaluation ∧ condition.isStandard = true ∧
      condition.inference? = some inference ∧ condition.holds context = .ok true ∧
      inference.HoldsOf context.hand := by
  intro context condition inference
  refine ⟨rfl, rfl, rfl, rfl, ?_⟩
  have hshort : ¬ 5 ≤ Hand.strongNotrump.length .spades := by decide
  exact ((inference_informs rfl).1 condition rfl inference rfl rfl).mpr hshort

/-- Five spades below six hearts. -/
def sixHearts : Hand :=
  .ofSuits [.ace, .king, .queen, .three, .two] [.king, .jack, .eight, .seven, .four, .three]
    [.four] [.two]

/-- The rule for opening one heart matches a hand with five spades, and says that it has four at
most: its spades are no longer than its hearts, and the opposite of a long and no shorter major is
taken for a short one. -/
theorem inference_false_sixHearts :
    let context := Context.ofHand sixHearts (.empty (some .north)) .north
    let condition := negation (holding (.longerMajor .spades))
    let inference := Inference.suitMax Suit.spades.parameter 4
    (∃ rule ∈ Sayc.convention.rules, rule.name = "sayc-open-1h" ∧
      rule.matchesIn context = true ∧ condition ∈ rule.conditions) ∧
    context.evaluation = context.hand.evaluation ∧ condition.isStandard = true ∧
      condition.inference? = some inference ∧ condition.holds context = .ok true ∧
      sixHearts.length .spades = 5 ∧ ¬ inference.HoldsOf context.hand := by
  intro context condition inference
  refine ⟨⟨_, List.mem_of_getElem? (i := 4) rfl, rfl, rfl, ?_⟩, rfl, rfl, rfl, rfl, rfl, ?_⟩
  · exact List.mem_of_getElem? (i := 5) rfl
  · rw [Inference.holdsOf_iff_holdsIn (of_decide_eq_true rfl) (of_decide_eq_true rfl),
      Inference.holdsIn_suitMax]
    have hcompared :
        Comparison.atMost (context.hand.evaluation.length .spades) 4 = .ok false := rfl
    rw [hcompared]
    exact fun heq ↦ Bool.false_ne_true (Except.ok.inj heq)

end Condition

end BridgeBidding
