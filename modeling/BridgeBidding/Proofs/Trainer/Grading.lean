import BridgeBidding.Hand.Sample
import BridgeBidding.Proofs.Condition.Report
import BridgeBidding.Trainer.Grading

/-!
# What failing conditions do to a grade

A descent contains every failure: a decision whose condition fails has not passed, says why, and is
followed down its no branch (`RuleTree.descendFrom_at_step`).  The reports of a suggestion ask the
conditions once more, and there a failure gets out if the decision had hidden it, that is if it was
answered although a part of its condition fails.  `Convention.suggest?_contains_failures` says that
a suggestion, and with it the grade of a legal call, fails in no other way.
-/

set_option autoImplicit false
set_option relaxedAutoImplicit false

namespace BridgeBidding

open Success

namespace Condition

variable {context : Context} {condition : Condition} {failure : Failure}

/-- The condition fails to be answered, or its answer fails to be described. -/
def FailsWith (context : Context) (condition : Condition) (failure : Failure) : Prop :=
  condition.holds context = .error failure ∨
    ∃ answer, condition.holds context = .ok answer ∧ condition.describe context = .error failure

theorem verdict_of_failsWith (h : condition.FailsWith context failure) :
    condition.verdict context =
      { passed := false
        description := condition.describeFailure failure
        failure? := some failure } := by
  rcases h with hholds | ⟨answer, hholds, hdescribe⟩
  · simp [verdict, hholds]
  · simp [verdict, hholds, hdescribe]

/-- A verdict carries no failure exactly if the condition is settled. -/
theorem failure?_verdict_eq_none_iff :
    (condition.verdict context).failure? = none ↔ condition.IsSettled context := by
  rw [verdict, IsSettled]
  cases condition.holds context with
  | error failure => simp
  | ok answer => cases condition.describe context <;> simp

end Condition

namespace RuleTree

variable {context : Context}

/-- The node, and all nodes below it. -/
def nodes : RuleTree → List RuleTree
  | decision key name condition yes no =>
    decision key name condition yes no :: (yes.nodes ++ no.nodes)
  | tree => [tree]

/-- A step stands for a decision of the tree with the verdict on its condition, and from the branch
taken the descent goes on with the later steps. -/
theorem descendFrom_at_step {tree : RuleTree} {depth : Nat} {parent? : Option String}
    {earlier later : List Step} {step : Step}
    (h : (tree.descendFrom context depth parent?).steps = earlier ++ step :: later) :
    step.node ∈ tree.nodes ∧ step.verdict = step.condition.verdict context ∧
      step.taken.descendFrom context (step.depth + 1) (some step.name) =
        ⟨later, (tree.descendFrom context depth parent?).ending⟩ := by
  induction tree generalizing depth parent? earlier with
  | decision key name condition yes no ihyes ihno =>
    rw [descendFrom] at h ⊢
    simp only at h ⊢
    cases hpassed : (condition.verdict context).passed with
    | true =>
      simp only [hpassed, if_true] at h ⊢
      cases earlier with
      | nil =>
        obtain ⟨rfl, rfl⟩ := List.cons.inj h
        exact ⟨by simp [Step.node, Step.passed, hpassed, nodes], rfl, rfl⟩
      | cons first earlier =>
        obtain ⟨hnode, hverdict, hbelow⟩ := ihyes (List.cons.inj h).2
        exact ⟨List.mem_cons_of_mem _ (List.mem_append_left _ hnode), hverdict, hbelow⟩
    | false =>
      simp only [hpassed, Bool.false_eq_true, if_false] at h ⊢
      cases earlier with
      | nil =>
        obtain ⟨rfl, rfl⟩ := List.cons.inj h
        exact ⟨by simp [Step.node, Step.passed, hpassed, nodes], rfl, rfl⟩
      | cons first earlier =>
        obtain ⟨hnode, hverdict, hbelow⟩ := ihno (List.cons.inj h).2
        exact ⟨List.mem_cons_of_mem _ (List.mem_append_right _ hnode), hverdict, hbelow⟩
  | _ => simp [descendFrom] at h

theorem verdict_of_mem_steps {tree : RuleTree} {step : Step}
    (h : step ∈ (tree.descend context).steps) : step.verdict = step.condition.verdict context := by
  obtain ⟨earlier, later, hsplit⟩ := List.append_of_mem h
  exact (descendFrom_at_step hsplit).2.1

end RuleTree

namespace Step

variable {context : Context}

/-- A decision is reported unless its verdict has hidden a failure. -/
theorem exists_report_iff {step : Step} (hverdict : step.verdict = step.condition.verdict context) :
    (∃ report, step.report context = .ok report) ↔
      ¬ (step.condition.IsSettled context ∧ step.condition.HidesFailure context) := by
  rw [report, hverdict]
  cases hfailure : (step.condition.verdict context).failure? with
  | some failure =>
    have hunsettled : ¬ step.condition.IsSettled context := by
      rw [← Condition.failure?_verdict_eq_none_iff, hfailure]
      simp
    exact iff_of_true ⟨_, rfl⟩ fun h ↦ hunsettled h.1
  | none =>
    have hsettled := Condition.failure?_verdict_eq_none_iff.mp hfailure
    have hbranches := Condition.exists_branches_iff context step.condition
    rw [and_iff_right hsettled, ← Condition.exists_unsettled_iff hsettled]
    simp only [not_exists, not_and, Classical.not_not]
    rw [← hbranches]
    cases step.condition.branches context <;> simp

theorem exists_reports_iff {steps : List Step} :
    (∃ found, reports context steps = .ok found) ↔
      ∀ step ∈ steps, ∃ report, step.report context = .ok report := by
  induction steps with
  | nil => simp [reports]
  | cons step rest ih =>
    rw [reports, List.forall_mem_cons, ← ih]
    cases step.report context with
    | error failure => simp
    | ok report => cases reports context rest <;> simp

end Step

namespace Convention

variable {convention : Convention} {context : Context} {skipIllegal : Bool}

/-- The convention comes to a call, and does not leave it out as illegal. -/
def Offers (convention : Convention) (context : Context) (skipIllegal : Bool) : Prop :=
  ∃ call, (convention.tree.descend context).ending.call? = some call ∧
    (skipIllegal = true → context.auction.permits call context.seat = true)

/-- A suggestion fails exactly if there is a call to suggest and the reports fail. -/
theorem exists_suggest?_error_iff :
    (∃ failure, convention.suggest? context skipIllegal = .error failure) ↔
      convention.Offers context skipIllegal ∧
        ¬ ∃ reports, Step.reports context (convention.tree.descend context).steps =
          .ok reports := by
  rw [suggest?, Offers]
  cases hending : (convention.tree.descend context).ending with
  | bid node call =>
    have hoffers : (∃ made, (Ending.bid node call).call? = some made ∧
        (skipIllegal = true → context.auction.permits made context.seat = true)) ↔
        ¬ (skipIllegal && !context.auction.permits call context.seat) = true := by
      cases skipIllegal <;> simp [Ending.call?]
    rw [hoffers]
    by_cases hskip : (skipIllegal && !context.auction.permits call context.seat) = true
    · simp [hskip]
    · cases Step.reports context (convention.tree.descend context).steps <;> simp [hskip]
  | _ => simp [Ending.call?]

end Convention

/-- The grade of a legal call fails on conditions as the suggestion that it is compared with. -/
theorem Trainer.grade_eq_failure_iff {trainer : Trainer} {drill : Drill} {call : Call}
    {convention : Convention} {context : Context} {skipIllegal : Bool}
    (hpermits : drill.auction.permits call drill.seat = true)
    (hconvention : trainer.convention drill.convention = .ok convention)
    (hcontext : contextOf drill = .ok context) (hskips : drill.skipsIllegal = .ok skipIllegal)
    (failure : Failure) :
    trainer.grade drill call = .error (.failure failure) ↔
      convention.suggest? context skipIllegal = .error failure := by
  rw [grade, if_pos hpermits, hconvention, ok_bind, hcontext, ok_bind, expectedIn, hskips, ok_bind]
  cases convention.suggest? context skipIllegal with
  | error other => simp
  | ok expected =>
    rw [ok_mapError, ok_bind]
    refine iff_of_false (fun hfails ↦ ?_) (by simp)
    -- what is left to fail is the search for siblings, of which the tree would be the cause
    simp only [pure_eq_ok] at hfails
    generalize convention.tree.siblings context _ = siblings at hfails
    cases siblings <;> simp at hfails

namespace Convention

/-- On the way to a suggestion every failure of a condition stays in its own step, which has not
passed, says why, and is followed down the no branch.  The suggestion fails exactly if there is a
call to suggest and a step on the way has hidden a failure; and the grade of a legal call fails as
the suggestion does. -/
theorem suggest?_contains_failures (convention : Convention) (context : Context)
    (skipIllegal : Bool) :
    (∀ earlier step later,
      (convention.tree.descend context).steps = earlier ++ step :: later →
        step.node ∈ convention.tree.nodes ∧
        step.taken.descendFrom context (step.depth + 1) (some step.name) =
          ⟨later, (convention.tree.descend context).ending⟩ ∧
        ∀ failure, step.condition.FailsWith context failure →
          step.verdict = ⟨false, step.condition.describeFailure failure, some failure⟩ ∧
          step.node =
            .decision step.key step.name step.condition step.untaken step.taken) ∧
    ((∃ failure, convention.suggest? context skipIllegal = .error failure) ↔
      convention.Offers context skipIllegal ∧
        ∃ step ∈ (convention.tree.descend context).steps,
          step.condition.IsSettled context ∧ step.condition.HidesFailure context) ∧
    ∀ (trainer : Trainer) (drill : Drill) (call : Call),
      drill.auction.permits call drill.seat = true →
      trainer.convention drill.convention = .ok convention →
      Trainer.contextOf drill = .ok context → drill.skipsIllegal = .ok skipIllegal →
        ∀ failure, trainer.grade drill call = .error (.failure failure) ↔
          convention.suggest? context skipIllegal = .error failure := by
  refine ⟨?_, ?_, ?_⟩
  · intro earlier step later hsplit
    obtain ⟨hnode, hverdict, hbelow⟩ := RuleTree.descendFrom_at_step hsplit
    refine ⟨hnode, hbelow, fun failure hfails ↦ ?_⟩
    rw [Condition.verdict_of_failsWith hfails] at hverdict
    refine ⟨hverdict, ?_⟩
    simp [Step.node, Step.passed, hverdict]
  · rw [exists_suggest?_error_iff, Step.exists_reports_iff]
    refine and_congr_right fun _ ↦ ?_
    simp only [Classical.not_forall, exists_prop]
    refine exists_congr fun step ↦ and_congr_right fun hstep ↦ ?_
    rw [Step.exists_report_iff (RuleTree.verdict_of_mem_steps hstep), Classical.not_not]
  · intro trainer drill call hpermits hconvention hcontext hskips
    exact Trainer.grade_eq_failure_iff hpermits hconvention hcontext hskips

/-! ### A hidden failure -/

/-- Asks for sixteen points and for something that has no answer, and bids two clubs or two
diamonds. -/
def strongAndUnsettled : Convention where
  id := "strong-and-unsettled"
  name := "Strong and unsettled"
  description := "A question without an answer behind one about points"
  kind := .asking
  constraints := {}
  tree :=
    .numbered <| .ask "strong-and-unsettled"
      (.conjunction [.pointsMin 16, .custom (.failing "unsettled" .hand "no answer")])
      (.say "two-clubs" (.of 2 .clubs) "Strong")
      (.say "two-diamonds" (.of 2 .diamonds) "Not strong")
  rules := []

/-- With twelve points the descent comes to two diamonds without meeting the failure, which then
makes the suggestion fail, and the grade of two diamonds with it. -/
theorem suggest?_fails_strongAndUnsettled :
    let auction := Auction.ofCalls .north [.of 1 .notrump, .pass]
    let context := Context.ofHand .bothMajors auction .south none .neither (some .north)
    let trainer : Trainer := ⟨⟨[strongAndUnsettled]⟩, none⟩
    let drill : Drill := {
      convention := "strong-and-unsettled"
      deal := { hand? := fun _ ↦ some .bothMajors }
      seat := .south
      auction
      iterations := 1
      settings := .record [] }
    (strongAndUnsettled.tree.descend context).ending.call? = some (.of 2 .diamonds) ∧
      auction.permits (.of 2 .diamonds) .south = true ∧
      strongAndUnsettled.suggest? context true = .error (.stated "no answer") ∧
      strongAndUnsettled.suggest? context false = .error (.stated "no answer") ∧
      trainer.grade drill (.of 2 .diamonds) = .error (.failure (.stated "no answer")) :=
  ⟨rfl, rfl, rfl, rfl, rfl⟩

end Convention

end BridgeBidding
