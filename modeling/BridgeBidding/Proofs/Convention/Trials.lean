import BridgeBidding.Convention
import BridgeBidding.Hand.Sample
import BridgeBidding.Proofs.Condition.Report
import BridgeBidding.Proofs.Tree.Flattening

/-!
# Trying all rules

All rules of a convention can be tried unless one that matches fails to work out its call, and the
trials then say of each rule whether it matches, its call, and whether that is legal
(`Convention.trials_outcome`).

A rule matches when its conditions hold.  The reports on them ask more: that the conditions can be
described, and that all can be asked that the report on a combination asks.  So a rule whose reports
have all passed matches, and a rule that matches has a report that has not passed exactly if a
condition of it cannot be reported on (`Rule.MatchesUnreported`).
-/

set_option autoImplicit false
set_option relaxedAutoImplicit false

namespace BridgeBidding

open Success

variable {context : Context} {rule : Rule}

namespace Condition

variable {condition : Condition}

/-- A report names its condition, and has passed as that is answered. -/
theorem of_report_eq_ok {report : Report} (h : condition.report context = .ok report) :
    report.name = condition.name ∧ condition.holds context = .ok report.passed := by
  obtain ⟨branches, -, h⟩ := bind_eq_ok_iff.mp h
  obtain ⟨answer, hanswer, h⟩ := bind_eq_ok_iff.mp h
  obtain ⟨description, -, h⟩ := bind_eq_ok_iff.mp h
  obtain rfl := Except.ok.inj h
  exact ⟨rfl, hanswer⟩

theorem name_settledReport (context : Context) (condition : Condition) :
    (condition.settledReport context).name = condition.name := by
  rw [settledReport]
  cases hreport : condition.report context with
  | error failure => rfl
  | ok report => exact (of_report_eq_ok hreport).1

/-- The report has passed if the condition holds and can be reported on. -/
theorem passed_settledReport_iff :
    (condition.settledReport context).passed = true ↔
      condition.holds context = .ok true ∧ condition.IsReportable context := by
  rw [settledReport, ← exists_report_iff]
  cases hreport : condition.report context with
  | error failure => simp [Report.passed]
  | ok report => simp [(of_report_eq_ok hreport).2]

end Condition

namespace Rule

/-- Unless the rule matches, it needs no call; if it does, its call can be worked out. -/
def WorksOut (context : Context) (rule : Rule) : Prop :=
  rule.matchesIn context = true → ∃ call, rule.call context = .ok call

/-- The conditions of the rule hold, but one of them cannot be reported on. -/
def MatchesUnreported (context : Context) (rule : Rule) : Prop :=
  (∀ condition ∈ rule.conditions, condition.holds context = .ok true) ∧
    ∃ condition ∈ rule.conditions, ¬ condition.IsReportable context

/-- All reports have passed if the rule matches and its conditions can be reported on. -/
theorem all_passed_iff :
    (∀ report ∈ rule.reports context, report.passed = true) ↔
      rule.matchesIn context = true ∧ ¬ rule.MatchesUnreported context := by
  rw [reports, List.forall_mem_map, matchesIn_iff, MatchesUnreported]
  simp only [Condition.passed_settledReport_iff]
  constructor
  · refine fun h ↦ ⟨fun condition hmem ↦ (h condition hmem).1, ?_⟩
    rintro ⟨-, condition, hmem, hunreported⟩
    exact hunreported (h condition hmem).2
  · rintro ⟨hholds, hshown⟩ condition hmem
    exact ⟨hholds condition hmem, by_contra fun h ↦ hshown ⟨hholds, condition, hmem, h⟩⟩

/-- The rule matches exactly if all reports have passed, except if it matches unreported. -/
theorem matchesIn_agrees_iff :
    (rule.matchesIn context = true ↔ ∀ report ∈ rule.reports context, report.passed = true) ↔
      ¬ rule.MatchesUnreported context := by
  rw [all_passed_iff]
  constructor
  · exact fun hagrees hmatches ↦ (hagrees.mp (matchesIn_iff.mpr hmatches.1)).2 hmatches
  · exact fun hshown ↦ (and_iff_left hshown).symm

end Rule

/-- The trial tells the name of the rule, whether its conditions hold, its call if they do, whether
that is legal, and how each condition is reported on. -/
structure RuleTrial.Tells (context : Context) (rule : Rule) (tried : RuleTrial) : Prop where
  name_eq : tried.name = rule.name
  matched_iff : tried.matched = true ↔
    ∀ condition ∈ rule.conditions, condition.holds context = .ok true
  call?_iff : ∀ call, tried.call? = some call ↔
    tried.matched = true ∧ rule.call context = .ok call
  isLegal_iff : tried.isLegal = true ↔
    ∃ call, tried.call? = some call ∧ context.auction.permits call context.seat = true
  reports : List.Forall₂ (fun condition report ↦ report.name = condition.name ∧
    (report.passed = true ↔ condition.holds context = .ok true ∧ condition.IsReportable context))
    rule.conditions tried.reports

namespace Convention

/-- The trial of a rule tells what there is to tell, unless the rule matches and its call fails. -/
theorem trial_outcome (context : Context) (rule : Rule) :
    (∃ tried, trial context rule = .ok tried ∧ rule.WorksOut context ∧ tried.Tells context rule ∧
      tried.matched = rule.matchesIn context ∧ tried.reports = rule.reports context) ∨
    ∃ failure, trial context rule = .error failure ∧ rule.matchesIn context = true ∧
      rule.call context = .error failure := by
  have hreports : List.Forall₂ (fun condition report ↦ report.name = condition.name ∧
      (report.passed = true ↔ condition.holds context = .ok true ∧ condition.IsReportable context))
      rule.conditions (rule.reports context) := by
    rw [Rule.reports, List.forall₂_map_right_iff, List.forall₂_same]
    exact fun condition _ ↦
      ⟨condition.name_settledReport context, Condition.passed_settledReport_iff⟩
  unfold trial
  cases hmatches : rule.matchesIn context with
  | false =>
    have hfails : ¬ ∀ condition ∈ rule.conditions, condition.holds context = .ok true := by
      rw [← Rule.matchesIn_iff, hmatches]
      exact Bool.false_ne_true
    refine .inl ⟨_, rfl, fun h ↦ ?_, ⟨rfl, ?_, fun call ↦ ?_, ?_, hreports⟩, rfl, rfl⟩
    · cases hmatches.symm.trans h
    · exact iff_of_false Bool.false_ne_true hfails
    · exact iff_of_false nofun fun h ↦ Bool.false_ne_true h.1
    · exact iff_of_false Bool.false_ne_true nofun
  | true =>
    cases hcall : rule.call context with
    | error failure => exact .inr ⟨failure, rfl, rfl, rfl⟩
    | ok call =>
      refine .inl ⟨_, rfl, fun _ ↦ ⟨call, hcall⟩, ⟨rfl, ?_, fun other ↦ ?_, ?_, hreports⟩, rfl, rfl⟩
      · exact iff_of_true rfl (Rule.matchesIn_iff.mp hmatches)
      · simp [hcall]
      · simp

/-- Rules are tried one after another until one that matches cannot work out its call. -/
theorem trialsOf_outcome (context : Context) (rules : List Rule) :
    (∃ results, trialsOf context rules = .ok results ∧
      (∀ rule ∈ rules, rule.WorksOut context) ∧
      List.Forall₂ (fun rule tried ↦ tried.Tells context rule ∧
        tried.matched = rule.matchesIn context ∧ tried.reports = rule.reports context)
        rules results) ∨
    ∃ failure before rule after, trialsOf context rules = .error failure ∧
      rules = before ++ rule :: after ∧ (∀ earlier ∈ before, earlier.WorksOut context) ∧
      rule.matchesIn context = true ∧ rule.call context = .error failure := by
  induction rules with
  | nil => exact .inl ⟨[], rfl, by simp, .nil⟩
  | cons first rest ih =>
    rw [trialsOf]
    obtain ⟨tried, htried, hworks, htells⟩ | ⟨failure, hfailed, hmatches, hcall⟩ :=
      trial_outcome context first
    · rw [htried, ok_bind]
      obtain ⟨results, hresults, hothers, hall⟩ |
        ⟨failure, before, rule, after, hfailed, hrules, hbefore, hrule⟩ := ih
      · rw [hresults, ok_bind]
        exact .inl ⟨_, rfl, List.forall_mem_cons.mpr ⟨hworks, hothers⟩, .cons htells hall⟩
      · rw [hfailed, error_bind]
        exact .inr ⟨failure, first :: before, rule, after, rfl, by rw [hrules, List.cons_append],
          List.forall_mem_cons.mpr ⟨hworks, hbefore⟩, hrule⟩
    · rw [hfailed, error_bind]
      exact .inr ⟨failure, [], first, rest, rfl, rfl, by simp, hmatches, hcall⟩

/-- All rules of a convention are tried, in order, if those that match can work out their calls; the
first one that cannot makes the trials fail.  Each trial tells what there is to tell about its rule,
and says that the rule matches exactly if all of its reports have passed, except if the rule matches
unreported. -/
theorem trials_outcome (convention : Convention) (context : Context) :
    (∃ results, convention.trials context = .ok results ∧
      (∀ rule ∈ convention.rules, rule.WorksOut context) ∧
      List.Forall₂ (fun rule tried ↦ tried.Tells context rule ∧
        ((tried.matched = true ↔ ∀ report ∈ tried.reports, report.passed = true) ↔
          ¬ rule.MatchesUnreported context)) convention.rules results) ∨
    ∃ failure before rule after, convention.trials context = .error failure ∧
      convention.rules = before ++ rule :: after ∧
      (∀ earlier ∈ before, earlier.WorksOut context) ∧
      rule.matchesIn context = true ∧ rule.call context = .error failure := by
  refine (trialsOf_outcome context convention.rules).imp_left ?_
  rintro ⟨results, hresults, hworks, hall⟩
  refine ⟨results, hresults, hworks, hall.imp fun rule tried ⟨htells, hmatched, hreports⟩ ↦ ?_⟩
  rw [hmatched, hreports]
  exact ⟨htells, Rule.matchesIn_agrees_iff⟩

/-- The tree of `seventeenOrUnsettled`. -/
def seventeenOrUnsettledTree : RuleTree :=
  .numbered <| .ask "seventeen-or-unsettled"
    (.disjunction [.pointsMin 17,
      .conjunction [.pointsMin 20, .custom (.failing "unsettled" .hand "no answer")]])
    (.say "one-notrump" (.of 1 .notrump) "Strong")
    (.workOut "unknown" (.failing "no call") "Weak")

/-- Bids one notrump with seventeen points, or with twenty and something that has no answer, and
otherwise something that cannot be worked out. -/
def seventeenOrUnsettled : Convention where
  id := "seventeen-or-unsettled"
  name := "Seventeen or unsettled"
  description := "A question without an answer behind one about points"
  kind := .constructive
  constraints := {}
  tree := seventeenOrUnsettledTree
  rules := seventeenOrUnsettledTree.rules

/-- With seventeen points the rule for one notrump matches, but the report on its condition has not
passed; with twelve points the other rule matches, and makes the trials fail. -/
theorem trials_seventeenOrUnsettled :
    let strong := Context.ofHand .strongNotrump (.empty (some .north)) .north
    let weak := Context.ofHand .bothMajors (.empty (some .north)) .north
    seventeenOrUnsettled.tree.flatten = .ok seventeenOrUnsettled.rules ∧
      (∃ results, seventeenOrUnsettled.trials strong = .ok results ∧
        ∃ tried ∈ results, tried.matched = true ∧
          ∃ report ∈ tried.reports, report.passed = false) ∧
      seventeenOrUnsettled.trials weak = .error (.stated "no call") :=
  ⟨rfl, ⟨_, rfl, _, List.mem_cons_self, rfl, _, List.mem_cons_self, rfl⟩, rfl⟩

end Convention

end BridgeBidding
