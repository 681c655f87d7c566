import BridgeBidding.Condition.Report
import BridgeBidding.Proofs.Condition.Verdict

/-!
# When a report can be given

The report on a combination asks every part of it again, also parts that the answer never came to,
and in turn what the reports on the parts ask (`Condition.reported`).  So it can be given exactly if
all of these can be answered and described, and so can the combination itself
(`Condition.exists_branches_iff`, `Condition.exists_report_iff`).

A condition that was answered and described may still have parts that fail: all of several
conditions are answered by the first that does not hold, and a part behind it is not asked before
the report.  `Condition.exists_unsettled_iff` shows that this is the only way.
-/

set_option autoImplicit false
set_option relaxedAutoImplicit false

namespace BridgeBidding.Condition

open Success

variable {context : Context} {condition : Condition} {parts : List Condition}

/-! ### What a report asks -/

mutual

/-- The conditions that the report on a combination asks: its parts, and what their reports ask.
The report on the opposite of a condition does not look into it. -/
def reported : Condition → List Condition
  | conjunction parts | disjunction parts => reportedAmong parts
  | _ => []

/-- The conditions, each with what the report on it asks. -/
def reportedAmong : List Condition → List Condition
  | [] => []
  | part :: rest => part :: (part.reported ++ reportedAmong rest)

end

theorem mem_reportedAmong_iff {asked : Condition} :
    asked ∈ reportedAmong parts ↔ ∃ part ∈ parts, asked ∈ part :: part.reported := by
  induction parts with
  | nil => simp [reportedAmong]
  | cons part rest ih =>
    rw [reportedAmong, ← List.cons_append, List.mem_append, ih]
    constructor
    · rintro (hasked | ⟨other, hother, hasked⟩)
      · exact ⟨part, List.mem_cons_self, hasked⟩
      · exact ⟨other, List.mem_cons_of_mem _ hother, hasked⟩
    · rintro ⟨other, hother, hasked⟩
      rcases List.mem_cons.mp hother with rfl | hother
      · exact Or.inl hasked
      · exact Or.inr ⟨other, hother, hasked⟩

theorem forall_mem_reportedAmong_iff {property : Condition → Prop} :
    (∀ asked ∈ reportedAmong parts, property asked) ↔
      ∀ part ∈ parts, property part ∧ ∀ asked ∈ part.reported, property asked := by
  simp only [mem_reportedAmong_iff, ← List.forall_mem_cons]
  exact ⟨fun h part hpart asked hasked ↦ h asked ⟨part, hpart, hasked⟩,
    fun h asked ⟨part, hpart, hasked⟩ ↦ h part hpart asked hasked⟩

/-- What the report on an asked condition asks is asked as well. -/
theorem mem_reported_trans {inner asked : Condition} (hinner : inner ∈ condition.reported)
    (hasked : asked ∈ inner.reported) : asked ∈ condition.reported := by
  induction condition using induct with
  | conjunction parts ih | disjunction parts ih =>
    rw [reported, mem_reportedAmong_iff] at hinner ⊢
    obtain ⟨part, hpart, hmem⟩ := hinner
    refine ⟨part, hpart, List.mem_cons_of_mem _ ?_⟩
    rcases List.mem_cons.mp hmem with rfl | hmem
    · exact hasked
    · exact ih part hpart hmem
  | _ => cases hinner

/-! ### Combinations that are settled -/

/-- The answers to conditions can be described along with them exactly if all are settled. -/
theorem exists_answersDescribed_iff :
    (∃ described, answersDescribed context parts = .ok described) ↔
      ∀ part ∈ parts, part.IsSettled context := by
  refine ⟨?_, fun h ↦ (answersDescribed_eq_ok h).imp fun _ hdescribed ↦ hdescribed.1⟩
  induction parts with
  | nil => simp
  | cons part rest ih =>
    rintro ⟨described, hdescribed⟩
    obtain ⟨answer, hanswer, hdescribed⟩ := bind_eq_ok_iff.mp hdescribed
    obtain ⟨description, hdescription, hdescribed⟩ := bind_eq_ok_iff.mp hdescribed
    obtain ⟨others, hothers, -⟩ := bind_eq_ok_iff.mp hdescribed
    exact List.forall_mem_cons.mpr ⟨⟨⟨_, hanswer⟩, _, hdescription⟩, ih ⟨_, hothers⟩⟩

/-- Any of several conditions are settled exactly if every one of them is. -/
theorem isSettled_disjunction_iff :
    (disjunction parts).IsSettled context ↔ ∀ part ∈ parts, part.IsSettled context := by
  rw [← exists_answersDescribed_iff]
  constructor
  · rintro ⟨-, description, hdescription⟩
    rw [describe] at hdescription
    obtain ⟨described, hdescribed, -⟩ := bind_eq_ok_iff.mp hdescription
    exact ⟨described, hdescribed⟩
  · intro h
    obtain ⟨described, hdescribed, hanswers, -⟩ :=
      answersDescribed_eq_ok (exists_answersDescribed_iff.mp h)
    refine ⟨⟨_, by rw [holds, hanswers]; rfl⟩, ?_⟩
    rw [describe, hdescribed, ok_bind]
    cases described.find? Prod.fst with
    | none => exact ⟨_, rfl⟩
    | some first => exact ⟨_, rfl⟩

theorem exists_describe_conjunction_iff :
    (∃ description, (conjunction parts).describe context = .ok description) ↔
      ∀ part ∈ parts, ∃ description, part.describe context = .ok description := by
  rw [← exists_descriptions_iff, describe]
  cases descriptions context parts with
  | error failure => simp
  | ok texts => simp

theorem exists_holdAll (h : ∀ part ∈ parts, ∃ answer, part.holds context = .ok answer) :
    ∃ answer, holdAll context parts = .ok answer := by
  induction parts with
  | nil => exact ⟨true, rfl⟩
  | cons part rest ih =>
    obtain ⟨⟨answer, hanswer⟩, hrest⟩ := List.forall_mem_cons.mp h
    rw [holdAll, hanswer, ok_bind]
    cases answer with
    | true => exact ih hrest
    | false => exact ⟨false, rfl⟩

theorem isSettled_conjunction (h : ∀ part ∈ parts, part.IsSettled context) :
    (conjunction parts).IsSettled context :=
  ⟨exists_holdAll fun part hpart ↦ (h part hpart).1,
    exists_describe_conjunction_iff.mpr fun part hpart ↦ (h part hpart).2⟩

/-- All of several conditions can be answered past one that fails only if one before it does not
hold. -/
theorem exists_stopper {answer : Bool} {failing : Condition} {failure : Failure}
    (hanswer : holdAll context parts = .ok answer) (hmem : failing ∈ parts)
    (hfails : failing.holds context = .error failure) :
    ∃ stopper, [stopper, failing].Sublist parts ∧ stopper.holds context = .ok false := by
  induction parts with
  | nil => cases hmem
  | cons part rest ih =>
    obtain ⟨held, hheld, hanswer⟩ := bind_eq_ok_iff.mp hanswer
    have hrest : failing ∈ rest := by
      refine (List.mem_cons.mp hmem).resolve_left fun heq ↦ ?_
      rw [← heq, hfails] at hheld
      cases hheld
    cases held with
    | true =>
      obtain ⟨stopper, hsublist, hstopper⟩ := ih hanswer hrest
      exact ⟨stopper, hsublist.cons part, hstopper⟩
    | false => exact ⟨part, (List.singleton_sublist.mpr hrest).cons_cons part, hheld⟩

/-! ### Reports that can be given -/

theorem exists_partReports_iff :
    (∃ reports, partReports context parts = .ok reports) ↔
      ∀ part ∈ parts, (∃ branches, part.branches context = .ok branches) ∧
        part.IsSettled context := by
  induction parts with
  | nil => simp [partReports]
  | cons part rest ih =>
    rw [partReports, List.forall_mem_cons, ← ih, IsSettled]
    cases part.branches context with
    | error failure => simp
    | ok inner =>
      cases part.holds context with
      | error failure => simp
      | ok answer =>
        cases part.describe context with
        | error failure => simp
        | ok description =>
          cases partReports context rest with
          | error failure => simp
          | ok reports => simp

theorem exists_partBranches_iff :
    (∃ branches, partBranches context parts = .ok branches) ↔
      ∀ part ∈ parts, (∃ answer, part.holds context = .ok answer) ∧
        ∃ inner, part.branches context = .ok inner ∧
          (inner = none → ∃ description, part.describe context = .ok description) := by
  induction parts with
  | nil => simp [partBranches]
  | cons part rest ih =>
    rw [partBranches, List.forall_mem_cons, ← ih]
    cases part.branches context with
    | error failure => simp
    | ok inner =>
      cases part.holds context with
      | error failure => cases inner <;> simp
      | ok answer =>
        cases inner with
        | some inner => cases partBranches context rest <;> simp
        | none =>
          cases part.describe context with
          | error failure => simp
          | ok description => cases partBranches context rest <;> simp

/-- A combination all of whose parts are settled can be described; what is no combination has no
branches. -/
theorem exists_describe_of_reported {inner : Option (List Branch)}
    (hinner : condition.branches context = .ok inner)
    (hreported : ∀ asked ∈ condition.reported, asked.IsSettled context)
    (hnone : inner = none → ∃ description, condition.describe context = .ok description) :
    ∃ description, condition.describe context = .ok description := by
  cases condition with
  | conjunction parts =>
    have hparts := forall_mem_reportedAmong_iff.mp hreported
    exact (isSettled_conjunction fun part hpart ↦ (hparts part hpart).1).2
  | disjunction parts =>
    have hparts := forall_mem_reportedAmong_iff.mp hreported
    exact (isSettled_disjunction_iff.mpr fun part hpart ↦ (hparts part hpart).1).2
  | _ => exact hnone (Except.ok.inj hinner).symm

/-- A condition has its branches exactly if everything that its report asks is settled. -/
theorem exists_branches_iff (context : Context) (condition : Condition) :
    (∃ branches, condition.branches context = .ok branches) ↔
      ∀ asked ∈ condition.reported, asked.IsSettled context := by
  induction condition using induct with
  | conjunction parts ih =>
    have hreports : (∃ branches, (conjunction parts).branches context = .ok branches) ↔
        ∃ reports, partReports context parts = .ok reports := by
      rw [branches]
      cases partReports context parts <;> simp
    rw [hreports, exists_partReports_iff, reported, forall_mem_reportedAmong_iff]
    refine forall₂_congr fun part hpart ↦ ?_
    rw [ih part hpart, and_comm]
  | disjunction parts ih =>
    have hbranches : (∃ branches, (disjunction parts).branches context = .ok branches) ↔
        ∃ branches, partBranches context parts = .ok branches := by
      rw [branches]
      cases partBranches context parts <;> simp
    rw [hbranches, exists_partBranches_iff, reported, forall_mem_reportedAmong_iff]
    refine forall₂_congr fun part hpart ↦ ⟨?_, ?_⟩
    · rintro ⟨hanswer, inner, hinner, hnone⟩
      have hreported := (ih part hpart).mp ⟨inner, hinner⟩
      exact ⟨⟨hanswer, exists_describe_of_reported hinner hreported hnone⟩, hreported⟩
    · rintro ⟨hsettled, hreported⟩
      obtain ⟨inner, hinner⟩ := (ih part hpart).mpr hreported
      exact ⟨hsettled.1, inner, hinner, fun _ ↦ hsettled.2⟩
  | _ => exact iff_of_true ⟨none, rfl⟩ (by simp [reported])

/-- The condition is settled, and so is everything that the report on it asks. -/
def IsReportable (context : Context) (condition : Condition) : Prop :=
  ∀ asked ∈ condition :: condition.reported, asked.IsSettled context

/-- The report on a condition can be given exactly if the condition is reportable. -/
theorem exists_report_iff :
    (∃ report, condition.report context = .ok report) ↔ condition.IsReportable context := by
  rw [IsReportable, List.forall_mem_cons, ← exists_branches_iff, IsSettled, report]
  cases condition.branches context with
  | error failure => simp
  | ok branches =>
    cases condition.holds context with
    | error failure => simp
    | ok answer => cases condition.describe context <;> simp

/-! ### Failures behind a part that does not hold -/

/-- Among the conditions of which all have to hold, in the condition or in what its report asks, one
fails to be answered behind one that does not hold. -/
def HidesFailure (context : Context) (condition : Condition) : Prop :=
  ∃ parts, conjunction parts ∈ condition :: condition.reported ∧
    ∃ stopper failing failure, [stopper, failing].Sublist parts ∧
      stopper.holds context = .ok false ∧ failing.holds context = .error failure

/-- What a part of a combination hides, the combination hides. -/
theorem HidesFailure.of_mem {part : Condition} (h : part.HidesFailure context)
    (hpart : part ∈ parts) (hreported : condition.reported = reportedAmong parts) :
    condition.HidesFailure context := by
  obtain ⟨inner, hinner, hfails⟩ := h
  refine ⟨inner, List.mem_cons_of_mem _ ?_, hfails⟩
  rw [hreported]
  exact mem_reportedAmong_iff.mpr ⟨part, hpart, hinner⟩

/-- When a condition was answered and described, what its report asks fails only where a part fails
behind one that does not hold. -/
theorem exists_unsettled_iff (hsettled : condition.IsSettled context) :
    (∃ asked ∈ condition.reported, ¬ asked.IsSettled context) ↔
      condition.HidesFailure context := by
  constructor
  · intro h
    induction condition using induct with
    | conjunction parts ih =>
      by_cases hparts : ∀ part ∈ parts, part.IsSettled context
      · obtain ⟨asked, hasked, hunsettled⟩ := h
        obtain ⟨part, hpart, hmem⟩ := mem_reportedAmong_iff.mp hasked
        have hne : asked ≠ part := fun heq ↦ hunsettled (heq ▸ hparts part hpart)
        have hinner := (List.mem_cons.mp hmem).resolve_left hne
        exact (ih part hpart (hparts part hpart) ⟨asked, hinner, hunsettled⟩).of_mem hpart rfl
      · obtain ⟨failing, hfailing⟩ := Classical.not_forall.mp hparts
        obtain ⟨hmem, hunsettled⟩ := Classical.not_imp.mp hfailing
        have hdescribed := exists_describe_conjunction_iff.mp hsettled.2 failing hmem
        cases hholds : failing.holds context with
        | ok answer => exact absurd ⟨⟨answer, hholds⟩, hdescribed⟩ hunsettled
        | error failure =>
          obtain ⟨answer, hanswer⟩ := hsettled.1
          obtain ⟨stopper, hsublist, hstopper⟩ := exists_stopper hanswer hmem hholds
          exact ⟨parts, List.mem_cons_self, stopper, failing, failure, hsublist, hstopper, hholds⟩
    | disjunction parts ih =>
      have hparts := isSettled_disjunction_iff.mp hsettled
      obtain ⟨asked, hasked, hunsettled⟩ := h
      obtain ⟨part, hpart, hmem⟩ := mem_reportedAmong_iff.mp hasked
      have hne : asked ≠ part := fun heq ↦ hunsettled (heq ▸ hparts part hpart)
      have hinner := (List.mem_cons.mp hmem).resolve_left hne
      exact (ih part hpart (hparts part hpart) ⟨asked, hinner, hunsettled⟩).of_mem hpart rfl
    | _ =>
      obtain ⟨asked, hasked, -⟩ := h
      cases hasked
  · rintro ⟨parts, hparts, stopper, failing, failure, hsublist, -, hfails⟩
    have hfailing : failing ∈ (conjunction parts).reported :=
      mem_reportedAmong_iff.mpr ⟨failing, hsublist.subset (by simp), List.mem_cons_self⟩
    refine ⟨failing, ?_, ?_⟩
    · rcases List.mem_cons.mp hparts with rfl | hinner
      · exact hfailing
      · exact mem_reported_trans hinner hfailing
    · rintro ⟨⟨answer, hanswer⟩, -⟩
      cases hfails.symm.trans hanswer

end BridgeBidding.Condition
