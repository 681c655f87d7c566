import BridgeBidding.Hand.Sample
import BridgeBidding.Proofs.Condition.AuctionOnly
import BridgeBidding.Proofs.Condition.Totality
import Mathlib.Data.List.Forall2

/-!
# Branches and answers

The branches of a combination stand for its alternatives: the combination itself, if all of its
parts have to hold, or else its parts (`Condition.alternatives`).  Each branch has passed just as
its alternative is answered, and shows reports on the conditions that `Condition.displayed` lists
(`Condition.shows_of_branches`).

The reports on the parts of a combination stand in one branch, also if any of these parts is enough.
So a branch for any of several conditions has passed as soon as one of them holds, though it shows
the reports on those that do not; in every other branch all reports have passed if and only if the
branch has (`Condition.branches_agree_iff`).
-/

set_option autoImplicit false
set_option relaxedAutoImplicit false

namespace BridgeBidding

open Success

namespace Condition

variable {context : Context} {condition : Condition} {parts : List Condition}

/-! ### Made of questions -/

/-- The condition is a question, or made of such conditions by taking the opposite, all, or any of
them within the limits. -/
inductive IsMade : Condition → Prop
  | position (test : PositionTest) : IsMade (position test)
  | holding (test : HandTest) : IsMade (holding test)
  | custom (test : CustomTest) : IsMade (custom test)
  | negate {condition opposite : Condition} (hcondition : IsMade condition)
      (hopposite : condition.negate = .ok opposite) : IsMade opposite
  | all {parts : List Condition} {whole : Condition} (hparts : ∀ part ∈ parts, IsMade part)
      (hwhole : all parts = .ok whole) : IsMade whole
  | any {parts : List Condition} {whole : Condition} (hparts : ∀ part ∈ parts, IsMade part)
      (hwhole : any parts = .ok whole) : IsMade whole

/-- Any of several conditions can only be made by combining them. -/
theorem IsMade.any_eq_ok (h : (disjunction parts).IsMade) :
    Condition.any parts = .ok (disjunction parts) := by
  generalize hwhole : disjunction parts = whole at h
  cases h with
  | negate hcondition hopposite => cases hwhole.trans (RuleTree.negate_eq_ok hopposite)
  | all hparts hall => cases hwhole.trans (all_eq_ok hall)
  | any hparts hany =>
    obtain rfl := disjunction.inj (hwhole.trans (Condition.any_eq_ok hany))
    exact hany
  | _ => cases hwhole

theorem any_eq_ok_iff {whole : Condition} :
    any parts = .ok whole ↔
      whole = disjunction parts ∧ parts ≠ [] ∧ parts.length ≤ maximumParts ∧
        depths parts < maximumDepth := by
  unfold any
  split_ifs with hnone hmany hdeep
  · simp [List.isEmpty_iff.mp hnone]
  · simp [Nat.not_le.mpr hmany]
  · simp [Nat.not_lt.mpr (Nat.le_of_lt_succ hdeep)]
  · have hparts : parts ≠ [] := by rwa [Ne, ← List.isEmpty_iff]
    simp [hparts, Nat.not_lt.mp hmany, Nat.lt_of_succ_le (Nat.not_lt.mp hdeep), eq_comm]

theorem depths_le_iff {limit : Nat} :
    depths parts ≤ limit ↔ ∀ part ∈ parts, part.depth ≤ limit := by
  induction parts with
  | nil => simp [depths]
  | cons part rest ih => rw [depths, Nat.max_le, ih, List.forall_mem_cons]

theorem depth_le_depths {part : Condition} (h : part ∈ parts) : part.depth ≤ depths parts :=
  depths_le_iff.mp (Nat.le_refl _) part h

mutual

/-- The questions that the condition is made of. -/
def questions : Condition → List Condition
  | negation condition => condition.questions
  | conjunction parts | disjunction parts => questionsAmong parts
  | question => [question]

/-- The questions that the conditions are made of. -/
def questionsAmong : List Condition → List Condition
  | [] => []
  | part :: rest => part.questions ++ questionsAmong rest

end

theorem mem_questionsAmong_iff {question : Condition} :
    question ∈ questionsAmong parts ↔ ∃ part ∈ parts, question ∈ part.questions := by
  induction parts with
  | nil => simp [questionsAmong]
  | cons part rest ih => simp [questionsAmong, ih]

/-- A condition that is made of settled questions is settled. -/
theorem isSettled_of_questions (h : ∀ question ∈ condition.questions, question.IsSettled context) :
    condition.IsSettled context := by
  induction condition using induct with
  | negation condition ih => exact isSettled_negation (ih h)
  | conjunction parts ih =>
    exact isSettled_conjunction fun part hpart ↦ ih part hpart fun question hquestion ↦
      h question (mem_questionsAmong_iff.mpr ⟨part, hpart, hquestion⟩)
  | disjunction parts ih =>
    exact isSettled_disjunction_iff.mpr fun part hpart ↦ ih part hpart fun question hquestion ↦
      h question (mem_questionsAmong_iff.mpr ⟨part, hpart, hquestion⟩)
  | _ => exact h _ List.mem_cons_self

/-- What the report on a condition asks is made of its questions. -/
theorem mem_questions_of_mem_reported {asked question : Condition}
    (hasked : asked ∈ condition.reported) (hquestion : question ∈ asked.questions) :
    question ∈ condition.questions := by
  induction condition using induct with
  | conjunction parts ih | disjunction parts ih =>
    obtain ⟨part, hpart, hmem⟩ := mem_reportedAmong_iff.mp hasked
    refine mem_questionsAmong_iff.mpr ⟨part, hpart, ?_⟩
    rcases List.mem_cons.mp hmem with rfl | hinner
    · exact hquestion
    · exact ih part hpart hinner
  | _ => cases hasked

/-- A combination made of settled questions has branches. -/
theorem exists_branches_of_questions {whole : Condition}
    (hwhole : Condition.all parts = .ok whole ∨ Condition.any parts = .ok whole)
    (h : ∀ question ∈ whole.questions, question.IsSettled context) :
    ∃ branches, whole.branches context = .ok (some branches) := by
  obtain ⟨branches?, hbranches⟩ := (exists_branches_iff context whole).mpr fun asked hasked ↦
    isSettled_of_questions fun question hquestion ↦
      h question (mem_questions_of_mem_reported hasked hquestion)
  rcases hwhole with hall | hany
  · obtain rfl := all_eq_ok hall
    obtain ⟨reports, hreports, -⟩ := bind_eq_ok_iff.mp hbranches
    exact ⟨_, by rw [branches, hreports]; rfl⟩
  · obtain rfl := any_eq_ok hany
    obtain ⟨made, hmade, -⟩ := bind_eq_ok_iff.mp hbranches
    exact ⟨made, by rw [branches, hmade]; rfl⟩

/-! ### What branches show -/

/-- What the branches of a combination stand for: the combination itself, if all of its parts have
to hold, or else its parts. -/
def alternatives : Condition → List Condition
  | conjunction parts => [conjunction parts]
  | disjunction parts => parts
  | _ => []

mutual

/-- The conditions on which the branch for a condition shows reports: the parts of one for all of
several, what the branches for the parts would show of one for any of several, and any other
condition itself. -/
def displayed : Condition → List Condition
  | conjunction parts => parts
  | disjunction parts => displayedAmong parts
  | condition => [condition]

/-- What the branches for the conditions show, one after another. -/
def displayedAmong : List Condition → List Condition
  | [] => []
  | part :: rest => part.displayed ++ displayedAmong rest

end

/-- The report is one on the condition, and has passed as it is answered. -/
def IsReportedBy (context : Context) (condition : Condition) (report : Report) : Prop :=
  report.name = condition.name ∧ (report.passed = true ↔ condition.holds context = .ok true)

/-- The branch has passed as the condition is answered, and shows the reports of its branch. -/
structure IsShownBy (context : Context) (condition : Condition) (branch : Branch) : Prop where
  passed_iff : branch.passed = true ↔ condition.holds context = .ok true
  reports : List.Forall₂ (IsReportedBy context) condition.displayed branch.reports

theorem isReportedBy_mk {answer : Bool} {description : String} {branches : List Branch}
    (hanswer : condition.holds context = .ok answer) :
    IsReportedBy context condition (.mk condition.name answer description branches) :=
  ⟨rfl, by simp [hanswer, Report.passed]⟩

theorem reportedBy_partReports {reports : List Report}
    (h : partReports context parts = .ok reports) :
    List.Forall₂ (IsReportedBy context) parts reports := by
  induction parts generalizing reports with
  | nil =>
    obtain rfl := Except.ok.inj h
    exact .nil
  | cons part rest ih =>
    obtain ⟨inner, -, h⟩ := bind_eq_ok_iff.mp h
    obtain ⟨answer, hanswer, h⟩ := bind_eq_ok_iff.mp h
    obtain ⟨description, -, h⟩ := bind_eq_ok_iff.mp h
    obtain ⟨others, hothers, h⟩ := bind_eq_ok_iff.mp h
    obtain rfl := Except.ok.inj h
    exact .cons (isReportedBy_mk hanswer) (ih hothers)

/-- All reports have passed if and only if all of the conditions that they are on hold. -/
theorem all_passed_iff {reports : List Report}
    (h : List.Forall₂ (IsReportedBy context) parts reports) :
    (∀ report ∈ reports, report.passed = true) ↔ ∀ part ∈ parts, part.holds context = .ok true := by
  induction h with
  | nil => simp
  | cons hreport hrest ih =>
    rw [List.forall_mem_cons, List.forall_mem_cons, hreport.2, ih]

/-- What is no combination has no branches, and is shown itself. -/
theorem displayed_of_branches_eq_none (h : condition.branches context = .ok none) :
    condition.displayed = [condition] := by
  cases condition with
  | conjunction parts =>
    obtain ⟨reports, -, h⟩ := bind_eq_ok_iff.mp h
    cases h
  | disjunction parts =>
    obtain ⟨branches, -, h⟩ := bind_eq_ok_iff.mp h
    cases h
  | _ => rfl

/-- The branches for the parts show them, if the branches of each part that is a combination show
what is displayed for it. -/
theorem shownBy_partBranches {branches : List Branch}
    (hinner : ∀ part ∈ parts, ∀ inner, part.branches context = .ok (some inner) →
      List.Forall₂ (IsReportedBy context) part.displayed (inner.flatMap Branch.reports))
    (h : partBranches context parts = .ok branches) :
    List.Forall₂ (IsShownBy context) parts branches := by
  induction parts generalizing branches with
  | nil =>
    obtain rfl := Except.ok.inj h
    exact .nil
  | cons part rest ih =>
    obtain ⟨hpart, hrest⟩ := List.forall_mem_cons.mp hinner
    obtain ⟨inner?, hbranches, h⟩ := bind_eq_ok_iff.mp h
    cases inner? with
    | some inner =>
      obtain ⟨answer, hanswer, h⟩ := bind_eq_ok_iff.mp h
      obtain ⟨others, hothers, h⟩ := bind_eq_ok_iff.mp h
      obtain rfl := Except.ok.inj h
      exact .cons ⟨by simp [hanswer, Branch.passed], hpart inner hbranches⟩ (ih hrest hothers)
    | none =>
      obtain ⟨answer, hanswer, h⟩ := bind_eq_ok_iff.mp h
      obtain ⟨description, -, h⟩ := bind_eq_ok_iff.mp h
      obtain ⟨others, hothers, h⟩ := bind_eq_ok_iff.mp h
      obtain rfl := Except.ok.inj h
      refine .cons ⟨by simp [hanswer, Branch.passed], ?_⟩ (ih hrest hothers)
      rw [displayed_of_branches_eq_none hbranches]
      exact .cons (isReportedBy_mk hanswer) .nil

theorem reportedBy_displayedAmong {branches : List Branch}
    (h : List.Forall₂ (IsShownBy context) parts branches) :
    List.Forall₂ (IsReportedBy context) (displayedAmong parts)
      (branches.flatMap Branch.reports) := by
  induction h with
  | nil => exact .nil
  | cons hshown hrest ih => exact List.rel_append hshown.reports ih

/-- Taken together the branches of a combination show what is displayed for it. -/
theorem reportedBy_branches {branches : List Branch}
    (h : condition.branches context = .ok (some branches)) :
    List.Forall₂ (IsReportedBy context) condition.displayed
      (branches.flatMap Branch.reports) := by
  induction condition using induct generalizing branches with
  | conjunction parts ih =>
    obtain ⟨reports, hreports, h⟩ := bind_eq_ok_iff.mp h
    obtain rfl := Option.some.inj (Except.ok.inj h)
    rw [List.flatMap_singleton]
    exact reportedBy_partReports hreports
  | disjunction parts ih =>
    obtain ⟨made, hmade, h⟩ := bind_eq_ok_iff.mp h
    obtain rfl := Option.some.inj (Except.ok.inj h)
    exact reportedBy_displayedAmong
      (shownBy_partBranches (fun part hpart inner ↦ ih part hpart) hmade)
  | _ => cases Except.ok.inj h

/-- The branches of a combination stand for its alternatives. -/
theorem shows_of_branches {branches : List Branch}
    (h : condition.branches context = .ok (some branches)) :
    List.Forall₂ (IsShownBy context) condition.alternatives branches := by
  cases condition with
  | conjunction parts =>
    obtain ⟨reports, hreports, h⟩ := bind_eq_ok_iff.mp h
    obtain rfl := Option.some.inj (Except.ok.inj h)
    have hall := reportedBy_partReports hreports
    refine .cons ⟨?_, hall⟩ .nil
    rw [holds, holdAll_eq_true_iff, ← all_passed_iff hall, Branch.passed, List.all_eq_true]
  | disjunction parts =>
    obtain ⟨made, hmade, h⟩ := bind_eq_ok_iff.mp h
    obtain rfl := Option.some.inj (Except.ok.inj h)
    exact shownBy_partBranches (fun part hpart inner ↦ reportedBy_branches) hmade
  | _ => cases Except.ok.inj h

/-! ### Branches that agree with their reports -/

/-- The condition is one for any of several, some of which hold and some of which do not. -/
def IsDivided (context : Context) (condition : Condition) : Prop :=
  ∃ parts, condition = disjunction parts ∧
    (∃ part ∈ parts, part.holds context = .ok true) ∧
    ∃ part ∈ parts, part.holds context = .ok false

/-- Any of several settled conditions hold if and only if one of them does. -/
theorem holds_disjunction_iff (h : ∀ part ∈ parts, part.IsSettled context) :
    (disjunction parts).holds context = .ok true ↔
      ∃ part ∈ parts, part.holds context = .ok true := by
  have hpassed : ∀ {condition : Condition}, condition.IsSettled context →
      ((condition.verdict context).passed = true ↔ condition.holds context = .ok true) :=
    fun hsettled ↦ passed_iff.trans (and_iff_left hsettled.2)
  rw [← hpassed (isSettled_disjunction_iff.mpr h), passed_disjunction h, List.any_eq_true]
  exact exists_congr fun part ↦ and_congr_right fun hpart ↦ hpassed (h part hpart)

/-- What is displayed for a condition that is not for any of several holds if and only if the
condition does. -/
theorem displayed_holds_iff (h : ∀ parts, condition ≠ disjunction parts) :
    (∀ shown ∈ condition.displayed, shown.holds context = .ok true) ↔
      condition.holds context = .ok true := by
  cases condition with
  | conjunction parts => rw [displayed, holds, holdAll_eq_true_iff]
  | disjunction parts => exact absurd rfl (h parts)
  | _ => exact List.forall_mem_singleton

/-- The parts of a condition for any of several, none of which is such a condition, hold if and only
if all that is displayed for it does. -/
theorem displayedAmong_holds_iff (h : ∀ part ∈ parts, ∀ inner, part ≠ disjunction inner) :
    (∀ shown ∈ displayedAmong parts, shown.holds context = .ok true) ↔
      ∀ part ∈ parts, part.holds context = .ok true := by
  induction parts with
  | nil => simp [displayedAmong]
  | cons part rest ih =>
    obtain ⟨hpart, hrest⟩ := List.forall_mem_cons.mp h
    rw [displayedAmong, List.forall_mem_append, List.forall_mem_cons, displayed_holds_iff hpart,
      ih hrest]

/-- Inside any of several conditions there are no further conditions for any of several that
contain one themselves. -/
theorem ne_disjunction_of_any {alternative inner : Condition} {innerParts : List Condition}
    (hany : Condition.any parts = .ok (disjunction parts)) (halternative : alternative ∈ parts)
    (heq : alternative = disjunction innerParts) (hinner : inner ∈ innerParts)
    (deepest : List Condition) : inner ≠ disjunction deepest := by
  rintro rfl
  have hlimit := (any_eq_ok_iff.mp hany).2.2.2
  have hshallow := depth_le_depths halternative
  have hdeep := depth_le_depths hinner
  rw [heq, depth] at hshallow
  rw [depth] at hdeep
  have hmaximum : maximumDepth = 2 := rfl
  omega

/-- A condition agrees with all that is displayed for it, unless it is divided. -/
theorem holds_iff_displayed (hmade : condition.IsMade) (hsettled : condition.IsSettled context)
    (hflat : ∀ parts, condition = disjunction parts →
      ∀ part ∈ parts, ∀ inner, part ≠ disjunction inner) :
    (condition.holds context = .ok true ↔
      ∀ shown ∈ condition.displayed, shown.holds context = .ok true) ↔
        ¬ condition.IsDivided context := by
  by_cases hany : ∃ parts, condition = disjunction parts
  · obtain ⟨parts, rfl⟩ := hany
    have hparts := isSettled_disjunction_iff.mp hsettled
    rw [displayed, displayedAmong_holds_iff (hflat parts rfl), holds_disjunction_iff hparts]
    have hnone : parts ≠ [] := (any_eq_ok_iff.mp hmade.any_eq_ok).2.1
    constructor
    · rintro hagree ⟨others, heq, hsome, part, hpart, hfalse⟩
      obtain rfl := disjunction.inj heq
      cases hfalse.symm.trans (hagree.mp hsome part hpart)
    · intro hundivided
      refine ⟨fun hsome part hpart ↦ ?_, fun hall ↦ ?_⟩
      · obtain ⟨answer, hanswer⟩ := (hparts part hpart).1
        cases answer with
        | true => exact hanswer
        | false => exact absurd ⟨parts, rfl, hsome, part, hpart, hanswer⟩ hundivided
      · obtain ⟨part, hpart⟩ := List.exists_mem_of_ne_nil parts hnone
        exact ⟨part, hpart, hall part hpart⟩
  · refine iff_of_true (displayed_holds_iff ?_).symm ?_
    · exact fun parts heq ↦ hany ⟨parts, heq⟩
    · exact fun ⟨parts, heq, _⟩ ↦ hany ⟨parts, heq⟩

section Whole

variable {whole alternative : Condition} {branches : List Branch}

/-- A combination holds if and only if one of its alternatives does. -/
theorem holds_iff_alternatives
    (hwhole : Condition.all parts = .ok whole ∨ Condition.any parts = .ok whole)
    (hsettled : whole.IsSettled context) :
    whole.holds context = .ok true ↔
      ∃ alternative ∈ whole.alternatives, alternative.holds context = .ok true := by
  rcases hwhole with hall | hany
  · obtain rfl := all_eq_ok hall
    simp [alternatives]
  · obtain rfl := any_eq_ok hany
    exact holds_disjunction_iff (isSettled_disjunction_iff.mp hsettled)

/-- A combination that is settled is one of settled alternatives, each of which agrees with all that
is displayed for it, unless it is divided. -/
theorem alternative_agrees_iff (hparts : ∀ part ∈ parts, part.IsMade)
    (hwhole : Condition.all parts = .ok whole ∨ Condition.any parts = .ok whole)
    (hsettled : whole.IsSettled context) (hmem : alternative ∈ whole.alternatives) :
    (alternative.holds context = .ok true ↔
      ∀ shown ∈ alternative.displayed, shown.holds context = .ok true) ↔
        ¬ alternative.IsDivided context := by
  rcases hwhole with hall | hany
  · obtain rfl := all_eq_ok hall
    obtain rfl := List.mem_singleton.mp hmem
    exact holds_iff_displayed (.all hparts hall) hsettled nofun
  · obtain rfl := any_eq_ok hany
    have halternative := isSettled_disjunction_iff.mp hsettled alternative hmem
    exact holds_iff_displayed (hparts alternative hmem) halternative fun inner heq part hpart ↦
      ne_disjunction_of_any hany hmem heq hpart

/-- One of the branches has passed if and only if one of the conditions that they show holds. -/
theorem exists_passed_iff (h : List.Forall₂ (IsShownBy context) parts branches) :
    (∃ branch ∈ branches, branch.passed = true) ↔
      ∃ part ∈ parts, part.holds context = .ok true := by
  induction h with
  | nil => simp
  | cons hshown hrest ih => simp only [List.mem_cons, exists_eq_or_imp, hshown.passed_iff, ih]

/-- When no question fails, a combination made of questions has branches: it holds if and only if
one of them has passed, and each has passed if and only if its alternative holds.  All reports of
a branch have passed just when the branch has, except if the alternative is divided. -/
theorem branches_agree_iff (hparts : ∀ part ∈ parts, part.IsMade)
    (hwhole : Condition.all parts = .ok whole ∨ Condition.any parts = .ok whole)
    (hquestions : ∀ question ∈ whole.questions, question.IsSettled context) :
    ∃ answer branches, whole.holds context = .ok answer ∧
      whole.branches context = .ok (some branches) ∧
      (answer = true ↔ ∃ branch ∈ branches, branch.passed = true) ∧
      List.Forall₂ (fun alternative branch ↦
        (branch.passed = true ↔ alternative.holds context = .ok true) ∧
        ((branch.passed = true ↔ ∀ report ∈ branch.reports, report.passed = true) ↔
          ¬ alternative.IsDivided context)) whole.alternatives branches := by
  have hsettled : whole.IsSettled context := isSettled_of_questions hquestions
  obtain ⟨answer, hanswer⟩ := hsettled.1
  obtain ⟨branches, hbranches⟩ := exists_branches_of_questions hwhole hquestions
  have hshows := shows_of_branches hbranches
  refine ⟨answer, branches, hanswer, hbranches, ?_, ?_⟩
  · rw [exists_passed_iff hshows, ← holds_iff_alternatives hwhole hsettled, hanswer,
      Except.ok.injEq]
  · have hagrees := (List.forall₂_and_left _ _).mpr
      ⟨fun alternative ↦ alternative_agrees_iff hparts hwhole hsettled, hshows⟩
    refine hagrees.imp fun alternative branch ⟨hdivided, hshown⟩ ↦ ⟨hshown.passed_iff, ?_⟩
    rw [hshown.passed_iff, all_passed_iff hshown.reports, hdivided]

end Whole

/-- Fifteen points or five spades, or else five hearts. -/
def openingOrHearts : Condition :=
  disjunction [disjunction [pointsMin 15, suitMin .spades 5], suitMin .hearts 5]

theorem openingOrHearts_parts :
    ∀ part ∈ [disjunction [pointsMin 15, suitMin .spades 5], suitMin .hearts 5], part.IsMade := by
  have hquestions : ∀ part ∈ [pointsMin 15, suitMin .spades 5], part.IsMade :=
    List.forall_mem_cons.mpr ⟨.holding _, List.forall_mem_singleton.mpr (.holding _)⟩
  exact List.forall_mem_cons.mpr
    ⟨.any hquestions rfl, List.forall_mem_singleton.mpr (.holding _)⟩

theorem openingOrHearts_questions (context : Context) :
    ∀ question ∈ openingOrHearts.questions, question.IsSettled context := by
  have htotal : ∀ question ∈ openingOrHearts.questions, question.isTotal = true := by decide
  exact fun question hquestion ↦ isSettled_of_isTotal (htotal question hquestion)

/-- Fifteen points or five spades, or else five hearts, asked of a hand of seventeen points that has
neither. -/
theorem branches_agree_iff_openingOrHearts :
    let context := Context.ofHand .strongNotrump (.empty (some .north)) .north
    ∃ answer branches, openingOrHearts.holds context = .ok answer ∧
      openingOrHearts.branches context = .ok (some branches) ∧
      (answer = true ↔ ∃ branch ∈ branches, branch.passed = true) ∧
      List.Forall₂ (fun alternative branch ↦
        (branch.passed = true ↔ alternative.holds context = .ok true) ∧
        ((branch.passed = true ↔ ∀ report ∈ branch.reports, report.passed = true) ↔
          ¬ alternative.IsDivided context)) openingOrHearts.alternatives branches :=
  branches_agree_iff openingOrHearts_parts (.inr rfl) (openingOrHearts_questions _)

/-- The branch for fifteen points or five spades has passed with fifteen points, but shows that
there are no five spades. -/
theorem branches_disagree_openingOrHearts :
    let context := Context.ofHand .strongNotrump (.empty (some .north)) .north
    openingOrHearts.IsMade ∧
      (∀ question ∈ openingOrHearts.questions, question.IsSettled context) ∧
      ∃ branches, openingOrHearts.branches context = .ok (some branches) ∧
        ∃ branch ∈ branches, branch.passed = true ∧
          ∃ report ∈ branch.reports, report.passed = false :=
  ⟨.any openingOrHearts_parts rfl, openingOrHearts_questions _, _, rfl, _, List.mem_cons_self,
    rfl, _, List.mem_cons_of_mem _ List.mem_cons_self, rfl⟩

end Condition

end BridgeBidding
