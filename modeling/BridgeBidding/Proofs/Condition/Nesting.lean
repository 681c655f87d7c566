import BridgeBidding.Proofs.Condition.Branches
import Mathlib.Data.List.Chain

/-!
# How deep conditions for any of several are nested

A condition is made of operands, these of operands of their own, and so on down to questions.  On
such a way down there may be conditions for any of several, with opposites and conditions for all of
several between them.  `Condition.Nests` counts them.

The depth of a condition is the greatest such number, if no question goes by the name of a condition
for any of several (`Condition.Nests.le_depth`, `Condition.nests_depth`).  So what is made within
the limits never has more than two of them on a way down, and several conditions can be combined
exactly if there are one to four and none of them has two (`Condition.nesting_limited`).
-/

set_option autoImplicit false
set_option relaxedAutoImplicit false

namespace BridgeBidding.Condition

variable {condition operand : Condition} {rest parts : List Condition} {count : Nat}

/-! ### Ways down -/

/-- The conditions that the condition is made of. -/
def operands : Condition → List Condition
  | negation condition => [condition]
  | conjunction parts | disjunction parts => parts
  | _ => []

/-- The condition is one for any of several. -/
def isDisjunction : Condition → Bool
  | disjunction _ => true
  | _ => false

/-- Every condition of the chain but the first is an operand of the one before it. -/
def IsDescending (chain : List Condition) : Prop :=
  chain.IsChain fun whole operand ↦ operand ∈ whole.operands

/-- On some way down from the condition there are so many conditions for any of several. -/
def Nests (condition : Condition) (count : Nat) : Prop :=
  ∃ rest, IsDescending (condition :: rest) ∧ (condition :: rest).countP isDisjunction = count

/-- No question that the condition is made of has the name of a condition for any of several. -/
def IsPlain (condition : Condition) : Prop :=
  ∀ question ∈ condition.questions, question.name ≠ "or"

theorem nests_alone (condition : Condition) :
    condition.Nests (if condition.isDisjunction then 1 else 0) :=
  ⟨[], .singleton condition, List.countP_singleton⟩

theorem Nests.above (h : operand.Nests count) (hoperand : operand ∈ condition.operands) :
    condition.Nests (count + if condition.isDisjunction then 1 else 0) := by
  obtain ⟨rest, hdescending, rfl⟩ := h
  exact ⟨operand :: rest, .cons_cons hoperand hdescending, List.countP_cons⟩

theorem IsPlain.of_mem_operands (h : condition.IsPlain)
    (hoperand : operand ∈ condition.operands) : operand.IsPlain := by
  intro question hquestion
  cases condition with
  | negation inner =>
    obtain rfl := List.mem_singleton.mp hoperand
    exact h question hquestion
  | conjunction parts | disjunction parts =>
    exact h question (mem_questionsAmong_iff.mpr ⟨operand, hoperand, hquestion⟩)
  | _ => cases hoperand

/-! ### Depths -/

theorem exists_depth_eq_depths (h : parts ≠ []) : ∃ part ∈ parts, part.depth = depths parts := by
  induction parts with
  | nil => exact absurd rfl h
  | cons part rest ih =>
    rw [depths]
    rcases Nat.le_total (depths rest) part.depth with hle | hle
    · exact ⟨part, List.mem_cons_self, (max_eq_left hle).symm⟩
    · by_cases hrest : rest = []
      · subst hrest
        exact ⟨part, List.mem_cons_self, (max_eq_left (Nat.zero_le _)).symm⟩
      · obtain ⟨deepest, hmem, hdepth⟩ := ih hrest
        exact ⟨deepest, List.mem_cons_of_mem _ hmem, hdepth.trans (max_eq_right hle).symm⟩

/-- A condition is as deep as its operands, and one deeper if it is for any of several. -/
theorem depth_operand_le (h : operand ∈ condition.operands) :
    operand.depth + (if condition.isDisjunction then 1 else 0) ≤ condition.depth := by
  cases condition with
  | negation inner =>
    obtain rfl := List.mem_singleton.mp h
    exact Nat.le_refl _
  | conjunction parts => exact depth_le_depths h
  | disjunction parts => exact Nat.succ_le_succ (depth_le_depths h)
  | _ => cases h

theorem Nests.le_depth (h : condition.Nests count) : count ≤ condition.depth := by
  obtain ⟨rest, hdescending, rfl⟩ := h
  induction rest generalizing condition with
  | nil =>
    rw [List.countP_singleton]
    cases condition with
    | disjunction parts => exact Nat.succ_le_succ (Nat.zero_le _)
    | _ => exact Nat.zero_le _
  | cons operand rest ih =>
    obtain ⟨hoperand, hrest⟩ := List.isChain_cons_cons.mp hdescending
    rw [List.countP_cons]
    exact (Nat.add_le_add_right (ih hrest) _).trans (depth_operand_le hoperand)

/-- The operands of a combination lead down as deep as the combination goes. -/
theorem nests_of_depths {combination : Condition} (hoperands : combination.operands = parts)
    (ih : ∀ part ∈ parts, part.Nests part.depth) :
    combination.Nests (depths parts + if combination.isDisjunction then 1 else 0) := by
  by_cases hnone : parts = []
  · subst hnone
    rw [depths, Nat.zero_add]
    exact nests_alone combination
  · obtain ⟨deepest, hmem, hdepth⟩ := exists_depth_eq_depths hnone
    rw [← hdepth]
    exact (ih deepest hmem).above (hoperands ▸ hmem)

/-- Some way down has as many conditions for any of several as the condition is deep. -/
theorem nests_depth (h : condition.IsPlain) : condition.Nests condition.depth := by
  induction condition using induct with
  | custom test =>
    have hname : test.name ≠ "or" := h _ List.mem_cons_self
    rw [depth, if_neg hname]
    exact nests_alone (custom test)
  | negation inner ih => exact (ih h).above List.mem_cons_self
  | conjunction parts ih | disjunction parts ih =>
    exact nests_of_depths rfl fun part hpart ↦ ih part hpart (h.of_mem_operands hpart)
  | position test => exact nests_alone (position test)
  | holding test => exact nests_alone (holding test)

/-! ### What is made within the limits -/

theorem IsMade.of_mem_operands (h : condition.IsMade) (hoperand : operand ∈ condition.operands) :
    operand.IsMade := by
  cases h with
  | negate hcondition hopposite =>
    obtain rfl := RuleTree.negate_eq_ok hopposite
    obtain rfl := List.mem_singleton.mp hoperand
    exact hcondition
  | all hparts hwhole =>
    obtain rfl := all_eq_ok hwhole
    exact hparts operand hoperand
  | any hparts hwhole =>
    obtain rfl := Condition.any_eq_ok hwhole
    exact hparts operand hoperand
  | _ => cases hoperand

theorem IsMade.depth_le (h : condition.IsMade) : condition.depth ≤ maximumDepth := by
  induction h with
  | position test => exact Nat.zero_le _
  | holding test => exact Nat.zero_le _
  | custom test =>
    rw [depth]
    split_ifs <;> decide
  | negate hcondition hopposite ih =>
    obtain rfl := RuleTree.negate_eq_ok hopposite
    exact ih
  | all hparts hwhole ih =>
    obtain rfl := all_eq_ok hwhole
    exact depths_le_iff.mpr ih
  | any hparts hwhole ih =>
    obtain ⟨rfl, -, -, hdepths⟩ := any_eq_ok_iff.mp hwhole
    exact hdepths

/-- Every condition for any of several on a way down has one to four operands. -/
theorem IsMade.length_of_mem (h : condition.IsMade) (hdescending : IsDescending (condition :: rest))
    (hmem : disjunction parts ∈ condition :: rest) : 1 ≤ parts.length ∧ parts.length ≤ 4 := by
  have hmade : ∀ member ∈ condition :: rest, member.IsMade :=
    hdescending.induction IsMade _ (fun _ _ hoperand hwhole ↦ hwhole.of_mem_operands hoperand)
      fun _ ↦ h
  obtain ⟨-, hsome, hfew, -⟩ := any_eq_ok_iff.mp (hmade _ hmem).any_eq_ok
  exact ⟨List.length_pos_iff.mpr hsome, hfew⟩

/-! ### What can be combined -/

/-- There are one to four conditions, and on no way down from one of them there are two for any of
several. -/
structure Combinable (parts : List Condition) : Prop where
  some_part : 1 ≤ parts.length
  few_parts : parts.length ≤ 4
  shallow : ∀ part ∈ parts, ∀ count, part.Nests count → count ≤ 1

/-- Why conditions cannot be combined for any of them to hold. -/
inductive Refused (parts : List Condition) : ConditionError → Prop
  | empty (hnone : parts = []) : Refused parts .emptyDisjunction
  | tooMany (hmany : 4 < parts.length) : Refused parts (.tooManyParts parts.length)
  | tooDeep {part : Condition} {count : Nat} (hpart : part ∈ parts) (hnests : part.Nests count)
      (hdeep : 1 < count)
      (hdeepest : ∀ other ∈ parts, ∀ nested, other.Nests nested → nested ≤ count) :
      Refused parts (.tooDeep (count + 1))

/-- The depths tell how deep conditions are nested. -/
theorem depths_le_iff_nests (h : ∀ part ∈ parts, part.IsPlain) {limit : Nat} :
    depths parts ≤ limit ↔ ∀ part ∈ parts, ∀ count, part.Nests count → count ≤ limit := by
  rw [depths_le_iff]
  refine forall₂_congr fun part hpart ↦ ⟨fun hdepth count hnests ↦ ?_, fun hall ↦ ?_⟩
  · exact hnests.le_depth.trans hdepth
  · exact hall _ (nests_depth (h part hpart))

theorem any_eq_ok_iff_combinable (h : ∀ part ∈ parts, part.IsPlain) :
    any parts = .ok (disjunction parts) ↔ Combinable parts := by
  rw [any_eq_ok_iff, and_iff_right rfl]
  constructor
  · rintro ⟨hsome, hfew, hdepths⟩
    exact ⟨List.length_pos_iff.mpr hsome, hfew,
      (depths_le_iff_nests h).mp (Nat.le_of_lt_succ hdepths)⟩
  · rintro ⟨hsome, hfew, hshallow⟩
    exact ⟨List.length_pos_iff.mp hsome, hfew,
      Nat.lt_succ_of_le ((depths_le_iff_nests h).mpr hshallow)⟩

/-- What is refused is refused for what makes it impossible to combine. -/
theorem refused_of_any_eq_error (h : ∀ part ∈ parts, part.IsPlain) {error : ConditionError}
    (hany : any parts = .error error) : Refused parts error := by
  unfold any at hany
  split_ifs at hany with hnone hmany hdeep
  · obtain rfl := Except.error.inj hany
    exact .empty (List.isEmpty_iff.mp hnone)
  · obtain rfl := Except.error.inj hany
    exact .tooMany hmany
  · obtain rfl := Except.error.inj hany
    have hsome : parts ≠ [] := fun hnil ↦ hnone (List.isEmpty_iff.mpr hnil)
    obtain ⟨deepest, hmem, hdepth⟩ := exists_depth_eq_depths hsome
    exact .tooDeep hmem (hdepth ▸ nests_depth (h deepest hmem)) (Nat.lt_of_succ_lt_succ hdeep)
      ((depths_le_iff_nests h).mp (Nat.le_refl _))

/-- On no way down from a condition that is made within the limits there are more than two
conditions for any of several, however many opposites and conditions for all of several stand
between them, and each of them has one to four operands.  Conditions can be combined for any of them
to hold exactly if there are one to four and none of them has two such conditions on a way down;
otherwise the error says which of the limits is broken. -/
theorem nesting_limited :
    (∀ condition, condition.IsMade → ∀ rest, IsDescending (condition :: rest) →
      (condition :: rest).countP isDisjunction ≤ 2 ∧
        ∀ parts, disjunction parts ∈ condition :: rest → 1 ≤ parts.length ∧ parts.length ≤ 4) ∧
    ∀ parts, (∀ part ∈ parts, part.IsPlain) →
      (any parts = .ok (disjunction parts) ↔ Combinable parts) ∧
        (¬ Combinable parts → ∃ error, any parts = .error error ∧ Refused parts error) := by
  constructor
  · intro condition hmade rest hdescending
    have hnests : condition.Nests _ := ⟨rest, hdescending, rfl⟩
    exact ⟨hnests.le_depth.trans hmade.depth_le, fun parts ↦ hmade.length_of_mem hdescending⟩
  · intro parts hplain
    have hiff := any_eq_ok_iff_combinable hplain
    refine ⟨hiff, fun hrefused ↦ ?_⟩
    cases hany : any parts with
    | ok made =>
      obtain rfl := any_eq_ok hany
      exact absurd (hiff.mp hany) hrefused
    | error error => exact ⟨error, rfl, refused_of_any_eq_error hplain hany⟩

/-- Fifteen points or five spades, or else five hearts, is as deep as can be, and cannot be combined
with six diamonds. -/
theorem nesting_limited_openingOrHearts :
    openingOrHearts.IsMade ∧ openingOrHearts.Nests 2 ∧
      (∀ count, openingOrHearts.Nests count → count ≤ 2) ∧
      ∃ error, any [negation openingOrHearts, suitMin .diamonds 6] = .error error ∧
        Refused [negation openingOrHearts, suitMin .diamonds 6] error := by
  have hmade : openingOrHearts.IsMade := .any openingOrHearts_parts rfl
  have hplain : openingOrHearts.IsPlain := by unfold IsPlain; decide
  have hnests : openingOrHearts.Nests 2 := nests_depth hplain
  obtain ⟨hlimit, hcombine⟩ := nesting_limited
  have hparts : ∀ part ∈ [negation openingOrHearts, suitMin .diamonds 6], part.IsPlain := by
    unfold IsPlain
    decide
  have hdeep : (negation openingOrHearts).Nests 2 := hnests.above List.mem_cons_self
  refine ⟨hmade, hnests, ?_, (hcombine _ hparts).2 fun hcombinable ↦ ?_⟩
  · rintro count ⟨rest, hdescending, rfl⟩
    exact (hlimit _ hmade rest hdescending).1
  · exact absurd (hcombinable.shallow _ List.mem_cons_self 2 hdeep) (by decide)

end BridgeBidding.Condition
