import BridgeBidding.Proofs.Auction.Legality
import BridgeBidding.Proofs.Condition.Totality
import BridgeBidding.Proofs.Convention.Suggestion
import BridgeBidding.Proofs.Trainer.Grading
import BridgeBidding.Trainer.Suggesting

/-!
# Suggestions that can be had and made

A convention that asks only total conditions suggests a call or none, and never fails to say which
(`Convention.exists_suggest?_of_isTotal`).  So does a trainer with the built-in conventions, for any
auction, as long as there is a hand for every seat (`Trainer.exists_suggestNext?`).

Whatever the conventions, what is suggested for the seat to call is permitted to it, and so it can
be added to the auction (`Trainer.exists_add_of_suggestNext?`).
-/

set_option autoImplicit false
set_option relaxedAutoImplicit false

namespace BridgeBidding

open Success

namespace RuleTree

theorem condition_mem_of_mem_nodes {tree : RuleTree} {key : Nat} {name : String}
    {condition : Condition} {yes no : RuleTree}
    (h : decision key name condition yes no ∈ tree.nodes) : condition ∈ tree.conditions := by
  induction tree with
  | decision otherKey otherName other otherYes otherNo ihyes ihno =>
    rcases List.mem_cons.mp h with heq | hbelow
    · obtain ⟨-, -, rfl, -, -⟩ := decision.inj heq
      exact List.mem_cons_self
    · refine List.mem_cons_of_mem _ (List.mem_append.mpr ?_)
      exact (List.mem_append.mp hbelow).imp ihyes ihno
  | _ => simp [nodes] at h

/-- A descent asks conditions of the tree. -/
theorem condition_mem_of_mem_steps {tree : RuleTree} {context : Context} {step : Step}
    (h : step ∈ (tree.descend context).steps) : step.condition ∈ tree.conditions := by
  obtain ⟨earlier, later, hsplit⟩ := List.append_of_mem h
  have hnode := (descendFrom_at_step hsplit).1
  unfold Step.node at hnode
  by_cases hpassed : step.passed = true
  · rw [if_pos hpassed] at hnode
    exact condition_mem_of_mem_nodes hnode
  · rw [if_neg hpassed] at hnode
    exact condition_mem_of_mem_nodes hnode

end RuleTree

/-- A decision with a total condition can be reported. -/
theorem Step.exists_report_of_isTotal {context : Context} {step : Step}
    (h : step.condition.isTotal = true) : ∃ report, step.report context = .ok report := by
  unfold report
  cases step.verdict.failure? with
  | some failure => exact ⟨_, rfl⟩
  | none =>
    obtain ⟨branches, hbranches⟩ := Condition.exists_branches_of_isTotal context h
    exact ⟨_, by rw [hbranches]; rfl⟩

namespace Convention

variable {convention : Convention}

/-- A convention that asks total conditions only suggests a call or none. -/
theorem exists_suggest?_of_isTotal
    (h : ∀ condition ∈ convention.tree.conditions, condition.isTotal = true)
    (context : Context) (skipIllegal : Bool) :
    ∃ suggestion?, convention.suggest? context skipIllegal = .ok suggestion? := by
  have hreports : ∃ reports, Step.reports context (convention.tree.descend context).steps =
      .ok reports := by
    rw [Step.exists_reports_iff]
    intro step hstep
    exact Step.exists_report_of_isTotal (h _ (RuleTree.condition_mem_of_mem_steps hstep))
  cases hfound : convention.suggest? context skipIllegal with
  | ok suggestion? => exact ⟨suggestion?, rfl⟩
  | error failure => exact absurd hreports (exists_suggest?_error_iff.mp ⟨failure, hfound⟩).2

end Convention

namespace Trainer

variable {trainer : Trainer} {context : Context} {suggestion : Suggestion} {ids : List String}

/-! ### What is suggested is permitted -/

theorem permits_of_firstSuggestion?
    (h : trainer.firstSuggestion? context ids = .ok (some suggestion)) :
    context.auction.permits suggestion.call context.seat = true := by
  induction ids with
  | nil => cases h
  | cons id rest ih =>
    obtain ⟨convention, -, h⟩ := bind_eq_ok_iff.mp h
    obtain ⟨found, hfound, h⟩ := bind_eq_ok_iff.mp h
    cases found with
    | none => exact ih h
    | some first =>
      obtain rfl := Option.some.inj (Except.ok.inj h)
      exact Convention.permits_of_suggest? (mapError_eq_ok_iff.mp hfound)

theorem permits_of_suggest? (h : trainer.suggest? context ids = .ok (some suggestion)) :
    context.auction.permits suggestion.call context.seat = true := by
  unfold suggest? at h
  split at h
  · exact permits_of_firstSuggestion? h
  · cases h

/-- There is a suggestion only for the seat whose turn it is, and the call is permitted to it. -/
theorem permits_of_suggestNext? {deal : Deal} {auction : Auction} {systems : Systems}
    (h : trainer.suggestNext? deal auction systems = .ok (some suggestion)) :
    ∃ seat, auction.toAct? = some seat ∧ auction.permits suggestion.call seat = true := by
  unfold suggestNext? at h
  cases hturn : auction.toAct? with
  | none => cases hover : auction.isOver <;> simp [hover, hturn] at h
  | some seat =>
    refine ⟨seat, rfl, ?_⟩
    cases hover : auction.isOver with
    | true => simp [hover] at h
    | false =>
      simp only [hover, hturn] at h
      cases hids : systems.ofPartnership seat with
      | nil => simp [hids] at h
      | cons id rest =>
        simp only [hids] at h
        obtain ⟨hand, -, h⟩ := bind_eq_ok_iff.mp h
        exact permits_of_suggest? h

/-- Whatever the conventions, a call that is suggested can be added for the seat whose turn it
is. -/
theorem exists_add_of_suggestNext? {deal : Deal} {auction : Auction} {systems : Systems}
    (h : trainer.suggestNext? deal auction systems = .ok (some suggestion)) :
    ∃ seat next, auction.toAct? = some seat ∧
      auction.add ⟨seat, suggestion.call⟩ = .ok next := by
  obtain ⟨seat, hturn, hpermits⟩ := permits_of_suggestNext? h
  exact ⟨seat, _, hturn, (Auction.add_eq_ok_iff hturn).mpr ⟨rfl, hpermits, rfl⟩⟩

/-! ### The built-in conventions always have an answer -/

/-- An id of a built-in convention is found. -/
theorem exists_convention (hregistry : trainer.registry = .standard) {id : String}
    (hid : id ∈ Registry.standard.ids) :
    ∃ convention ∈ Registry.builtin, trainer.convention id = .ok convention := by
  obtain ⟨named, hnamed, hname⟩ := List.mem_map.mp hid
  cases hfind : Registry.standard.find? id with
  | none =>
    have hmissing := List.find?_eq_none.mp hfind named hnamed
    exact absurd hname (by simpa using hmissing)
  | some convention =>
    refine ⟨convention, List.mem_of_find?_eq_some hfind, ?_⟩
    rw [Trainer.convention, hregistry, Registry.get, hfind]
    rfl

theorem exists_firstSuggestion? (hregistry : trainer.registry = .standard)
    (hids : ∀ id ∈ ids, id ∈ Registry.standard.ids) (context : Context) :
    ∃ suggestion?, trainer.firstSuggestion? context ids = .ok suggestion? := by
  induction ids with
  | nil => exact ⟨none, rfl⟩
  | cons id rest ih =>
    obtain ⟨hid, hrest⟩ := List.forall_mem_cons.mp hids
    obtain ⟨convention, hbuiltin, hconvention⟩ := exists_convention hregistry hid
    obtain ⟨found, hfound⟩ := Convention.exists_suggest?_of_isTotal
      (fun condition ↦ Registry.isTotal_of_mem_builtin hbuiltin) context true
    rw [firstSuggestion?, hconvention, ok_bind, hfound, ok_mapError, ok_bind]
    cases found with
    | none => exact ih hrest
    | some first => exact ⟨some first, rfl⟩

/-- With the built-in conventions and a hand for every seat, there is a suggestion for every
auction, or it is known that there is none. -/
theorem exists_suggestNext? (hregistry : trainer.registry = .standard) {systems : Systems}
    (hsystems : ∀ seat, ∀ id ∈ systems seat, id ∈ Registry.standard.ids) {deal : Deal}
    (hhands : ∀ seat, (deal.hand? seat).isSome = true) (auction : Auction) :
    ∃ suggestion?, trainer.suggestNext? deal auction systems = .ok suggestion? := by
  unfold suggestNext?
  cases hover : auction.isOver with
  | true => exact ⟨none, rfl⟩
  | false =>
    cases hturn : auction.toAct? with
    | none => exact ⟨none, rfl⟩
    | some seat =>
      have hids : ∀ id ∈ systems.ofPartnership seat, id ∈ Registry.standard.ids := by
        unfold Systems.ofPartnership
        split
        · exact hsystems seat.partner
        · exact hsystems seat
      obtain ⟨hand, hhand⟩ := Option.isSome_iff_exists.mp (hhands seat)
      dsimp only
      split
      · exact ⟨none, rfl⟩
      · rw [Deal.hand, hhand, ok_mapError, ok_bind, suggest?]
        split
        · exact exists_firstSuggestion? hregistry hids _
        · exact ⟨none, rfl⟩

end Trainer

end BridgeBidding
