import BridgeBidding.Convention
import BridgeBidding.Proofs.Success

/-!
# What a convention suggests

A suggestion carries the call of a bid that the descent comes to, and the descent itself
(`Convention.exists_bid_of_suggest?`).  If illegal calls are skipped, there is a suggestion only if
that call is permitted, and for a call that is permitted skipping makes no difference
(`Convention.suggest?_skip_eq_iff`).
-/

set_option autoImplicit false
set_option relaxedAutoImplicit false

namespace BridgeBidding.Convention

open Success

variable {convention : Convention} {context : Context} {call : Call} {suggestion : Suggestion}
  {skipIllegal : Bool}

/-! ### What is suggested -/

/-- What is suggested is the call of the descent, and it has not been skipped. -/
theorem exists_bid_of_suggest?
    (h : convention.suggest? context skipIllegal = .ok (some suggestion)) :
    suggestion.descent = convention.tree.descend context ∧
      (∃ node, suggestion.descent.ending = .bid node suggestion.call) ∧
      (skipIllegal = true → context.auction.permits suggestion.call context.seat = true) := by
  cases hending : (convention.tree.descend context).ending with
  | bid node call =>
    simp only [suggest?, hending] at h
    by_cases hskip : (skipIllegal && !context.auction.permits call context.seat) = true
    · rw [if_pos hskip] at h
      cases h
    · rw [if_neg hskip] at h
      obtain ⟨reports, -, hmade⟩ := bind_eq_ok_iff.mp h
      obtain rfl := Option.some.inj (Except.ok.inj hmade)
      refine ⟨rfl, ⟨node, hending⟩, ?_⟩
      rintro rfl
      simpa using hskip
  | _ =>
    simp only [suggest?, hending] at h
    cases h

/-- If illegal calls are skipped, what is suggested is permitted. -/
theorem permits_of_suggest? (h : convention.suggest? context true = .ok (some suggestion)) :
    context.auction.permits suggestion.call context.seat = true :=
  (exists_bid_of_suggest? h).2.2 rfl

/-! ### Skipping illegal calls -/

/-- Without a call there is nothing to skip. -/
theorem suggest?_of_no_call
    (hcall : (convention.tree.descend context).ending.call? = none) (skipIllegal : Bool) :
    convention.suggest? context skipIllegal = .ok none := by
  cases hending : (convention.tree.descend context).ending with
  | bid node made =>
    rw [hending] at hcall
    cases hcall
  | _ => simp only [suggest?, hending]

/-- A call is left out as illegal exactly if it is not permitted. -/
theorem suggest?_eq_none_iff
    (hcall : (convention.tree.descend context).ending.call? = some call) :
    convention.suggest? context true = .ok none ↔
      ¬ context.auction.permits call context.seat = true := by
  rw [suggest?]
  cases hending : (convention.tree.descend context).ending with
  | bid node made =>
    obtain rfl : made = call := by simpa [hending, Ending.call?] using hcall
    by_cases hpermits : context.auction.permits made context.seat = true
    · cases Step.reports context (convention.tree.descend context).steps with
      | ok reports => simp [hpermits]
      | error failure => simp [hpermits]
    · simp [hpermits]
  | failedBid node failure => simp [hending, Ending.call?] at hcall
  | deadEnd reason => simp [hending, Ending.call?] at hcall

/-- Skipping illegal calls makes no difference to a call exactly if it is permitted. -/
theorem suggest?_skip_eq_iff {node : BidNode}
    (hending : (convention.tree.descend context).ending = .bid node call) :
    convention.suggest? context true = convention.suggest? context false ↔
      context.auction.permits call context.seat = true := by
  by_cases hpermits : context.auction.permits call context.seat = true
  · refine iff_of_true ?_ hpermits
    simp only [suggest?, hending, hpermits, Bool.not_true, Bool.and_false]
  · refine iff_of_false (fun hsame ↦ ?_) hpermits
    have hcall : (convention.tree.descend context).ending.call? = some call := by
      rw [hending]
      rfl
    rw [(suggest?_eq_none_iff hcall).mpr hpermits] at hsame
    simp only [suggest?, hending, Bool.false_and, Bool.false_eq_true, if_false] at hsame
    obtain ⟨reports, -, hmade⟩ := bind_eq_ok_iff.mp hsame.symm
    cases hmade

end BridgeBidding.Convention
