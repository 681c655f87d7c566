import BridgeBidding.Proofs.Auction.LegalCalls
import BridgeBidding.Proofs.Convention.Registering
import BridgeBidding.Proofs.Trainer.Suggesting
import BridgeBidding.Proofs.Tree.Sibling

/-!
# The right answer in a drill

In a drill for a built-in convention whose settings skip illegal calls, all legal calls are graded
alike: the grades expect the same call, for the same reasons, and that call is one of them, so it is
the right answer and there is no other (`Trainer.grade_legalCalls`).
-/

set_option autoImplicit false
set_option relaxedAutoImplicit false

namespace BridgeBidding

open Success

/-! ### One right answer -/

namespace Trainer

variable {trainer : Trainer} {drill : Drill} {call : Call} {convention : Convention}
  {context : Context}

/-- The call is graded, and as correct. -/
def gradesCorrect (trainer : Trainer) (drill : Drill) (call : Call) : Bool :=
  match trainer.grade drill call with
  | .ok grade => grade.isCorrect
  | .error _ => false

/-- For a built-in convention, nothing about a grade but the call itself depends on the call that is
made, and no permitted call is left without a grade. -/
theorem exists_grade_of_mem_builtin {skipIllegal : Bool} (hbuiltin : convention ∈ Registry.builtin)
    (hconvention : trainer.convention drill.convention = .ok convention)
    (hcontext : contextOf drill = .ok context) (hskips : drill.skipsIllegal = .ok skipIllegal) :
    ∃ grade : Grade, convention.suggest? context skipIllegal = .ok grade.expected? ∧
      ∀ call, drill.auction.permits call drill.seat = true →
        trainer.grade drill call = .ok { grade with call } := by
  obtain ⟨expected?, hexpected⟩ := Convention.exists_suggest?_of_isTotal
    (fun condition ↦ Registry.isTotal_of_mem_builtin hbuiltin) context skipIllegal
  obtain ⟨hkeys, hordered⟩ :=
    RuleTree.examine_eq_ok_iff.mp (Registry.isRegistrable_of_mem_builtin hbuiltin).1
  obtain ⟨siblings, hsiblings⟩ : ∃ siblings, convention.tree.siblings context
      ((convention.tree.descend context).ending.node?.map BidNode.key) = .ok siblings :=
    ⟨_, RuleTree.siblings_eq hkeys hordered rfl⟩
  refine ⟨⟨.pass, expected?, convention.tree.descend context, siblings⟩, hexpected, ?_⟩
  intro call hpermits
  rw [grade, if_pos hpermits, hconvention, ok_bind, hcontext, ok_bind, expectedIn, hskips, ok_bind,
    hexpected, ok_mapError, ok_bind]
  -- the descent looked at is that of the suggestion, if there is one, and so it is the same
  cases expected? with
  | none => simp only [hsiblings, ok_mapError, ok_bind, pure_eq_ok]
  | some suggestion =>
    have hdescent := (Convention.exists_bid_of_suggest? hexpected).1
    simp only [hdescent, hsiblings, ok_mapError, ok_bind, pure_eq_ok]

/-- If illegal calls are skipped, the expected call is permitted as long as the auction goes on. -/
theorem permits_expectedCall {grade : Grade}
    (hexpected : convention.suggest? context true = .ok grade.expected?)
    (hopen : context.auction.isOver = false) :
    context.auction.permits grade.expectedCall context.seat = true := by
  unfold Grade.expectedCall
  cases hfound : grade.expected? with
  | none => exact Auction.permits_pass hopen context.seat
  | some suggestion =>
    rw [hfound] at hexpected
    exact Convention.permits_of_suggest? hexpected

/-- In a drill for a built-in convention that skips illegal calls, with a hand for the seat that
practises and an auction that is not over, every legal call has a grade, all these grades are the
same but for the call made, and the expected call is the one legal call that is correct. -/
theorem grade_legalCalls {hand : Hand} (hbuiltin : convention ∈ Registry.builtin)
    (hconvention : trainer.convention drill.convention = .ok convention)
    (hskips : drill.skipsIllegal = .ok true) (hhand : drill.hand = .ok hand)
    (hopen : drill.auction.isOver = false) :
    ∃ grade : Grade,
      (∀ call ∈ drill.auction.legalCalls drill.seat,
        trainer.grade drill call = .ok { grade with call }) ∧
      grade.expectedCall ∈ drill.auction.legalCalls drill.seat ∧
      (drill.auction.legalCalls drill.seat).filter (trainer.gradesCorrect drill) =
        [grade.expectedCall] := by
  have hcontext : ∃ context, contextOf drill = .ok context ∧
      context.auction = drill.auction ∧ context.seat = drill.seat := by
    rw [contextOf, Drill.context, hhand]
    exact ⟨_, rfl, rfl, rfl⟩
  obtain ⟨context, hcontext, hauction, hseat⟩ := hcontext
  obtain ⟨grade, hexpected, hgrade⟩ :=
    exists_grade_of_mem_builtin hbuiltin hconvention hcontext hskips
  have hpermits : drill.auction.permits grade.expectedCall drill.seat = true := by
    rw [← hauction, ← hseat]
    exact permits_expectedCall hexpected (hauction ▸ hopen)
  have hmem := Auction.mem_legalCalls_iff.mpr hpermits
  have hlegal : ∀ call ∈ drill.auction.legalCalls drill.seat,
      trainer.grade drill call = .ok { grade with call } :=
    fun call hcall ↦ hgrade call (Auction.mem_legalCalls_iff.mp hcall)
  refine ⟨grade, hlegal, hmem, ?_⟩
  have hcorrect : ∀ call ∈ drill.auction.legalCalls drill.seat,
      trainer.gradesCorrect drill call = decide (call = grade.expectedCall) := by
    intro call hcall
    rw [gradesCorrect, hlegal call hcall]
    rfl
  rw [List.filter_congr hcorrect, List.filter_eq,
    List.count_eq_one_of_mem (Auction.nodup_legalCalls _ _) hmem]
  rfl

/-- With both majors opposite one notrump there is one right answer, two clubs. -/
theorem grade_legalCalls_bothMajors :
    let trainer : Trainer := ⟨.standard, none⟩
    let drill : Drill := {
      convention := "stayman"
      deal := { hand? := fun _ ↦ some .bothMajors }
      seat := .south
      auction := .ofCalls .north [.of 1 .notrump, .pass]
      iterations := 1
      settings := .record [] }
    trainer.convention drill.convention = .ok Stayman.convention ∧
      drill.skipsIllegal = .ok true ∧ drill.hand = .ok .bothMajors ∧
      drill.auction.isOver = false ∧
      (drill.auction.legalCalls drill.seat).filter (trainer.gradesCorrect drill) =
        [.of 2 .clubs] := by
  intro trainer drill
  have hconvention : trainer.convention drill.convention = .ok Stayman.convention := rfl
  have hskips : drill.skipsIllegal = .ok true := rfl
  have hhand : drill.hand = .ok .bothMajors := rfl
  have hopen : drill.auction.isOver = false := rfl
  obtain ⟨grade, hgrade, -, hright⟩ :=
    grade_legalCalls List.mem_cons_self hconvention hskips hhand hopen
  have hpass := hgrade .pass (by decide)
  have hexpected : (trainer.grade drill .pass).map Grade.expectedCall = .ok (.of 2 .clubs) := rfl
  rw [hpass] at hexpected
  rw [hright, ← Except.ok.inj hexpected]
  exact ⟨hconvention, hskips, hhand, hopen, rfl⟩

end Trainer

end BridgeBidding
