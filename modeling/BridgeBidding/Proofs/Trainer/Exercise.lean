import BridgeBidding.Proofs.Convention.Overcalls
import BridgeBidding.Proofs.Stayman.Dialogue
import BridgeBidding.Proofs.Trainer.RightAnswer

/-!
# Drills that exercise their convention

Deals for Stayman, Landy and DONT are dealt for a call by south, at its turn in the auction that the
convention opens for it.  On every deal that keeps the constraints of the convention, the tree comes
to that call (`Exercise.exists_outcome?`), and it is legal, so that the convention suggests it
whether or not illegal calls are skipped (`Convention.exists_suggestion_of_outcome?`).

So no drill on such a deal is graded against a pass for want of a suggestion
(`Exercise.drill_expects_bid`).
-/

set_option autoImplicit false
set_option relaxedAutoImplicit false

namespace BridgeBidding

open Success RuleTree

/-! ### From the tree to grades -/

/-- A permitted call that the tree comes to is suggested. -/
theorem Convention.exists_suggestion_of_outcome? {convention : Convention} {context : Context}
    {name : String} {call : Call} (hbuiltin : convention ∈ Registry.builtin)
    (houtcome : convention.tree.outcome? context = some (name, .ok call))
    (hpermits : context.auction.permits call context.seat = true) (skipIllegal : Bool) :
    ∃ suggestion, convention.suggest? context skipIllegal = .ok (some suggestion) ∧
      suggestion.bid.name = name ∧ suggestion.call = call := by
  obtain ⟨node, hending, hname⟩ := exists_ending_of_outcome? houtcome
  obtain ⟨suggestion?, hsuggest⟩ := Convention.exists_suggest?_of_isTotal
    (fun condition ↦ Registry.isTotal_of_mem_builtin hbuiltin) context skipIllegal
  have hmade := hsuggest
  simp only [suggest?, hending, hpermits, Bool.not_true, Bool.and_false, Bool.false_eq_true,
    if_false] at hmade
  obtain ⟨reports, -, hmade⟩ := bind_eq_ok_iff.mp hmade
  obtain rfl := Except.ok.inj hmade
  exact ⟨_, hsuggest, hname, rfl⟩

namespace Trainer

variable {trainer : Trainer} {drill : Drill} {call : Call} {convention : Convention}
  {hand : Hand} {grade : Grade}

theorem contextOf_eq (hhand : drill.deal.hand? drill.seat = some hand) :
    contextOf drill = .ok (.ofHand hand drill.auction drill.seat none drill.deal.vulnerability
      drill.auction.dealer) := by
  have hheld : drill.hand = .ok hand := by rw [Drill.hand, Deal.hand, hhand]
  rw [contextOf, Drill.context, hheld, ok_bind, pure_eq_ok, ok_mapError]

/-- What a grade expects is what the convention suggests. -/
theorem exists_suggest?_of_grade {context : Context}
    (hconvention : trainer.convention drill.convention = .ok convention)
    (hcontext : contextOf drill = .ok context) (h : trainer.grade drill call = .ok grade) :
    ∃ skipIllegal, convention.suggest? context skipIllegal = .ok grade.expected? := by
  rw [Trainer.grade] at h
  split_ifs at h
  rw [hconvention, ok_bind, hcontext, ok_bind] at h
  obtain ⟨expected?, hexpected, h⟩ := bind_eq_ok_iff.mp h
  obtain ⟨siblings, -, hgrade⟩ := bind_eq_ok_iff.mp h
  obtain rfl := Except.ok.inj hgrade
  obtain ⟨skipIllegal, -, hsuggest⟩ := bind_eq_ok_iff.mp hexpected
  exact ⟨skipIllegal, mapError_eq_ok_iff.mp hsuggest⟩

/-- Only a call is graded. -/
theorem exists_grade_of_check {said : Value} (h : trainer.check drill said = .ok grade) :
    ∃ call, trainer.grade drill call = .ok grade := by
  cases said with
  | text written =>
    obtain ⟨call, -, hgrade⟩ := bind_eq_ok_iff.mp h
    exact ⟨call, hgrade⟩
  | _ =>
    unfold check at h
    split_ifs at h

end Trainer

/-! ### The exercises -/

/-- A convention with an auction before south's turn and the calls by which south would exercise the
convention there, each under the name of its bid. -/
structure Exercise where
  convention : Convention
  auction : Auction
  bids : List (String × Call)

namespace Exercise

/-- South asks for a major. -/
def stayman : Exercise where
  convention := Stayman.convention
  auction := .ofCalls .north [.of 1 .notrump, .pass]
  bids := [("stayman-ask", .of 2 .clubs)]

/-- South shows both majors. -/
def landy : Exercise where
  convention := Landy.convention
  auction := .ofCalls .east [.of 1 .notrump]
  bids := [("landy-2c", .of 2 .clubs)]

/-- South shows two suits or one. -/
def dont : Exercise where
  convention := Dont.convention
  auction := .ofCalls .east [.of 1 .notrump]
  bids := Dont.overcalls

/-- All exercises. -/
def all : List Exercise := [stayman, landy, dont]

variable {exercise : Exercise} {deal : Deal}

theorem mem_builtin (h : exercise ∈ all) : exercise.convention ∈ Registry.builtin := by
  simp only [all, List.mem_cons, List.not_mem_nil, or_false] at h
  rcases h with rfl | rfl | rfl
  all_goals simp [stayman, landy, dont, Registry.builtin]

theorem opening_eq (h : exercise ∈ all) (deal : Deal) :
    exercise.convention.opening .south (some deal) = .ok (some exercise.auction) := by
  simp only [all, List.mem_cons, List.not_mem_nil, or_false] at h
  rcases h with rfl | rfl | rfl
  all_goals rfl

theorem permits (h : exercise ∈ all) {bid : String × Call} (hbid : bid ∈ exercise.bids) :
    exercise.auction.permits bid.2 .south = true := by
  have hall : ∀ exercise ∈ all, ∀ bid ∈ exercise.bids,
      exercise.auction.permits bid.2 .south = true := by decide
  exact hall exercise h bid hbid

/-- With a hand that was dealt for it, the tree comes to a bid of the exercise. -/
theorem exists_outcome? (h : exercise ∈ all)
    (hdeal : exercise.convention.constraints.admits deal = true) :
    ∃ hand, deal.hand? .south = some hand ∧
      ∀ context : Context, context.auction = exercise.auction →
        context.evaluation = hand.evaluation →
          ∃ bid ∈ exercise.bids,
            exercise.convention.tree.outcome? context = some (bid.1, .ok bid.2) := by
  simp only [all, List.mem_cons, List.not_mem_nil, or_false] at h
  rcases h with rfl | rfl | rfl
  case inl =>
    obtain ⟨north, south, hsuited⟩ := Stayman.exists_suited hdeal
    refine ⟨south, hsuited.south_hand, fun context hauction hevaluation ↦ ?_⟩
    obtain ⟨major, hmajor⟩ := hsuited.south_major
    have hasks : (Stayman.askingTurn "" (.of 2 .clubs)).outcome? context =
        some ("stayman-ask", .ok (.of 2 .clubs)) := by
      refine Stayman.outcome?_askingTurn major ?_ ?_
      · rw [hevaluation]
        exact Int.ofNat_le.mpr hsuited.south_points
      · rw [hevaluation, Hand.length_evaluation]
        exact Int.ofNat_le.mpr hmajor
    exact ⟨("stayman-ask", .of 2 .clubs), List.mem_singleton_self _,
      (Stayman.outcome?_opened (congrArg Auction.calls hauction)).trans hasks⟩
  case inr.inl =>
    obtain ⟨hand, hhand, hkeeps⟩ := DealConstraints.exists_keeps hdeal (.tail _ (.head _))
    refine ⟨hand, hhand, fun context hauction hevaluation ↦ ?_⟩
    have hshown : Landy.hasBothMajors context.evaluation.shape = true := by
      rw [hevaluation]
      exact hkeeps.extra _ rfl
    exact ⟨("landy-2c", .of 2 .clubs), List.mem_singleton_self _,
      Landy.outcome?_opened (congrArg Auction.calls hauction) hshown⟩
  case inr.inr =>
    obtain ⟨hand, hhand, hkeeps⟩ := DealConstraints.exists_keeps hdeal (.tail _ (.head _))
    refine ⟨hand, hhand, fun context hauction hevaluation ↦ ?_⟩
    have hshown : Dont.hasShape context.evaluation.shape = true := by
      rw [hevaluation]
      exact hkeeps.extra _ rfl
    exact Dont.exists_outcome?_opened (congrArg Auction.calls hauction) hshown

/-- With a hand that was dealt for it, the convention suggests a bid of the exercise. -/
theorem exists_suggestion (h : exercise ∈ all)
    (hdeal : exercise.convention.constraints.admits deal = true) :
    ∃ hand, deal.hand? .south = some hand ∧
      ∀ vulnerability dealer? skipIllegal, ∃ suggestion,
        exercise.convention.suggest?
          (.ofHand hand exercise.auction .south none vulnerability dealer?) skipIllegal =
            .ok (some suggestion) ∧
        (suggestion.bid.name, suggestion.call) ∈ exercise.bids := by
  obtain ⟨hand, hhand, houtcome⟩ := exists_outcome? h hdeal
  refine ⟨hand, hhand, fun vulnerability dealer? skipIllegal ↦ ?_⟩
  obtain ⟨bid, hbid, hreached⟩ :=
    houtcome (.ofHand hand exercise.auction .south none vulnerability dealer?) rfl rfl
  obtain ⟨suggestion, hsuggest, hname, hcall⟩ := Convention.exists_suggestion_of_outcome?
    (mem_builtin h) hreached (permits h hbid) skipIllegal
  refine ⟨suggestion, hsuggest, ?_⟩
  rw [hname, hcall]
  exact hbid

/-- On a deal that keeps the constraints, south has a hand for which the convention suggests a bid
of the exercise in the auction that it opens, and in every drill that stands there each grade
expects such a bid.  If the settings of the drill can be read, every written call that is permitted
gets a grade. -/
theorem drill_expects_bid (h : exercise ∈ all)
    (hdeal : exercise.convention.constraints.admits deal = true) :
    exercise.convention.opening .south (some deal) = .ok (some exercise.auction) ∧
    ∃ hand, deal.hand? .south = some hand ∧
      (∀ vulnerability dealer? skipIllegal, ∃ suggestion,
        exercise.convention.suggest?
          (.ofHand hand exercise.auction .south none vulnerability dealer?) skipIllegal =
            .ok (some suggestion) ∧
        (suggestion.bid.name, suggestion.call) ∈ exercise.bids) ∧
      ∀ (trainer : Trainer) (drill : Drill),
        trainer.convention drill.convention = .ok exercise.convention →
        drill.deal = deal → drill.seat = .south → drill.auction = exercise.auction →
          (∀ said grade, trainer.check drill said = .ok grade →
            ∃ suggestion, grade.expected? = some suggestion ∧
              (suggestion.bid.name, suggestion.call) ∈ exercise.bids) ∧
          ∀ skipIllegal written call, drill.skipsIllegal = .ok skipIllegal →
            Call.read written = .ok call → drill.auction.permits call .south = true →
              ∃ grade, trainer.check drill (.text written) = .ok grade := by
  obtain ⟨hand, hhand, hsuggests⟩ := exists_suggestion h hdeal
  refine ⟨opening_eq h deal, hand, hhand, hsuggests, ?_⟩
  rintro trainer drill hconvention rfl hseat hauction
  have hcontext := Trainer.contextOf_eq (hseat.symm ▸ hhand)
  rw [hauction, hseat] at hcontext
  constructor
  · intro said grade hcheck
    obtain ⟨call, hgrade⟩ := Trainer.exists_grade_of_check hcheck
    obtain ⟨skipIllegal, hexpected⟩ :=
      Trainer.exists_suggest?_of_grade hconvention hcontext hgrade
    obtain ⟨suggestion, hsuggest, hbid⟩ := hsuggests drill.deal.vulnerability
      exercise.auction.dealer skipIllegal
    rw [hsuggest] at hexpected
    exact ⟨suggestion, (Except.ok.inj hexpected).symm, hbid⟩
  · intro skipIllegal written call hskips hread hpermits
    obtain ⟨grade, -, hgrades⟩ :=
      Trainer.exists_grade_of_mem_builtin (mem_builtin h) hconvention hcontext hskips
    refine ⟨{ grade with call }, ?_⟩
    rw [Trainer.check, hread, ok_mapError, ok_bind]
    exact hgrades call (hseat.symm ▸ hpermits)

/-- Six hearts with thirteen points. -/
def longHearts : Hand :=
  .ofSuits [.eight, .two] [.ace, .queen, .jack, .nine, .seven, .four] [.king, .four]
    [.king, .nine, .three]

/-- A balanced hand of sixteen points. -/
def balancedSixteen : Hand :=
  .ofSuits [.ace, .queen, .five] [.king, .ten, .two] [.queen, .jack, .eight, .three]
    [.ace, .seven, .two]

/-- Six hearts over a notrump opening. -/
def longHeartsDrill : Drill where
  convention := "dont"
  deal := {
    hand? := fun
      | .east => some balancedSixteen
      | .south => some longHearts
      | _ => none
    dealer := .east }
  seat := .south
  auction := .ofCalls .east [.of 1 .notrump]
  iterations := 1
  settings := .record []

/-- A pass with six hearts is graded against an overcall. -/
theorem drill_expects_bid_longHearts :
    Dont.convention.constraints.admits longHeartsDrill.deal = true ∧
      ∃ grade suggestion,
        Trainer.check ⟨.standard, none⟩ longHeartsDrill (.text "P") = .ok grade ∧
        grade.expected? = some suggestion ∧
        (suggestion.bid.name, suggestion.call) ∈ Dont.overcalls := by
  have hadmits : Dont.convention.constraints.admits longHeartsDrill.deal = true := by decide
  have hmem : dont ∈ all := by simp [all]
  obtain ⟨-, hand, -, -, hdrill⟩ := drill_expects_bid hmem hadmits
  obtain ⟨hexpects, hgraded⟩ := hdrill ⟨.standard, none⟩ longHeartsDrill rfl rfl rfl rfl
  obtain ⟨grade, hcheck⟩ := hgraded true "P" .pass rfl rfl rfl
  obtain ⟨suggestion, hexpected, hbid⟩ := hexpects _ grade hcheck
  exact ⟨hadmits, grade, suggestion, hcheck, hexpected, hbid⟩

end Exercise

end BridgeBidding
