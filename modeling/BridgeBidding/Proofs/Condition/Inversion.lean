import BridgeBidding.Proofs.Condition.Inference

/-!
# Inverting inferences

A lower bound and the upper bound one below it are inverses of each other, and so are a balanced and
an unbalanced shape.  The inverse of such an inference is true of exactly the other hands, and its
inverse is the inference itself, with its parameters in the order in which inferences are built
(`Inference.inverse_complements`).  Inferences of other kinds have no inverse.  Of these kinds, one
that is not well-formed may still have one (`Inference.inverts_unstated_balance`).

Parameters are found by their names, so that neither the inverse nor the truth of an inference
depends on their order (`Inference.Same`).
-/

set_option autoImplicit false
set_option relaxedAutoImplicit false

namespace BridgeBidding.Inference

open Success

variable {evaluation : Evaluation} {inference first second : Inference}

/-! ### The order of parameters -/

/-- The inferences are of one kind and have the same parameters, in whatever order. -/
structure Same (first second : Inference) : Prop where
  kind : first.kind = second.kind
  get? : ∀ name, Fields.get? first.parameters name = Fields.get? second.parameters name

theorem Same.symm (h : first.Same second) : second.Same first :=
  ⟨h.kind.symm, fun name ↦ (h.get? name).symm⟩

theorem Same.parameter (h : first.Same second) (name : String) :
    first.parameter name = second.parameter name := by
  rw [Inference.parameter, Inference.parameter, h.get?]

theorem Same.shifted (h : first.Same second) (name : String) (change : Int) :
    first.shifted name change = second.shifted name change := by
  rw [Inference.shifted, Inference.shifted, h.parameter]

theorem Same.saysBalanced (h : first.Same second) : first.saysBalanced = second.saysBalanced := by
  rw [Inference.saysBalanced, Inference.saysBalanced, h.get?]

theorem Same.inverse (h : first.Same second) : first.inverse = second.inverse := by
  simp only [Inference.inverse, h.kind, h.parameter, h.shifted, h.saysBalanced]

theorem Same.holdsIn_iff (h : first.Same second) :
    first.HoldsIn evaluation ↔ second.HoldsIn evaluation := by
  simp only [HoldsIn, Meets, MeetsLength, h.kind, h.parameter, h.saysBalanced]

/-! ### Inferences that are inverses of each other -/

/-- The second inference is the inverse of the first, and the first that of the second. -/
def AreInverse (first second : Inference) : Prop :=
  first.inverse = .ok (some second) ∧ second.inverse = .ok (some first)

theorem AreInverse.symm (h : AreInverse first second) : AreInverse second first := And.symm h

theorem areInverse_points (bound : Int) :
    AreInverse (pointsMin (.int bound)) (pointsMax (.int (bound - 1))) := by
  constructor
  · rfl
  · have hback : (pointsMax (.int (bound - 1))).inverse =
        .ok (some (pointsMin (.int (bound - 1 + 1)))) := rfl
    rw [hback, Int.sub_add_cancel]

theorem areInverse_suit (suit : Value) (bound : Int) :
    AreInverse (suitMin suit (.int bound)) (suitMax suit (.int (bound - 1))) := by
  constructor
  · rfl
  · have hback : (suitMax suit (.int (bound - 1))).inverse =
        .ok (some (suitMin suit (.int (bound - 1 + 1)))) := rfl
    rw [hback, Int.sub_add_cancel]

theorem areInverse_balanced (truth : Bool) : AreInverse (balanced truth) (balanced !truth) := by
  cases truth <;> exact ⟨rfl, rfl⟩

/-! ### Well-formed inferences -/

/-- A single bound that is a whole number, of the points or of a suit that is given by its letter,
or a shape that is balanced or not; with these parameters, in whatever order, and no others. -/
inductive IsWellFormed (inference : Inference) : Prop
  | pointsMin (bound : Int) (h : inference.Same (pointsMin (.int bound)))
  | pointsMax (bound : Int) (h : inference.Same (pointsMax (.int bound)))
  | suitMin (suit : Suit) (bound : Int) (h : inference.Same (suitMin suit.parameter (.int bound)))
  | suitMax (suit : Suit) (bound : Int) (h : inference.Same (suitMax suit.parameter (.int bound)))
  | balanced (truth : Bool) (h : inference.Same (balanced truth))

/-- With its parameters in order, a well-formed inference is one of two that are inverses of each
other. -/
theorem IsWellFormed.exists_areInverse (h : inference.IsWellFormed) :
    ∃ ordered other, inference.Same ordered ∧ ordered.IsInvertible ∧ AreInverse ordered other := by
  cases h with
  | pointsMin bound h => exact ⟨_, _, h, .pointsMin rfl, areInverse_points bound⟩
  | pointsMax bound h =>
    -- The upper bound stands on the right of a pair whose lower bound is one above it.
    have hinverse := (areInverse_points (bound + 1)).symm
    rw [Int.add_sub_cancel] at hinverse
    exact ⟨_, _, h, .pointsMax rfl, hinverse⟩
  | suitMin suit bound h =>
    exact ⟨_, _, h, .suitMin suit rfl, areInverse_suit suit.parameter bound⟩
  | suitMax suit bound h =>
    have hinverse := (areInverse_suit suit.parameter (bound + 1)).symm
    rw [Int.add_sub_cancel] at hinverse
    exact ⟨_, _, h, .suitMax suit rfl, hinverse⟩
  | balanced truth h => exact ⟨_, _, h, .balanced truth, areInverse_balanced truth⟩

/-- The kinds of inferences that have an inverse. -/
def invertibleKinds : List String := ["hcp-min", "hcp-max", "suit-min", "suit-max", "balanced"]

/-- An inference of another kind has no inverse.  One of these kinds has an inverse, unless its
parameters are at fault. -/
theorem inverse_eq_ok_none_iff :
    inference.inverse = .ok none ↔ inference.kind ∉ invertibleKinds := by
  rw [Inference.inverse, invertibleKinds]
  split_ifs with hpointsMin hpointsMax hsuitMin hsuitMax hbalanced
  · simp [bind_eq_ok_iff, hpointsMin]
  · simp [bind_eq_ok_iff, hpointsMax]
  · simp [bind_eq_ok_iff, hsuitMin]
  · simp [bind_eq_ok_iff, hsuitMax]
  · simp [hbalanced]
  · simp [*]

/-- The inverse of a well-formed inference is true of exactly the other hands, and its inverse is
the inference with its parameters in order.  That there is no inverse is the answer for inferences
of other kinds and for the inference that is absent, and for nothing else. -/
theorem inverse_complements :
    (∀ inference : Inference, inference.IsWellFormed →
      ∃ other, inference.inverse = .ok (some other) ∧
        (∀ evaluation, other.HoldsIn evaluation ↔ ¬ inference.HoldsIn evaluation) ∧
        ∃ again, other.inverse = .ok (some again) ∧ again.Same inference) ∧
    ∀ given : Option Inference,
      inverse? given = .ok none ↔ ∀ inference ∈ given, inference.kind ∉ invertibleKinds := by
  constructor
  · intro inference h
    obtain ⟨ordered, other, hsame, hinvertible, hinverse, hback⟩ := h.exists_areInverse
    obtain ⟨opposite, hopposite, -, hcomplement⟩ := hinvertible.exists_inverse
    obtain rfl : opposite = other := Option.some.inj (Except.ok.inj (hopposite.symm.trans hinverse))
    refine ⟨opposite, hsame.inverse.trans hinverse, fun evaluation ↦ ?_, ordered, hback, hsame.symm⟩
    rw [hcomplement, hsame.holdsIn_iff]
  · rintro (_ | inference)
    · simp [inverse?]
    · simp [inverse?, inverse_eq_ok_none_iff]

/-- At least four hearts, with the length before the suit, is what at most three hearts are not. -/
theorem inverse_complements_fourHearts :
    let suit := Suit.hearts.parameter
    let inference : Inference := ⟨"suit-min", [("min", 4), ("suit", suit)]⟩
    inference.IsWellFormed ∧ inference.inverse = .ok (some (suitMax suit 3)) ∧
      ∀ evaluation, (suitMax suit 3).HoldsIn evaluation ↔ ¬ inference.HoldsIn evaluation := by
  intro suit inference
  have hsame : inference.Same (suitMin suit 4) := by
    refine ⟨rfl, fun name ↦ ?_⟩
    by_cases hmin : "min" = name
    · subst hmin
      rfl
    · simp [inference, suitMin, Fields.get?, hmin]
  have hformed : inference.IsWellFormed := .suitMin .hearts 4 hsame
  obtain ⟨other, hinverse, hcomplement, -⟩ := inverse_complements.1 inference hformed
  obtain rfl : suitMax suit 3 = other := Option.some.inj (Except.ok.inj hinverse)
  exact ⟨hformed, hinverse, hcomplement⟩

/-- An inference about the shape that does not state whether it is balanced is taken to say that it
is, and is inverted, although it is not well-formed. -/
theorem inverts_unstated_balance :
    let inference : Inference := ⟨"balanced", []⟩
    ¬ inference.IsWellFormed ∧ inverse? (some inference) = .ok (some (balanced false)) ∧
      inverse? (some inference) ≠ .ok none := by
  intro inference
  refine ⟨fun hformed ↦ ?_, rfl, nofun⟩
  cases hformed with
  | balanced truth h => exact absurd (h.get? "balanced") nofun
  | pointsMin bound h | pointsMax bound h | suitMin suit bound h | suitMax suit bound h =>
    exact absurd h.kind (by simp [inference, pointsMin, pointsMax, suitMin, suitMax])

end BridgeBidding.Inference
