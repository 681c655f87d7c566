import BridgeBidding.Condition.Holding
import BridgeBidding.Deal

/-!
# Hands that keep constraints

A constraint admits a hand if the hand keeps all that is asked of it (`SeatConstraint.admits_iff`).
Constraints admit a deal if every seat that something is asked of has a hand that keeps it
(`DealConstraints.admits_iff`), so that what is true of all hands that keep a constraint is true of
the hand that is dealt for it.
-/

set_option autoImplicit false
set_option relaxedAutoImplicit false

namespace BridgeBidding

theorem Hand.length_shape (hand : Hand) (suit : Suit) :
    hand.shape.length suit = hand.length suit := by
  cases suit <;> rfl

/-- The points, the shape and the lengths of the hand are as asked, and what else is asked of it
holds. -/
structure SeatConstraint.Keeps (constraint : SeatConstraint) (hand : Hand) : Prop where
  minimumPoints : ∀ minimum, constraint.minimumPoints = some minimum → minimum ≤ hand.points
  maximumPoints : ∀ maximum, constraint.maximumPoints = some maximum → hand.points ≤ maximum
  balanced : ∀ balanced, constraint.balanced = some balanced → balanced = hand.isBalanced
  minimumLength : ∀ bound ∈ constraint.minimumLength, bound.2 ≤ hand.length bound.1
  maximumLength : ∀ bound ∈ constraint.maximumLength, hand.length bound.1 ≤ bound.2
  minimumLengthAny : constraint.minimumLengthAny = [] ∨
    ∃ bound ∈ constraint.minimumLengthAny, bound.2 ≤ hand.length bound.1
  extra : ∀ holds, constraint.extra = some holds → holds hand = true

namespace SeatConstraint

variable {constraint : SeatConstraint} {hand : Hand}

theorem admits_iff : constraint.admits hand = true ↔ constraint.Keeps hand := by
  simp only [admits, admitsPoints, admitsShape, Bool.and_eq_true, Bool.or_eq_true,
    Option.all_eq_true, List.all_eq_true, List.any_eq_true, List.isEmpty_iff, beq_iff_eq,
    decide_eq_true_iff, Hand.length_shape]
  constructor
  · rintro ⟨⟨⟨hminimum, hmaximum⟩, ⟨⟨hbalanced, hlong⟩, hshort⟩, hany⟩, hextra⟩
    exact ⟨hminimum, hmaximum, hbalanced, hlong, hshort, hany, hextra⟩
  · rintro ⟨hminimum, hmaximum, hbalanced, hlong, hshort, hany, hextra⟩
    exact ⟨⟨⟨hminimum, hmaximum⟩, ⟨⟨hbalanced, hlong⟩, hshort⟩, hany⟩, hextra⟩

/-- A hand of which a long major is asked has one. -/
theorem Keeps.exists_major {minimum : Nat} (h : constraint.Keeps hand)
    (hasked : constraint.minimumLengthAny = [(Suit.spades, (minimum : Int)), (.hearts, minimum)]) :
    ∃ major : Major, minimum ≤ hand.length major.suit := by
  have hany := h.minimumLengthAny
  rw [hasked] at hany
  obtain ⟨bound, hbound, hlength⟩ := hany.resolve_left nofun
  rcases List.mem_cons.mp hbound with rfl | hbound
  · exact ⟨.spades, Int.ofNat_le.mp hlength⟩
  · obtain rfl := List.mem_singleton.mp hbound
    exact ⟨.hearts, Int.ofNat_le.mp hlength⟩

end SeatConstraint

namespace DealConstraints

variable {constraints : DealConstraints} {deal : Deal} {constraint : SeatConstraint}

theorem admits_iff :
    constraints.admits deal = true ↔
      ∀ constraint ∈ constraints.seats,
        ∃ hand, deal.hand? constraint.seat = some hand ∧ constraint.Keeps hand := by
  simp only [admits, List.all_eq_true, Option.any_eq_true, SeatConstraint.admits_iff]

/-- Every seat that something is asked of has a hand that keeps it. -/
theorem exists_keeps (h : constraints.admits deal = true)
    (hconstraint : constraint ∈ constraints.seats) :
    ∃ hand, deal.hand? constraint.seat = some hand ∧ constraint.Keeps hand :=
  admits_iff.mp h constraint hconstraint

end DealConstraints

end BridgeBidding
