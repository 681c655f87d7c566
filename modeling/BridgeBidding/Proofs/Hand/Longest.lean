import BridgeBidding.Hand.Evaluation
import Mathlib.Tactic.SplitIfs

/-!
# The longest of several suits

The longest of several suits is found by looking at one after another and keeping the longer one,
and the one that came first if they are equally long.  Among suits that are listed from the highest
to the lowest it is the highest of the longest ones (`Shape.leads_longestAmong`).
-/

set_option autoImplicit false
set_option relaxedAutoImplicit false

namespace BridgeBidding.Shape

variable {shape : Shape} {suit other next : Suit}

theorem longer_eq (shape : Shape) (first next : Suit) :
    shape.longer first next = first ∨ shape.longer first next = next := by
  unfold longer
  split_ifs
  · exact .inr rfl
  · exact .inl rfl

theorem longestAmong_mem (shape : Shape) (first : Suit) (rest : List Suit) :
    shape.longestAmong first rest ∈ first :: rest := by
  unfold longestAmong
  induction rest generalizing first with
  | nil => exact List.mem_cons_self
  | cons next rest ih =>
    rw [List.foldl_cons]
    rcases shape.longer_eq first next with hfirst | hnext
    · rw [hfirst]
      exact List.mem_cons.mpr ((List.mem_cons.mp (ih first)).imp_right (List.mem_cons_of_mem _))
    · rw [hnext]
      exact List.mem_cons_of_mem _ (ih next)

/-- The suit is longer than the other, or as long and not lower. -/
def Leads (shape : Shape) (suit other : Suit) : Prop :=
  shape.length other < shape.length suit ∨
    shape.length other = shape.length suit ∧ other.strain.rank ≤ suit.strain.rank

theorem Leads.refl (shape : Shape) (suit : Suit) : shape.Leads suit suit :=
  .inr ⟨rfl, Nat.le_refl _⟩

theorem Leads.trans (h : shape.Leads suit other) (hother : shape.Leads other next) :
    shape.Leads suit next := by
  unfold Leads at h hother ⊢
  omega

/-- Of two suits that lead each other there is one. -/
theorem Leads.antisymm (h : shape.Leads suit other) (hother : shape.Leads other suit) :
    suit = other := by
  have hrank : suit.strain.rank = other.strain.rank := by
    unfold Leads at h hother
    omega
  cases suit <;> cases other <;> first | rfl | cases hrank

/-- The suit that is kept leads the one that came first, and a lower one. -/
theorem leads_longer (shape : Shape) {first next : Suit}
    (hlower : next.strain.rank < first.strain.rank) :
    shape.Leads (shape.longer first next) first ∧ shape.Leads (shape.longer first next) next := by
  unfold longer Leads
  split_ifs <;> omega

/-- The suit found leads all of the suits, if these are listed from the highest to the lowest. -/
theorem leads_longestAmong (shape : Shape) {first : Suit} {rest : List Suit}
    (hlower : (first :: rest).Pairwise fun higher lower ↦ lower.strain.rank < higher.strain.rank) :
    ∀ other ∈ first :: rest, shape.Leads (shape.longestAmong first rest) other := by
  unfold longestAmong
  induction rest generalizing first with
  | nil =>
    intro other hother
    rw [List.mem_singleton.mp hother]
    exact .refl shape first
  | cons next rest ih =>
    rw [List.pairwise_cons, List.pairwise_cons] at hlower
    obtain ⟨hfirst, hnext, hrest⟩ := hlower
    have hbelow := hfirst next List.mem_cons_self
    obtain ⟨hkeepsFirst, hkeepsNext⟩ := shape.leads_longer hbelow
    -- whichever of the two is kept, the rest is below it
    have hkept : ∀ lower ∈ rest, lower.strain.rank < (shape.longer first next).strain.rank := by
      intro lower hmem
      rcases shape.longer_eq first next with hkept | hkept
      · rw [hkept]
        exact hfirst lower (List.mem_cons_of_mem _ hmem)
      · rw [hkept]
        exact hnext lower hmem
    have hleads := ih (List.pairwise_cons.mpr ⟨hkept, hrest⟩)
    rw [List.foldl_cons]
    have hfound := hleads _ List.mem_cons_self
    refine List.forall_mem_cons.mpr ⟨hfound.trans hkeepsFirst,
      List.forall_mem_cons.mpr ⟨hfound.trans hkeepsNext, fun other hother ↦ ?_⟩⟩
    exact hleads other (List.mem_cons_of_mem _ hother)

end BridgeBidding.Shape
