import BridgeBidding.Context
import BridgeBidding.Proofs.Auction.Offer
import BridgeBidding.Proofs.Condition.Verdict
import BridgeBidding.Proofs.Hand.Longest
import BridgeBidding.Proofs.Success

/-!
# The suit to bid at a level

The suit to bid at a level is sought among the suits of some length whose bid outranks the last one.
Before the auction is over these are the suits whose bid is legal (`Context.CanBid`), so the search
never fails, and it finds the longest of them, the highest one if several are as long
(`Context.longestBiddable?_finds`).
-/

set_option autoImplicit false
set_option relaxedAutoImplicit false

namespace BridgeBidding

open Success

namespace Context

variable {context : Context} {level : Level} {minimum : Int} {suit : Suit}

/-- The suit has at least so many cards, and its bid at the level is legal. -/
def CanBid (context : Context) (level : Level) (minimum : Int) (suit : Suit) : Prop :=
  minimum ≤ context.length suit ∧
    context.auction.permits (.of level suit.strain) context.seat = true

instance : DecidablePred (context.CanBid level minimum) :=
  fun _ ↦ inferInstanceAs (Decidable (_ ∧ _))

/-- The suit can be bid; no other that can is longer, and none that is as long is higher. -/
structure IsBestBid (context : Context) (level : Level) (minimum : Int) (suit : Suit) : Prop where
  canBid : context.CanBid level minimum suit
  longest : ∀ other, context.CanBid level minimum other →
    context.length other ≤ context.length suit
  highest : ∀ other, context.CanBid level minimum other →
    context.length other = context.length suit → other.strain.rank ≤ suit.strain.rank

theorem isBestBid_iff :
    context.IsBestBid level minimum suit ↔ context.CanBid level minimum suit ∧
      ∀ other, context.CanBid level minimum other →
        context.evaluation.shape.Leads suit other := by
  have hlength (picked : Suit) : context.length picked = context.evaluation.shape.length picked :=
    rfl
  constructor
  · rintro ⟨hcan, hlongest, hhighest⟩
    refine ⟨hcan, fun other hother ↦ ?_⟩
    have hle := hlongest other hother
    have hrank := hhighest other hother
    simp only [hlength] at hle hrank
    unfold Shape.Leads
    omega
  · rintro ⟨hcan, hleads⟩
    refine ⟨hcan, fun other hother ↦ ?_, fun other hother hequal ↦ ?_⟩
    · have hlead := hleads other hother
      simp only [hlength]
      unfold Shape.Leads at hlead
      omega
    · have hlead := hleads other hother
      simp only [hlength] at hequal
      unfold Shape.Leads at hlead
      omega

/-! ### The suits that can be bid -/

/-- A suit that is long enough and outranks the last bid is one that can be bid. -/
theorem isBiddable_eq (hopen : context.auction.isOver = false) (suit : Suit) :
    context.isBiddable (.int level.number) (.int minimum) suit =
      .ok (decide (context.CanBid level minimum suit)) := by
  have hpermits : context.auction.permits (.of level suit.strain) context.seat =
      context.auction.permitsBid ⟨level, suit.strain⟩ := by
    simp [Auction.permits, hopen]
  rw [isBiddable, Comparison.below_int, ok_bind]
  by_cases hshort : context.length suit < minimum
  · have hcannot : ¬ context.CanBid level minimum suit := fun h ↦ Int.not_le.mpr hshort h.1
    rw [decide_eq_true hshort, decide_eq_false hcannot]
    rfl
  · have hcan : context.CanBid level minimum suit ↔
        context.auction.permitsBid ⟨level, suit.strain⟩ = true := by
      rw [CanBid, hpermits, and_iff_right (Int.not_lt.mp hshort)]
    rw [decide_eq_false hshort, if_neg Bool.false_ne_true, Bid.ofLevel_number]
    simp only [hcan, Auction.permitsBid, Bool.decide_eq_true]
    cases context.auction.lastBid? with
    | none => rfl
    | some made => rfl

theorem biddableAmong_eq (hopen : context.auction.isOver = false) (suits : List Suit) :
    context.biddableAmong (.int level.number) (.int minimum) suits =
      .ok (suits.filter fun suit ↦ decide (context.CanBid level minimum suit)) := by
  induction suits with
  | nil => rfl
  | cons suit rest ih =>
    rw [biddableAmong, isBiddable_eq hopen, ok_bind, ih, ok_bind, List.filter_cons]
    rfl

/-! ### The longest of them -/

/-- The suits are listed from the highest to the lowest. -/
theorem pairwise_suits :
    Suit.all.Pairwise fun higher lower ↦ lower.strain.rank < higher.strain.rank := by decide

theorem mem_suits (suit : Suit) : suit ∈ Suit.all := by
  cases suit <;> decide

/-- Of some of the suits the longest is the one that leads them all. -/
theorem longestAmong?_filter_eq_some_iff {picked : Suit → Prop} [DecidablePred picked] :
    context.longestAmong? (Suit.all.filter fun suit ↦ decide (picked suit)) = some suit ↔
      picked suit ∧ ∀ other, picked other → context.evaluation.shape.Leads suit other := by
  have hmem {other : Suit} :
      other ∈ Suit.all.filter (fun suit ↦ decide (picked suit)) ↔ picked other := by
    rw [List.mem_filter, and_iff_right (mem_suits other), decide_eq_true_iff]
  have hlower := pairwise_suits.filter fun suit ↦ decide (picked suit)
  cases hpicked : Suit.all.filter fun suit ↦ decide (picked suit) with
  | nil =>
    refine iff_of_false nofun fun h ↦ ?_
    have hsuit := hmem.mpr h.1
    rw [hpicked] at hsuit
    cases hsuit
  | cons first rest =>
    rw [hpicked] at hmem hlower
    have hfound := hmem.mp (context.evaluation.shape.longestAmong_mem first rest)
    have hleads := context.evaluation.shape.leads_longestAmong hlower
    rw [longestAmong?, Option.some.injEq]
    constructor
    · rintro rfl
      exact ⟨hfound, fun other hother ↦ hleads other (hmem.mpr hother)⟩
    · rintro ⟨hsuit, hall⟩
      exact (hleads suit (hmem.mpr hsuit)).antisymm (hall _ hfound)

theorem longestBiddable?_eq (hopen : context.auction.isOver = false) :
    context.longestBiddable? (.int level.number) (.int minimum) =
      .ok (context.longestAmong?
        (Suit.all.filter fun suit ↦ decide (context.CanBid level minimum suit))) := by
  rw [longestBiddable?, biddableAmong_eq hopen, ok_bind]
  rfl

/-- The search never fails, it finds a suit exactly if one can be bid, and the suit that it finds is
the best one to bid. -/
theorem longestBiddable?_finds (hopen : context.auction.isOver = false) (level : Level)
    (minimum : Int) :
    ∃ suit?, context.longestBiddable? (.int level.number) (.int minimum) = .ok suit? ∧
      (suit?.isSome = true ↔ ∃ suit, context.CanBid level minimum suit) ∧
      ∀ suit, suit? = some suit ↔ context.IsBestBid level minimum suit := by
  refine ⟨_, longestBiddable?_eq hopen, ?found, fun suit ↦ ?best⟩
  case best => rw [longestAmong?_filter_eq_some_iff, isBestBid_iff]
  case found =>
    constructor
    · intro hsome
      obtain ⟨suit, hsuit⟩ := Option.isSome_iff_exists.mp hsome
      exact ⟨suit, (longestAmong?_filter_eq_some_iff.mp hsuit).1⟩
    · rintro ⟨suit, hsuit⟩
      have hmem : suit ∈ Suit.all.filter fun suit ↦ decide (context.CanBid level minimum suit) :=
        List.mem_filter.mpr ⟨mem_suits suit, decide_eq_true hsuit⟩
      cases hsuits : Suit.all.filter fun suit ↦ decide (context.CanBid level minimum suit) with
      | nil =>
        rw [hsuits] at hmem
        cases hmem
      | cons first rest => rfl

end Context

/-- The question for a suit to bid is answered by the search for one. -/
theorem Condition.passed_biddableSuit {context : Context}
    (hopen : context.auction.isOver = false) (level : Level) (minimum : Int) :
    ((holding (.biddableSuit (.int level.number) (.int minimum))).verdict context).passed = true ↔
      ∃ suit, context.IsBestBid level minimum suit := by
  obtain ⟨suit?, hsuit, -, hbest⟩ := Context.longestBiddable?_finds hopen level minimum
  have hholds : (holding (.biddableSuit (.int level.number) (.int minimum))).holds context =
      .ok suit?.isSome := by
    rw [holds, HandTest.holds, hsuit]
    rfl
  have hdescribe : (holding (.biddableSuit (.int level.number) (.int minimum))).describe context =
      .ok (HandTest.describeBiddable context (.int level.number) (.int minimum) suit?) := by
    rw [describe, HandTest.describe, hsuit]
    rfl
  rw [passed_verdict hholds hdescribe, Option.isSome_iff_exists]
  exact exists_congr hbest

end BridgeBidding
