import BridgeBidding.Deal.Generation
import BridgeBidding.Proofs.Hand.Counting
import BridgeBidding.Proofs.Success
import Mathlib.Algebra.GroupWithZero.Nat
import Mathlib.Logic.Function.Iterate
import Mathlib.Order.Bounds.Basic

/-!
# Dealing

The four quarters of a deck make hands, in whatever order its cards are (`Deck.ofCards_cards`), and
they share out the deck: every card is in one hand and in no other, so the lengths of a suit add up
to thirteen and the points to forty (`Deck.sharesDeck_deal`).

The search for a deal that meets given constraints shuffles one and the same deck again and again.
It comes to the first deal that meets them, or else has seen as many deals as it may
(`DealConstraints.search_cases`), and so the generator answers with the least number of shuffles
after which there is such a deal, or with the number of attempts if there is none among them
(`DealConstraints.generate_least`).
-/

set_option autoImplicit false
set_option relaxedAutoImplicit false

namespace BridgeBidding

open Success

variable {σ : Type}

/-! ### The hands of a deck -/

namespace Deal

/-- The deal of the cards in their order, thirteen to every seat from north on, if each thirteen of
them make a hand. -/
def ofCards (cards : List Card) (dealer : Seat) (vulnerability : Vulnerability) :
    Except HandError Deal := do
  let north ← Hand.ofCards (cards.take 13)
  let east ← Hand.ofCards ((cards.drop 13).take 13)
  let south ← Hand.ofCards ((cards.drop 26).take 13)
  let west ← Hand.ofCards ((cards.drop 39).take 13)
  return {
    hand? := fun
      | .north => some north
      | .east => some east
      | .south => some south
      | .west => some west
    dealer
    vulnerability }

/-- The hands are those of the deal, and every card of the deck is in one of them and in no
other. -/
structure SharesDeck (deal : Deal) (hands : Seat → Hand) : Prop where
  hand?_eq : ∀ seat, deal.hand? seat = some (hands seat)
  perm_deck : (Seat.all.flatMap fun seat ↦ (hands seat).cards).Perm Card.deck

namespace SharesDeck

variable {deal : Deal} {hands : Seat → Hand}

/-- What is counted of the cards in the hands adds up to what the deck has of it. -/
theorem sum_countP (h : deal.SharesDeck hands) (counts : Card → Bool) :
    (Seat.all.map fun seat ↦ (hands seat).cards.countP counts).sum = Card.deck.countP counts := by
  rw [← h.perm_deck.countP_eq, List.countP_flatMap]
  rfl

/-- The lengths of a suit add up to thirteen. -/
theorem sum_length (h : deal.SharesDeck hands) (suit : Suit) :
    (Seat.all.map fun seat ↦ (hands seat).length suit).sum = 13 := by
  have hdeck : Card.deck.countP (fun card ↦ decide (card.suit = suit)) = 13 := by
    cases suit <;> rfl
  exact (h.sum_countP _).trans hdeck

/-- There are four cards of every rank. -/
theorem sum_countOf (h : deal.SharesDeck hands) (rank : Rank) :
    (Seat.all.map fun seat ↦ Card.countOf rank (hands seat).cards).sum = 4 := by
  have hdeck : Card.deck.countP (fun card ↦ decide (card.rank = rank)) = 4 := by
    cases rank <;> rfl
  exact (h.sum_countP _).trans hdeck

/-- The points add up to forty. -/
theorem sum_points (h : deal.SharesDeck hands) :
    (Seat.all.map fun seat ↦ (hands seat).points).sum = 40 := by
  have haces := h.sum_countOf .ace
  have hkings := h.sum_countOf .king
  have hqueens := h.sum_countOf .queen
  have hjacks := h.sum_countOf .jack
  have hpoints (hand : Hand) : hand.points = 4 * Card.countOf .ace hand.cards +
      3 * Card.countOf .king hand.cards + 2 * Card.countOf .queen hand.cards +
      Card.countOf .jack hand.cards := hand.points_eq
  simp only [Seat.all, List.map_cons, List.map_nil, List.sum_cons, List.sum_nil, hpoints] at *
  omega

end SharesDeck

end Deal

namespace Deck

variable (deck : Deck) (dealer : Seat) (vulnerability : Vulnerability)

/-- However its cards are ordered, the deck is dealt without a fault. -/
theorem ofCards_cards :
    Deal.ofCards deck.cards dealer vulnerability = .ok (deck.deal dealer vulnerability) := by
  have hquarter (place : Fin 4) :
      Hand.ofCards ((deck.cards.drop (13 * place.val)).take 13) = .ok (deck.quarter place) :=
    (deck.quarter place).ofCards_cards
  have hnorth : Hand.ofCards (deck.cards.take 13) = .ok (deck.handOf .north) := hquarter 0
  have heast : Hand.ofCards ((deck.cards.drop 13).take 13) = .ok (deck.handOf .east) := hquarter 1
  have hsouth : Hand.ofCards ((deck.cards.drop 26).take 13) = .ok (deck.handOf .south) :=
    hquarter 2
  have hwest : Hand.ofCards ((deck.cards.drop 39).take 13) = .ok (deck.handOf .west) := hquarter 3
  rw [Deal.ofCards, hnorth, ok_bind, heast, ok_bind, hsouth, ok_bind, hwest, ok_bind]
  rfl

/-- The hands that are dealt share out the deck. -/
theorem sharesDeck_deal : (deck.deal dealer vulnerability).SharesDeck deck.handOf where
  hand?_eq seat := by cases seat <;> rfl
  perm_deck := by
    have hquarter (skipped : Nat) : (deck.cards.drop skipped).take 13 ++
        deck.cards.drop (skipped + 13) = deck.cards.drop skipped := by
      rw [← List.drop_drop, List.take_append_drop]
    have hlast : (deck.cards.drop 39).take 13 = deck.cards.drop 39 :=
      List.take_of_length_le (by rw [List.length_drop, deck.length_cards])
    have hhands : (Seat.all.flatMap fun seat ↦ (deck.handOf seat).cards) = deck.cards := by
      calc
        _ = deck.cards.take 13 ++ ((deck.cards.drop 13).take 13 ++
            ((deck.cards.drop 26).take 13 ++ (deck.cards.drop 39).take 13)) := by
          simp only [Seat.all, List.flatMap_cons, List.flatMap_nil, List.append_nil]
          rfl
        _ = deck.cards := by
          rw [hlast, hquarter 26, hquarter 13, List.take_append_drop]
    exact hhands ▸ deck.perm

end Deck

/-! ### Shuffling again and again -/

namespace Shuffler

/-- The order of the cards, and the shuffler's state, after so many shuffles of the deck, each of
which starts from what the one before it left. -/
def orderAfter (shuffler : Shuffler σ) (state : σ) (count : Nat) : List Card × σ :=
  (fun shuffled ↦ shuffler.shuffle shuffled.2 shuffled.1)^[count] (Card.deck, state)

/-- The deck and the shuffler's state after so many shuffles. -/
def deckAfter (shuffler : Shuffler σ) (state : σ) (deck : Deck) (count : Nat) : Deck × σ :=
  (fun shuffled ↦ shuffled.1.shuffle shuffler shuffled.2)^[count] (deck, state)

/-- The cards of the deck are those in their order. -/
theorem orderAfter_eq (shuffler : Shuffler σ) (state : σ) (count : Nat) :
    shuffler.orderAfter state count = ((shuffler.deckAfter state .sorted count).1.cards,
      (shuffler.deckAfter state .sorted count).2) := by
  have hshuffle : Function.Semiconj (fun shuffled : Deck × σ ↦ (shuffled.1.cards, shuffled.2))
      (fun shuffled ↦ shuffled.1.shuffle shuffler shuffled.2)
      (fun shuffled ↦ shuffler.shuffle shuffled.2 shuffled.1) := fun _ ↦ rfl
  exact ((hshuffle.iterate_right count).eq (Deck.sorted, state)).symm

end Shuffler

namespace DealConstraints

variable (constraints : DealConstraints) (shuffler : Shuffler σ) (state : σ)

/-- The deal after so many shuffles. -/
def dealAfter (deck : Deck) (count : Nat) : Deal :=
  (shuffler.deckAfter state deck count).1.deal constraints.dealer constraints.vulnerability

/-- The search ends with the first deal that meets the constraints, or has used all shuffles on
deals that do not. -/
theorem search_cases (done remaining : Nat) (deck : Deck) :
    (∃ count, 1 ≤ count ∧ count ≤ remaining ∧
      constraints.admits (constraints.dealAfter shuffler state deck count) = true ∧
      (∀ earlier, 1 ≤ earlier → earlier < count →
        ¬ constraints.admits (constraints.dealAfter shuffler state deck earlier) = true) ∧
      constraints.search shuffler done remaining state deck =
        (some ⟨constraints.dealAfter shuffler state deck count, done + count⟩,
          (shuffler.deckAfter state deck count).2)) ∨
    (∀ count, 1 ≤ count → count ≤ remaining →
      ¬ constraints.admits (constraints.dealAfter shuffler state deck count) = true) ∧
      constraints.search shuffler done remaining state deck =
        (none, (shuffler.deckAfter state deck remaining).2) := by
  induction remaining generalizing done state deck with
  | zero => exact .inr ⟨fun count hpositive hzero ↦ by omega, rfl⟩
  | succ remaining ih =>
    by_cases hfirst : constraints.admits (constraints.dealAfter shuffler state deck 1) = true
    · refine .inl ⟨1, le_rfl, by omega, hfirst, fun earlier hpositive hless ↦ by omega, ?_⟩
      exact if_pos hfirst
    · have hsearch : constraints.search shuffler done (remaining + 1) state deck =
          constraints.search shuffler (done + 1) remaining (deck.shuffle shuffler state).2
            (deck.shuffle shuffler state).1 := if_neg hfirst
      have hlater (count : Nat) : constraints.dealAfter shuffler state deck (count + 1) =
          constraints.dealAfter shuffler (deck.shuffle shuffler state).2
            (deck.shuffle shuffler state).1 count := rfl
      have hrefused {bound : Nat} (hbound : ∀ count, 1 ≤ count → count < bound →
          ¬ constraints.admits (constraints.dealAfter shuffler (deck.shuffle shuffler state).2
            (deck.shuffle shuffler state).1 count) = true) (count : Nat) (hpositive : 1 ≤ count)
          (hless : count < bound + 1) :
          ¬ constraints.admits (constraints.dealAfter shuffler state deck count) = true := by
        obtain rfl | ⟨before, rfl⟩ : count = 1 ∨ ∃ before, count = before + 1 + 1 := by
          rcases count with _ | _ | before
          · omega
          · exact .inl rfl
          · exact .inr ⟨before, rfl⟩
        · exact hfirst
        · rw [hlater]
          exact hbound (before + 1) (by omega) (by omega)
      rcases ih (deck.shuffle shuffler state).2 (done + 1) (deck.shuffle shuffler state).1 with
        ⟨count, hpositive, hcount, hadmits, hleast, hfound⟩ | ⟨hnone, hfound⟩
      · refine .inl ⟨count + 1, by omega, by omega, hadmits, hrefused hleast, ?_⟩
        rw [hsearch, hfound, hlater, Nat.add_right_comm done 1 count]
        rfl
      · refine .inr ⟨fun count hpositive hcount ↦ ?_, hsearch.trans hfound⟩
        exact hrefused (fun later hlater hless ↦ hnone later hlater (Nat.le_of_lt_succ hless)) count
          hpositive (Nat.lt_succ_of_le hcount)

/-! ### The deal that is generated -/

/-- The deal is that of the cards in their order after so many shuffles, and it meets the
constraints. -/
structure FitsAfter (count : Nat) (deal : Deal) : Prop where
  one_le : 1 ≤ count
  ofCards_eq : Deal.ofCards (shuffler.orderAfter state count).1 constraints.dealer
    constraints.vulnerability = .ok deal
  admits : constraints.admits deal = true

/-- The cards can be dealt after every shuffle. -/
theorem ofCards_orderAfter (count : Nat) :
    Deal.ofCards (shuffler.orderAfter state count).1 constraints.dealer
      constraints.vulnerability = .ok (constraints.dealAfter shuffler state .sorted count) := by
  rw [Shuffler.orderAfter_eq]
  exact Deck.ofCards_cards _ _ _

theorem fitsAfter_iff {count : Nat} {deal : Deal} :
    constraints.FitsAfter shuffler state count deal ↔
      1 ≤ count ∧ constraints.admits deal = true ∧
        constraints.dealAfter shuffler state .sorted count = deal := by
  have hdealt := constraints.ofCards_orderAfter shuffler state count
  constructor
  · rintro ⟨hpositive, hdeal, hadmits⟩
    exact ⟨hpositive, hadmits, Except.ok.inj (hdealt.symm.trans hdeal)⟩
  · rintro ⟨hpositive, hadmits, rfl⟩
    exact ⟨hpositive, hdealt, hadmits⟩

namespace FitsAfter

variable {constraints shuffler state} {count : Nat} {deal : Deal}

theorem exists_sharesDeck (h : constraints.FitsAfter shuffler state count deal) :
    ∃ hands, deal.SharesDeck hands := by
  obtain ⟨-, -, rfl⟩ := (constraints.fitsAfter_iff shuffler state).mp h
  exact ⟨_, Deck.sharesDeck_deal _ _ _⟩

theorem dealer_eq (h : constraints.FitsAfter shuffler state count deal) :
    deal.dealer = constraints.dealer := by
  obtain ⟨-, -, rfl⟩ := (constraints.fitsAfter_iff shuffler state).mp h
  rfl

theorem vulnerability_eq (h : constraints.FitsAfter shuffler state count deal) :
    deal.vulnerability = constraints.vulnerability := by
  obtain ⟨-, -, rfl⟩ := (constraints.fitsAfter_iff shuffler state).mp h
  rfl

end FitsAfter

/-- What is generated is the first deal that meets the constraints, if there is one within the
number of attempts, and otherwise there is none. -/
theorem generate_cases (given : Option Int) :
    (∃ dealt, constraints.FitsAfter shuffler state dealt.iterations dealt.deal ∧
      (∀ count deal, constraints.FitsAfter shuffler state count deal →
        dealt.iterations ≤ count) ∧
      (dealt.iterations : Int) ≤ constraints.attempts given ∧
      constraints.generate shuffler state given =
        (.ok dealt, (shuffler.orderAfter state dealt.iterations).2)) ∨
    (∀ count deal, constraints.FitsAfter shuffler state count deal →
      constraints.attempts given < count) ∧
      constraints.generate shuffler state given =
        (.error (.exhausted (constraints.attempts given)
          (constraints.seats.map SeatConstraint.seat)),
          (shuffler.orderAfter state (constraints.attempts given).toNat).2) := by
  have hstate (count : Nat) : (shuffler.deckAfter state .sorted count).2 =
      (shuffler.orderAfter state count).2 := by rw [Shuffler.orderAfter_eq]
  rcases constraints.search_cases shuffler state 0 (constraints.attempts given).toNat .sorted with
    ⟨count, hpositive, hcount, hadmits, hleast, hfound⟩ | ⟨hnone, hfound⟩
  · refine .inl ⟨⟨constraints.dealAfter shuffler state .sorted count, count⟩, ?_, ?_, ?_, ?_⟩
    · exact (constraints.fitsAfter_iff shuffler state).mpr ⟨hpositive, hadmits, rfl⟩
    · intro earlier deal hfits
      obtain ⟨hearlier, hmeets, rfl⟩ := (constraints.fitsAfter_iff shuffler state).mp hfits
      exact Nat.le_of_not_lt fun hless ↦ hleast earlier hearlier hless hmeets
    · change (count : Int) ≤ _
      omega
    · rw [generate, hfound, Nat.zero_add, hstate]
  · refine .inr ⟨fun count deal hfits ↦ ?_, ?_⟩
    · obtain ⟨hpositive, hmeets, rfl⟩ := (constraints.fitsAfter_iff shuffler state).mp hfits
      by_contra hbudget
      exact hnone count hpositive (by omega) hmeets
    · rw [generate, hfound, hstate]

/-! ### The number of attempts -/

/-- Nobody has set the number, or it is zero, which counts as not set. -/
def IsUnset (number? : Option Int) : Prop := number? = none ∨ number? = some 0

theorem filter_ne_zero {number : Int} (h : number ≠ 0) :
    (some number).filter (fun number ↦ number != 0) = some number := by
  rw [Option.filter_some, if_pos (bne_iff_ne.mpr h)]

theorem attempts_some {number : Int} (h : number ≠ 0) :
    constraints.attempts (some number) = number := by
  rw [attempts, filter_ne_zero h, Option.some_or, Option.getD_some]

theorem attempts_of_isUnset {given : Option Int} (h : IsUnset given) :
    constraints.attempts given = constraints.attempts none := by
  rcases h with rfl | rfl <;> rfl

theorem attempts_own {given : Option Int} {number : Int} (hgiven : IsUnset given)
    (hown : constraints.maximumAttempts = some number) (h : number ≠ 0) :
    constraints.attempts given = number := by
  rw [attempts_of_isUnset constraints hgiven, attempts, hown, filter_ne_zero h, Option.filter_none,
    Option.none_or, Option.getD_some]

theorem attempts_default {given : Option Int} (hgiven : IsUnset given)
    (hown : IsUnset constraints.maximumAttempts) : constraints.attempts given = 10000 := by
  rw [attempts_of_isUnset constraints hgiven, attempts]
  rcases hown with hown | hown <;> rw [hown] <;> rfl

/-- After every shuffle the cards are dealt without a fault, and the four hands share out the deck.
The number of attempts is the one asked for, else that of the constraints, else ten thousand.  A
deal is generated exactly if it is the first one that meets the constraints and comes within the
number of attempts; and the generator fails, telling that number, exactly if no deal within it meets
the constraints. -/
theorem generate_least (given : Option Int) :
    (∀ count, ∃ deal hands, Deal.ofCards (shuffler.orderAfter state count).1 constraints.dealer
        constraints.vulnerability = .ok deal ∧ deal.SharesDeck hands ∧
      (∀ suit, (Seat.all.map fun seat ↦ (hands seat).length suit).sum = 13) ∧
      (Seat.all.map fun seat ↦ (hands seat).points).sum = 40) ∧
    (∀ number, number ≠ 0 →
      (given = some number → constraints.attempts given = number) ∧
      (IsUnset given → constraints.maximumAttempts = some number →
        constraints.attempts given = number)) ∧
    (IsUnset given → IsUnset constraints.maximumAttempts →
      constraints.attempts given = 10000) ∧
    (∀ dealt next, constraints.generate shuffler state given = (.ok dealt, next) ↔
      constraints.FitsAfter shuffler state dealt.iterations dealt.deal ∧
      (∀ count deal, constraints.FitsAfter shuffler state count deal →
        dealt.iterations ≤ count) ∧
      (dealt.iterations : Int) ≤ constraints.attempts given ∧
      next = (shuffler.orderAfter state dealt.iterations).2) ∧
    (∀ error next, constraints.generate shuffler state given = (.error error, next) ↔
      (∀ count deal, constraints.FitsAfter shuffler state count deal →
        constraints.attempts given < count) ∧
      error = .exhausted (constraints.attempts given)
        (constraints.seats.map SeatConstraint.seat) ∧
      next = (shuffler.orderAfter state (constraints.attempts given).toNat).2) := by
  refine ⟨fun count ↦ ?shares, fun number hset ↦ ⟨?asked, ?own⟩, ?unset, fun dealt next ↦ ?ok,
    fun error next ↦ ?error⟩
  case shares =>
    have hshares := (shuffler.deckAfter state .sorted count).1.sharesDeck_deal constraints.dealer
      constraints.vulnerability
    exact ⟨_, _, constraints.ofCards_orderAfter shuffler state count, hshares, hshares.sum_length,
      hshares.sum_points⟩
  case asked =>
    rintro rfl
    exact constraints.attempts_some hset
  case own => exact fun hgiven hown ↦ constraints.attempts_own hgiven hown hset
  case unset => exact constraints.attempts_default
  case ok =>
    rcases constraints.generate_cases shuffler state given with
      ⟨found, hfits, hleast, hbudget, hfound⟩ | ⟨hnone, hfails⟩
    · rw [hfound, Prod.mk.injEq, Except.ok.injEq]
      constructor
      · rintro ⟨rfl, rfl⟩
        exact ⟨hfits, hleast, hbudget, rfl⟩
      · rintro ⟨hother, hotherLeast, -, rfl⟩
        have hcount : found.iterations = dealt.iterations :=
          Nat.le_antisymm (hleast _ _ hother) (hotherLeast _ _ hfits)
        have hdeal : found.deal = dealt.deal := by
          have hsame := hfits.ofCards_eq
          rw [hcount, hother.ofCards_eq] at hsame
          exact (Except.ok.inj hsame).symm
        obtain rfl : found = dealt := by
          cases found
          cases dealt
          cases hcount
          cases hdeal
          rfl
        exact ⟨rfl, rfl⟩
    · rw [hfails]
      refine iff_of_false (by simp) fun ⟨hfits, _, hbudget, _⟩ ↦ ?_
      exact Int.not_lt.mpr hbudget (hnone _ _ hfits)
  case error =>
    rcases constraints.generate_cases shuffler state given with
      ⟨found, hfits, -, hbudget, hfound⟩ | ⟨hnone, hfails⟩
    · rw [hfound]
      refine iff_of_false (by simp) fun ⟨hnone, _, _⟩ ↦ ?_
      exact Int.not_lt.mpr hbudget (hnone _ _ hfits)
    · rw [hfails, Prod.mk.injEq, Except.error.injEq, and_iff_right hnone]
      exact Iff.and eq_comm eq_comm

end DealConstraints

end BridgeBidding
