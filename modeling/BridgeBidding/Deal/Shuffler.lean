import BridgeBidding.Card

/-!
# Shuffling

A `Shuffler` turns its state and a list of cards into another order of the same cards and its next
state.  `Shuffler.congruential` draws numbers from a linear congruential generator of sixty-four
bits and, from the last place down to the second, swaps each card with the one at a drawn place not
above it.
-/

set_option autoImplicit false
set_option relaxedAutoImplicit false

namespace BridgeBidding

/-- A source of shuffles with states of type `σ`; each seed has a state to start from. -/
structure Shuffler (σ : Type) where
  start : Int → σ
  shuffle : σ → List Card → List Card × σ
  shuffle_perm : ∀ (state : σ) (cards : List Card), (shuffle state cards).1.Perm cards

namespace Congruential

/-- The state after a draw. -/
@[irreducible] def step (state : UInt64) : UInt64 :=
  state * 6364136223846793005 + 1442695040888963407

/-- The number drawn with a state: its upper thirty-one bits. -/
def drawn (state : UInt64) : Nat :=
  (state >>> 33).toNat

/-- Swaps every card from place `top` down to place one with a card not above it. -/
def swapDown (state : UInt64) : Nat → Array Card → Array Card × UInt64
  | 0, cards => (cards, state)
  | top + 1, cards =>
    let next := step state
    swapDown next top (cards.swapIfInBounds (top + 1) (drawn next % (top + 2)))

theorem swapIfInBounds_perm (cards : Array Card) (first second : Nat) :
    (cards.swapIfInBounds first second).Perm cards := by
  unfold Array.swapIfInBounds
  split
  · split
    · exact Array.swap_perm _ _
    · exact .rfl
  · exact .rfl

theorem swapDown_perm (state : UInt64) (top : Nat) (cards : Array Card) :
    (swapDown state top cards).1.Perm cards := by
  induction top generalizing state cards with
  | zero => simp only [swapDown, Array.Perm.refl]
  | succ top ih =>
    simp only [swapDown]
    exact (ih _ _).trans (swapIfInBounds_perm _ _ _)

end Congruential

namespace Shuffler

/-- The shuffler of the linear congruential generator.  A seed of any size is taken modulo the
number of states. -/
def congruential : Shuffler UInt64 where
  start seed := UInt64.ofNat (seed % 18446744073709551616).toNat
  shuffle state cards :=
    let (shuffled, next) := Congruential.swapDown state (cards.length - 1) cards.toArray
    (shuffled.toList, next)
  shuffle_perm state cards :=
    Array.perm_iff_toList_perm.1 (Congruential.swapDown_perm state (cards.length - 1) cards.toArray)

end Shuffler

end BridgeBidding
