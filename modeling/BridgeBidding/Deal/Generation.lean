import BridgeBidding.Deal
import BridgeBidding.Deal.Shuffler

/-!
# Generating deals

A deal that meets given constraints is found by shuffling the deck again and again: the first
thirteen cards go to north, the next to east, and so on, until a deal meets the constraints or the
attempts run out.  Every shuffle starts from the order that the one before it left.

The deck keeps its cards through every shuffle (`Deck`), so the four hands need no further check.
-/

set_option autoImplicit false
set_option relaxedAutoImplicit false

namespace BridgeBidding

/-- The fifty-two cards in some order. -/
structure Deck where
  cards : List Card
  perm : cards.Perm Card.deck

namespace Deck

/-- The deck as it comes from its box. -/
def sorted : Deck := { cards := Card.deck, perm := .rfl }

theorem length_cards (deck : Deck) : deck.cards.length = 52 :=
  deck.perm.length_eq.trans rfl

theorem nodup_cards (deck : Deck) : deck.cards.Nodup :=
  deck.perm.nodup_iff.2 (by decide)

/-- The shuffled deck and the next state. -/
def shuffle {σ : Type} (shuffler : Shuffler σ) (state : σ) (deck : Deck) : Deck × σ :=
  ({ cards := (shuffler.shuffle state deck.cards).1
     perm := (shuffler.shuffle_perm state deck.cards).trans deck.perm },
    (shuffler.shuffle state deck.cards).2)

/-- The thirteen cards after the first `skipped` times thirteen. -/
def quarter (deck : Deck) (skipped : Fin 4) : Hand where
  cards := (deck.cards.drop (13 * skipped.val)).take 13
  length_cards := by
    rw [List.length_take, List.length_drop, deck.length_cards]
    omega
  nodup_cards := (deck.nodup_cards.sublist (List.drop_sublist _ _)).sublist (List.take_sublist _ _)

/-- The hand that a seat is dealt. -/
def handOf (deck : Deck) : Seat → Hand
  | .north => deck.quarter 0
  | .east => deck.quarter 1
  | .south => deck.quarter 2
  | .west => deck.quarter 3

/-- The deal of the deck's four hands. -/
def deal (deck : Deck) (dealer : Seat) (vulnerability : Vulnerability) : Deal :=
  let north := deck.handOf .north
  let east := deck.handOf .east
  let south := deck.handOf .south
  let west := deck.handOf .west
  { hand? := fun
      | .north => some north
      | .east => some east
      | .south => some south
      | .west => some west
    dealer
    vulnerability }

end Deck

/-- A deal and the number of shuffles that it took. -/
structure Dealt where
  deal : Deal
  iterations : Nat

namespace DealConstraints

/-- The number of attempts if nobody sets one. -/
def defaultAttempts : Int := 10000

/-- The number of attempts: the one given, else the one of the constraints, else the default.  Zero
counts as not set. -/
def attempts (constraints : DealConstraints) (given : Option Int) : Int :=
  let isSet (number : Int) : Bool := number != 0
  ((given.filter isSet).or (constraints.maximumAttempts.filter isSet)).getD defaultAttempts

/-- Shuffles up to `remaining` more times, having shuffled `done` times, until the deal meets the
constraints. -/
def search {σ : Type} (constraints : DealConstraints) (shuffler : Shuffler σ) (done : Nat) :
    Nat → σ → Deck → Option Dealt × σ
  | 0, state, _ => (none, state)
  | remaining + 1, state, deck =>
    let (shuffled, next) := deck.shuffle shuffler state
    let deal := shuffled.deal constraints.dealer constraints.vulnerability
    if constraints.admits deal then
      (some { deal, iterations := done + 1 }, next)
    else
      search constraints shuffler (done + 1) remaining next shuffled

/-- A deal that meets the constraints, and the state that the shuffler is left in. -/
def generate {σ : Type} (constraints : DealConstraints) (shuffler : Shuffler σ) (state : σ)
    (given : Option Int) : Except DealError Dealt × σ :=
  let budget := constraints.attempts given
  match constraints.search shuffler 0 budget.toNat state Deck.sorted with
  | (some dealt, next) => (.ok dealt, next)
  | (none, next) =>
    (.error (.exhausted budget (constraints.seats.map SeatConstraint.seat)), next)

end DealConstraints

end BridgeBidding
