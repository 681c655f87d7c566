import BridgeBidding.Auction.Play
import Mathlib.Logic.Function.Iterate

/-!
# The rotation of the seats

`Seat.advance` goes so many places round the table.  Calls laid out from the dealer on
(`Auction.inTurn`) put call number `i` at the seat `i` places from the dealer, and splitting the
entries anywhere is splitting the calls at the same place (`Auction.inTurn_eq_append_cons_iff`).
-/

set_option autoImplicit false
set_option relaxedAutoImplicit false

namespace BridgeBidding

namespace Seat

/-- The seat so many places further in clockwise order. -/
def advance (seat : Seat) (places : Nat) : Seat := next^[places] seat

@[simp] theorem advance_zero (seat : Seat) : seat.advance 0 = seat := rfl

theorem advance_succ (seat : Seat) (places : Nat) :
    seat.advance (places + 1) = (seat.advance places).next :=
  Function.iterate_succ_apply' next places seat

theorem advance_next (seat : Seat) (places : Nat) :
    seat.next.advance places = seat.advance (places + 1) := rfl

theorem advance_add (seat : Seat) (first second : Nat) :
    seat.advance (first + second) = (seat.advance first).advance second := by
  rw [advance, Nat.add_comm, Function.iterate_add_apply]
  rfl

/-- There are two sides: of three seats, if neighbours in the list are opponents, the outer two are
partners. -/
theorem sameSide_of_opponents {first second third : Seat}
    (hfirst : first.sameSide second = false) (hsecond : second.sameSide third = false) :
    first.sameSide third = true := by
  revert hfirst hsecond
  cases first <;> cases second <;> cases third <;> decide

end Seat

namespace Auction

@[simp] theorem inTurn_append (seat : Seat) (first second : List Call) :
    inTurn seat (first ++ second) =
      inTurn seat first ++ inTurn (seat.advance first.length) second := by
  induction first generalizing seat with
  | nil => rfl
  | cons call rest ih => simp [inTurn, ih, Seat.advance_next]

@[simp] theorem map_call_inTurn (seat : Seat) (calls : List Call) :
    (inTurn seat calls).map Entry.call = calls := by
  induction calls generalizing seat with
  | nil => rfl
  | cons call rest ih => simp [inTurn, ih]

theorem getElem?_inTurn (seat : Seat) (calls : List Call) (place : Nat) :
    (inTurn seat calls)[place]? = calls[place]?.map (Entry.mk (seat.advance place)) := by
  induction calls generalizing seat place with
  | nil => simp [inTurn]
  | cons call rest ih =>
    cases place with
    | zero => simp [inTurn]
    | succ place => simp [inTurn, ih, Seat.advance_next]

/-- The entries split where the calls split. -/
theorem inTurn_eq_append_cons_iff {seat : Seat} {calls : List Call} {entry : Entry}
    {earlier later : List Entry} :
    inTurn seat calls = earlier ++ entry :: later ↔
      ∃ before after, calls = before ++ entry.call :: after ∧ inTurn seat before = earlier ∧
        seat.advance before.length = entry.seat ∧
        inTurn (seat.advance (before.length + 1)) after = later := by
  constructor
  · intro h
    induction earlier generalizing seat calls with
    | nil =>
      cases calls with
      | nil => cases h
      | cons call rest =>
        rw [inTurn, List.nil_append, List.cons.injEq] at h
        obtain ⟨rfl, rfl⟩ := h
        exact ⟨[], rest, rfl, rfl, rfl, rfl⟩
    | cons first earlier ih =>
      cases calls with
      | nil => cases h
      | cons call rest =>
        rw [inTurn, List.cons_append, List.cons.injEq] at h
        obtain ⟨rfl, hrest⟩ := h
        obtain ⟨before, after, rfl, rfl, hseat, hlater⟩ := ih hrest
        exact ⟨call :: before, after, rfl, rfl, hseat, hlater⟩
  · rintro ⟨before, after, rfl, rfl, hseat, rfl⟩
    rw [inTurn_append, inTurn, hseat, Seat.advance_succ, hseat]

section Laid

variable (dealer : Seat) (calls : List Call)

@[simp] theorem entries_ofCalls : (ofCalls dealer calls).entries = inTurn dealer calls := rfl

@[simp] theorem isOver_ofCalls :
    (ofCalls dealer calls).isOver = isFinished (inTurn dealer calls) := rfl

/-- After any number of calls it is the turn of the seat that many places from the dealer. -/
@[simp] theorem toAct?_ofCalls :
    (ofCalls dealer calls).toAct? = some (dealer.advance calls.length) := by
  rcases List.eq_nil_or_concat calls with rfl | ⟨before, last, rfl⟩
  · rfl
  · simp [toAct?, inTurn, Seat.advance_succ]

theorem calls_ofCalls : (ofCalls dealer calls).calls = calls := map_call_inTurn ..

/-- Appending the call of the seat whose turn it is lays out one more call. -/
theorem append_ofCalls (call : Call) :
    (ofCalls dealer calls).append ⟨dealer.advance calls.length, call⟩ =
      ofCalls dealer (calls ++ [call]) := by
  simp [append, ofCalls, inTurn]

end Laid

end Auction

end BridgeBidding
