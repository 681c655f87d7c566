import BridgeBidding.Proofs.Auction.Building
import BridgeBidding.Proofs.Auction.LegalCalls

/-!
# Reachable auctions

An auction is reachable (`Auction.Reachable`) if calls have been added to it one after another from
the beginning, by whomever and whatever they were, as long as each could be added.  The dealer need
not be known at the beginning; then the seat that calls first becomes the dealer.

Apart from the empty one, the reachable auctions are those of legal calls laid out from the dealer
on (`Auction.Reachable.exists_isLegal`, `Auction.IsLegal.reachable`).
-/

set_option autoImplicit false
set_option relaxedAutoImplicit false

namespace BridgeBidding.Auction

variable {dealer : Option Seat} {auction next : Auction} {entry : Entry} {first seat : Seat}
  {calls : List Call}

/-- The auctions that adding calls leads to from the one in which nobody has called. -/
inductive Reachable (dealer : Option Seat) : Auction → Prop
  | empty : Reachable dealer (.empty dealer)
  | add {auction next : Auction} {entry : Entry} (hreach : Reachable dealer auction)
    (hadd : auction.add entry = .ok next) : Reachable dealer next

/-! ### Adding a call -/

/-- A call is added if it is not another seat's turn and the call is permitted. -/
theorem add_eq_ok_iff_permits :
    auction.add entry = .ok next ↔
      (auction.toAct? = none ∨ auction.toAct? = some entry.seat) ∧
        auction.permits entry.call entry.seat = true ∧ auction.append entry = next := by
  cases hturn : auction.toAct? with
  | some seat =>
    rw [add_eq_ok_iff hturn, Option.some.injEq, eq_comm (a := entry.seat)]
    simp only [reduceCtorEq, false_or]
  | none =>
    rw [eq_self_iff_true, true_or, true_and]
    unfold add
    rw [hturn]
    by_cases hpermits : auction.permits entry.call entry.seat = true
    · rw [isOver_of_permits hpermits, if_neg Bool.false_ne_true]
      simp only [hpermits, if_true, Except.ok.injEq, true_and]
    · cases auction.isOver <;> simp [hpermits]

/-- An accepted call makes the auction one call longer. -/
theorem length_of_add (h : auction.add entry = .ok next) : next.length = auction.length + 1 := by
  obtain ⟨-, -, rfl⟩ := add_eq_ok_iff_permits.mp h
  exact List.length_append

/-- The first call may be made by any seat if no dealer is known, and that seat is the dealer. -/
theorem add_empty_none_iff :
    (empty none).add entry = .ok next ↔ (empty (some entry.seat)).add entry = .ok next := by
  rw [add_eq_ok_iff_permits, add_eq_ok_iff_permits]
  exact Iff.and (iff_of_true (Or.inl rfl) (Or.inr rfl)) Iff.rfl

/-- If the dealer is known, somebody is to call. -/
theorem Reachable.exists_toAct? (h : Reachable (some first) auction) :
    ∃ seat, auction.toAct? = some seat := by
  induction h with
  | empty => exact ⟨first, rfl⟩
  | @add auction next entry _ hadd _ =>
    obtain ⟨-, -, rfl⟩ := add_eq_ok_iff_permits.mp hadd
    refine ⟨entry.seat.next, ?_⟩
    rw [toAct?, append, List.getLast?_concat]

/-! ### Auctions that are laid out -/

/-- The seat whose turn it is may go on with what it may call. -/
theorem Reachable.concat {call : Call} (h : Reachable dealer (ofCalls first calls))
    (hcall : mayCall first calls call = true) :
    Reachable dealer (ofCalls first (calls ++ [call])) := by
  have hadd : (ofCalls first calls).add ⟨first.advance calls.length, call⟩ =
      .ok (ofCalls first (calls ++ [call])) :=
    add_eq_ok_iff_permits.mpr
      ⟨.inr (toAct?_ofCalls first calls), hcall, append_ofCalls first calls call⟩
  exact h.add hadd

/-- An auction can be reached if each of its calls may be made after those before it. -/
theorem reachable_ofCalls (h : ∀ place (hplace : place < calls.length),
    mayCall first (calls.take place) calls[place] = true) :
    Reachable (some first) (ofCalls first calls) := by
  induction calls using List.reverseRecOn with
  | nil => exact .empty
  | append_singleton before last ih =>
    have hlast := h before.length (by simp)
    rw [List.take_left, List.getElem_concat_length rfl] at hlast
    refine (ih fun place hplace ↦ ?_).concat hlast
    have hearlier := h place (by simp; omega)
    rwa [List.take_append_of_le_length (Nat.le_of_lt hplace),
      List.getElem_append_left hplace] at hearlier

/-! ### Legal auctions and reachable ones -/

/-- The calls of a legal auction can be added one after another. -/
theorem IsLegal.reachable (h : IsLegal first calls) :
    Reachable (some first) (ofCalls first calls) := by
  induction calls using List.reverseRecOn with
  | nil => exact .empty
  | append_singleton before last ih =>
    have hbefore := (isLegal_concat_iff.mp h).1
    exact (ih hbefore).add (hbefore.add_eq_ok h)

/-- What can be reached with a dealer can be reached without one, but for the empty auction. -/
theorem Reachable.of_some (h : Reachable (some first) auction) :
    auction = .empty (some first) ∨ Reachable none auction := by
  induction h with
  | empty => exact Or.inl rfl
  | @add auction next entry _ hadd ih =>
    rcases ih with rfl | hreach
    · obtain ⟨hnone | hturn, -⟩ := add_eq_ok_iff_permits.mp hadd
      · cases hnone
      · obtain rfl : first = entry.seat := Option.some.inj hturn
        exact Or.inr (Reachable.empty.add (add_empty_none_iff.mpr hadd))
    · exact Or.inr (hreach.add hadd)

/-- Adding a call to a legal auction leads to a legal auction. -/
theorem IsLegal.exists_of_add (h : IsLegal first calls)
    (hadd : (ofCalls first calls).add entry = .ok next) :
    ∃ call, IsLegal first (calls ++ [call]) ∧ next = ofCalls first (calls ++ [call]) := by
  obtain ⟨hseat, hpermits, rfl⟩ := (add_eq_ok_iff (toAct?_ofCalls first calls)).mp hadd
  obtain ⟨seat, call⟩ := entry
  obtain rfl : seat = first.advance calls.length := hseat
  have hopen : ¬ Finished calls := by
    rw [← isFinished_inTurn_iff h, ← isOver_ofCalls, isOver_of_permits hpermits]
    exact Bool.false_ne_true
  have hfollow := (h.permits_iff hopen).mp hpermits
  exact ⟨call, isLegal_concat_iff.mpr ⟨h, hfollow, hopen⟩, append_ofCalls first calls call⟩

/-- A reachable auction holds legal calls, made in turn from the dealer on, unless there is no
dealer yet and nobody has called. -/
theorem Reachable.exists_isLegal (h : Reachable dealer auction) :
    auction = .empty none ∨
      ∃ first calls, IsLegal first calls ∧ auction = ofCalls first calls := by
  induction h with
  | empty =>
    cases dealer with
    | none => exact Or.inl rfl
    | some first => exact Or.inr ⟨first, [], isLegal_nil first, rfl⟩
  | @add auction next entry _ hadd ih =>
    refine Or.inr ?_
    rcases ih with rfl | ⟨first, calls, hlegal, rfl⟩
    · obtain ⟨call, hcall, hnext⟩ :=
        (isLegal_nil entry.seat).exists_of_add (add_empty_none_iff.mp hadd)
      exact ⟨entry.seat, _, hcall, hnext⟩
    · obtain ⟨call, hcall, hnext⟩ := hlegal.exists_of_add hadd
      exact ⟨first, _, hcall, hnext⟩

/-- In a reachable auction the seat whose turn it is sits as many places from the dealer as there
are calls. -/
theorem Reachable.exists_isLegal_of_toAct? (h : Reachable dealer auction)
    (hturn : auction.toAct? = some seat) :
    ∃ first calls, IsLegal first calls ∧ auction = ofCalls first calls ∧
      seat = first.advance calls.length := by
  rcases h.exists_isLegal with rfl | ⟨first, calls, hlegal, rfl⟩
  · cases hturn
  · rw [toAct?_ofCalls, Option.some.injEq] at hturn
    exact ⟨first, calls, hlegal, rfl, hturn.symm⟩

end BridgeBidding.Auction
