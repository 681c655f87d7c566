import BridgeBidding.Proofs.Auction.Building

/-!
# How long an auction can be

Every legal call uses up something of which there is only so much.  `Auction.Room` counts what is
left: the bids that outrank the last one, the doubles and redoubles of the last bid, and the passes
until the auction ends.  A call other than a pass gives passes back, and a bid gives doubles back as
well, but never as much as it uses up, if a bid is worth nine calls and a double three
(`Auction.size_room_concat_lt`).  So a legal auction has at most 319 calls
(`Auction.IsLegal.length_le`).
-/

set_option autoImplicit false
set_option relaxedAutoImplicit false

namespace BridgeBidding

theorem Bid.rank_le (bid : Bid) : bid.rank ≤ 34 := by
  have hstrain := bid.strain.rank_lt_five
  have hlevel := bid.level.number_le_seven
  unfold rank
  omega

namespace Auction

/-! ### What is left -/

/-- How many bids, how many doubles and redoubles, and how many passes are left. -/
structure Room where
  bids : Nat
  doubles : Nat
  passes : Nat

namespace Room

/-- What is left before the first call. -/
def start : Room := { bids := 35, doubles := 0, passes := 4 }

/-- What is left after a call. -/
def after (room : Room) : Call → Room
  | .pass => { room with passes := room.passes - 1 }
  | .bid bid => { bids := 34 - bid.rank, doubles := 2, passes := 3 }
  | .double => { room with doubles := 1, passes := 3 }
  | .redouble => { room with doubles := 0, passes := 3 }

/-- How many calls there is room for. -/
def size (room : Room) : Nat := 9 * room.bids + 3 * room.doubles + room.passes

/-- An action gives three passes. -/
theorem passes_after {action : Call} (room : Room) (h : action ≠ .pass) :
    (room.after action).passes = 3 := by
  cases action with
  | pass => exact absurd rfl h
  | _ => rfl

/-- Passes use up passes only. -/
theorem foldl_after_replicate (room : Room) (count : Nat) :
    (List.replicate count Call.pass).foldl after room =
      { room with passes := room.passes - count } := by
  induction count with
  | zero => rfl
  | succ count ih =>
    rw [List.replicate_succ', List.foldl_append, ih, List.foldl_cons, List.foldl_nil, after,
      Nat.sub_sub]

end Room

/-- What is left after the calls. -/
def room (calls : List Call) : Room := calls.foldl Room.after Room.start

theorem room_concat (calls : List Call) (call : Call) :
    room (calls ++ [call]) = (room calls).after call := by
  rw [room, List.foldl_append, List.foldl_cons, List.foldl_nil, ← room]

variable {dealer : Seat} {calls : List Call}

/-- A bid that outranks all bids so far leaves fewer bids than they do. -/
theorem bids_room_lt {bid : Bid} (h : ∀ earlier, .bid earlier ∈ calls → earlier.rank < bid.rank) :
    34 - bid.rank < (room calls).bids := by
  induction calls using List.reverseRecOn with
  | nil => exact Nat.lt_succ_of_le (Nat.sub_le 34 bid.rank)
  | append_singleton before last ih =>
    have hbefore := ih fun earlier hearlier ↦ h earlier (List.mem_append_left _ hearlier)
    rw [room_concat]
    cases last with
    | bid last =>
      have hlast : last.rank < bid.rank := h last (by simp)
      have hbid := bid.rank_le
      change 34 - bid.rank < 34 - last.rank
      omega
    | _ => exact hbefore

/-- What is left when only passes follow an action. -/
theorem room_action_replicate (before : List Call) (action : Call) (count : Nat) :
    room (before ++ action :: List.replicate count .pass) =
      { (room before).after action with
        passes := ((room before).after action).passes - count } := by
  rw [List.append_cons, room, List.foldl_append, ← room, Room.foldl_after_replicate, room_concat]

theorem LastAction.exists_replicate {place : Nat} {action : Call}
    (h : LastAction calls place action) :
    ∃ before count, calls = before ++ action :: List.replicate count .pass := by
  obtain ⟨before, after, rfl, -, -, hpasses⟩ := h
  exact ⟨before, after.length, by rw [← List.eq_replicate_iff.mpr ⟨rfl, hpasses⟩]⟩

/-- A last action that is a bid can still be doubled and redoubled. -/
theorem doubles_room_of_bid {place : Nat} {bid : Bid} (h : LastAction calls place (.bid bid)) :
    (room calls).doubles = 2 := by
  obtain ⟨before, count, rfl⟩ := h.exists_replicate
  rw [room_action_replicate, Room.after]

/-- A last action that is a double can still be redoubled. -/
theorem doubles_room_of_double {place : Nat} (h : LastAction calls place .double) :
    (room calls).doubles = 1 := by
  obtain ⟨before, count, rfl⟩ := h.exists_replicate
  rw [room_action_replicate, Room.after]

/-- No call comes after the end of a legal auction. -/
theorem IsLegal.eq_nil_of_finished {further : List Call} (h : IsLegal dealer (calls ++ further))
    (hfinished : Finished calls) : further = [] := by
  cases further with
  | nil => rfl
  | cons call rest => exact absurd hfinished (h calls call rest rfl).2

/-- A legal auction without passes left has ended. -/
theorem IsLegal.finished_of_passes_room (h : IsLegal dealer calls)
    (hpasses : (room calls).passes = 0) : Finished calls := by
  by_cases haction : ∃ call ∈ calls, call ≠ .pass
  · obtain ⟨place, action, hlast⟩ := exists_lastAction haction
    have hne : action ≠ .pass := by
      obtain ⟨-, -, -, -, hne, -⟩ := hlast
      exact hne
    obtain ⟨before, count, rfl⟩ := hlast.exists_replicate
    rw [room_action_replicate, Room.passes_after _ hne] at hpasses
    obtain ⟨more, rfl⟩ := Nat.exists_eq_add_of_le (Nat.le_of_sub_eq_zero hpasses)
    have hended : Finished (before ++ action :: List.replicate 3 .pass) :=
      Or.inr ⟨before, action, hne, rfl⟩
    rw [List.replicate_add, ← List.cons_append, ← List.append_assoc] at h ⊢
    rw [h.eq_nil_of_finished hended, List.append_nil]
    exact hended
  · have hall : ∀ call ∈ calls, call = .pass := by
      intro call hcall
      by_contra hne
      exact haction ⟨call, hcall, hne⟩
    obtain ⟨count, rfl⟩ : ∃ count, calls = List.replicate count .pass :=
      ⟨calls.length, List.eq_replicate_iff.mpr ⟨rfl, hall⟩⟩
    rw [room, Room.foldl_after_replicate] at hpasses
    obtain ⟨more, rfl⟩ := Nat.exists_eq_add_of_le (Nat.le_of_sub_eq_zero hpasses)
    have hended : Finished (List.replicate 4 .pass) := Or.inl rfl
    rw [Room.start, List.replicate_add] at h ⊢
    rw [h.eq_nil_of_finished hended, List.append_nil]
    exact hended

/-! ### Calls use it up -/

/-- A legal call leaves room for fewer calls. -/
theorem size_room_concat_lt {call : Call} (h : IsLegal dealer (calls ++ [call])) :
    (room (calls ++ [call])).size < (room calls).size := by
  obtain ⟨hcalls, hfollow, hopen⟩ := isLegal_concat_iff.mp h
  have hpasses : 0 < (room calls).passes :=
    Nat.pos_of_ne_zero fun hzero ↦ hopen (hcalls.finished_of_passes_room hzero)
  rw [room_concat, Room.size, Room.size]
  cases call with
  | pass =>
    simp only [Room.after]
    omega
  | bid bid =>
    have hbids := bids_room_lt hfollow
    simp only [Room.after]
    omega
  | double =>
    obtain ⟨place, bid, hlast, -⟩ := hfollow
    have hdoubles := doubles_room_of_bid hlast
    simp only [Room.after]
    omega
  | redouble =>
    obtain ⟨⟨place, hlast, -⟩, -⟩ := hfollow
    have hdoubles := doubles_room_of_double hlast
    simp only [Room.after]
    omega

/-- The calls of a legal auction and those that there is still room for. -/
theorem IsLegal.length_add_size_le (h : IsLegal dealer calls) :
    calls.length + (room calls).size ≤ 319 := by
  induction calls using List.reverseRecOn with
  | nil => exact Nat.le_of_eq rfl
  | append_singleton before last ih =>
    have hbefore := ih (isLegal_concat_iff.mp h).1
    have hstep := size_room_concat_lt h
    rw [List.length_append, List.length_singleton]
    omega

/-- A legal auction has at most 319 calls: nine for every bid, and the four passes. -/
theorem IsLegal.length_le (h : IsLegal dealer calls) : calls.length ≤ 319 :=
  Nat.le_trans (Nat.le_add_right _ _) h.length_add_size_le

end Auction

end BridgeBidding
