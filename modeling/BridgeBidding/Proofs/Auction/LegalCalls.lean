import BridgeBidding.Proofs.Auction.Legality

/-!
# The legal calls of a seat

Every call stands once in `Call.all`, and so the legal calls of a seat are exactly those permitted
to it, each listed once (`Auction.mem_legalCalls_iff`, `Auction.nodup_legalCalls`).  Which calls the
seat whose turn it is may make after given calls is a matter of computing (`Auction.mayCall`).
-/

set_option autoImplicit false
set_option relaxedAutoImplicit false

namespace BridgeBidding

theorem Seat.mem_all (seat : Seat) : seat ∈ Seat.all := by
  cases seat <;> decide

theorem Bid.mem_all (bid : Bid) : bid ∈ Bid.all := by
  obtain ⟨level, strain⟩ := bid
  refine List.mem_flatMap.mpr ⟨level, ?_, List.mem_map_of_mem ?_⟩
  · cases level <;> decide
  · cases strain <;> decide

namespace Call

theorem mem_all (call : Call) : call ∈ all := by
  unfold all
  cases call with
  | pass => exact List.mem_cons_self
  | bid made =>
    exact List.mem_append_left _ (List.mem_cons_of_mem _ (List.mem_map_of_mem (Bid.mem_all made)))
  | double => exact List.mem_append_right _ (by decide)
  | redouble => exact List.mem_append_right _ (by decide)

theorem nodup_all : all.Nodup := by decide

end Call

namespace Auction

variable {auction : Auction} {call : Call} {seat : Seat}

/-- The legal calls of a seat are those permitted to it. -/
theorem mem_legalCalls_iff : call ∈ auction.legalCalls seat ↔ auction.permits call seat = true := by
  unfold legalCalls
  by_cases hover : auction.isOver = true
  · rw [if_pos hover]
    refine iff_of_false List.not_mem_nil fun hpermits ↦ ?_
    rw [isOver_of_permits hpermits] at hover
    cases hover
  · rw [if_neg hover, List.mem_filter, and_iff_right (Call.mem_all call)]

/-- No legal call is listed twice. -/
theorem nodup_legalCalls (auction : Auction) (seat : Seat) : (auction.legalCalls seat).Nodup := by
  unfold legalCalls
  split_ifs
  · exact List.nodup_nil
  · exact Call.nodup_all.filter _

theorem permits_pass (h : auction.isOver = false) (seat : Seat) :
    auction.permits .pass seat = true := by
  rw [permits, h]
  rfl

/-! ### The seat whose turn it is -/

/-- The call is permitted after the calls to the seat whose turn it is. -/
def mayCall (dealer : Seat) (calls : List Call) (call : Call) : Bool :=
  (ofCalls dealer calls).permits call (dealer.advance calls.length)

/-- Whoever deals, the calls are permitted after the others to the seat whose turn it is. -/
def mayCallAll (calls answers : List Call) : Bool :=
  Seat.all.all fun dealer ↦ answers.all fun call ↦ mayCall dealer calls call

theorem mayCall_of_mayCallAll {calls answers : List Call} (h : mayCallAll calls answers = true)
    (dealer : Seat) {call : Call} (hcall : call ∈ answers) : mayCall dealer calls call = true :=
  List.all_eq_true.mp (List.all_eq_true.mp h dealer (Seat.mem_all dealer)) call hcall

end Auction

end BridgeBidding
