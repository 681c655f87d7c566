import BridgeBidding.Position
import BridgeBidding.Proofs.Auction.Legality

/-!
# Uncontested auctions

In an uncontested auction one side calls as it likes (`say`) and the other side always passes.
Whatever the first side calls, its bids answer one another: each is made by the partner of the seat
that made the one before, over one pass (`Auction.exchange`), because two passes by that side in
a row are already two of the three that end the auction.  `Auction.Uncontested.exists_exchange`
tells what the auction is when it is that side's turn.

The bids of an auction with their seats (`Auction.seatBids`) are all that a seat needs to know who
opened, what partner bid, and which bid has to be outranked.
-/

set_option autoImplicit false
set_option relaxedAutoImplicit false

namespace BridgeBidding

namespace Seat

theorem sameSide_next (seat side : Seat) : seat.next.sameSide side = !seat.sameSide side := by
  cases seat <;> cases side <;> rfl

theorem sameSide_advance_succ (seat side : Seat) (places : Nat) :
    (seat.advance (places + 1)).sameSide side = !(seat.advance places).sameSide side := by
  rw [advance_succ, sameSide_next]

/-- Every second seat is on one side. -/
theorem sameSide_advance_double (seat side : Seat) (places : Nat) :
    (seat.advance (2 * places)).sameSide side = seat.sameSide side := by
  induction places with
  | zero => rfl
  | succ places ih =>
    rw [Nat.mul_succ, sameSide_advance_succ, sameSide_advance_succ, Bool.not_not, ih]

theorem partner_ne_self (seat : Seat) : seat.partner ≠ seat := by
  cases seat <;> decide

end Seat

/-! ### The bids with their seats -/

namespace Auction

theorem lastBid?_eq_getLast? (auction : Auction) :
    auction.lastBid? = auction.seatBids.getLast? := by
  rw [lastBid?, seatBids, List.getLast?_filterMap]

end Auction

namespace Position

theorem openingBid?_eq_head? (position : Position) :
    position.openingBid? = position.auction.seatBids.head? := by
  rw [openingBid?, Auction.openingBid?, Auction.seatBids, List.head?_filterMap]

theorem openingBid?_of_no_bid {position : Position} (h : position.auction.seatBids = []) :
    position.openingBid? = none := by
  rw [openingBid?_eq_head?, h, List.head?_nil]

theorem openingBid?_of_bids {position : Position} {made : Seat × Bid} {later : List (Seat × Bid)}
    (h : position.auction.seatBids = made :: later) : position.openingBid? = some made := by
  rw [openingBid?_eq_head?, h, List.head?_cons]

theorem bidsBy_eq (position : Position) (seat : Seat) :
    position.bidsBy seat =
      (position.auction.seatBids.filter fun made ↦ decide (made.1 = seat)).map Prod.snd := by
  rw [bidsBy, Auction.seatBids, List.filter_filterMap, List.map_filterMap]
  congr 1
  funext entry
  cases hbid : entry.bid? with
  | none => simp [Entry.seatBid?, hbid]
  | some bid =>
    by_cases hseat : entry.seat = seat
    · simp [Entry.seatBid?, hbid, hseat, Option.filter]
    · simp [Entry.seatBid?, hbid, hseat, Option.filter]

/-- The opener's first bid is the opening. -/
theorem head?_bidsBy_of_openingBid? {position : Position} {opener : Seat} {opening : Bid}
    (h : position.openingBid? = some (opener, opening)) :
    (position.bidsBy opener).head? = some opening := by
  rw [openingBid?_eq_head?, List.head?_eq_some_iff] at h
  obtain ⟨later, hlater⟩ := h
  simp [bidsBy_eq, hlater]

end Position

namespace Auction

/-! ### Bids that answer one another -/

/-- So many passes, and then every bid with a pass over it. -/
def exchange (lead : Nat) (bids : List Bid) : List Call :=
  List.replicate lead .pass ++ bids.flatMap fun bid ↦ [.bid bid, .pass]

/-- The bids with the seats that make them when each answers partner. -/
def answering : Seat → List Bid → List (Seat × Bid)
  | _, [] => []
  | seat, bid :: rest => (seat, bid) :: answering seat.partner rest

theorem exchange_concat (lead : Nat) (bids : List Bid) (bid : Bid) :
    exchange lead (bids ++ [bid]) = exchange lead bids ++ [.bid bid, .pass] := by
  simp [exchange]

theorem exchange_nil_concat_pass (lead : Nat) :
    exchange lead [] ++ [.pass] = exchange (lead + 1) [] := by
  simp [exchange, List.replicate_succ']

@[simp] theorem length_exchange (lead : Nat) (bids : List Bid) :
    (exchange lead bids).length = lead + 2 * bids.length := by
  induction bids using List.reverseRecOn with
  | nil => simp [exchange]
  | append_singleton bids bid ih =>
    rw [exchange_concat, List.length_append, ih]
    simp [Nat.mul_succ, Nat.add_assoc]

theorem seatBids_inTurn_replicate_pass (seat : Seat) (count : Nat) :
    (inTurn seat (List.replicate count .pass)).filterMap Entry.seatBid? = [] := by
  induction count generalizing seat with
  | zero => rfl
  | succ count ih =>
    rw [List.replicate_succ, inTurn, List.filterMap_cons_none rfl]
    exact ih seat.next

theorem seatBids_inTurn_flatMap (seat : Seat) (bids : List Bid) :
    (inTurn seat (bids.flatMap fun bid ↦ [.bid bid, .pass])).filterMap Entry.seatBid? =
      answering seat bids := by
  induction bids generalizing seat with
  | nil => rfl
  | cons bid rest ih =>
    have hbid : (Entry.mk seat (.bid bid)).seatBid? = some (seat, bid) := rfl
    have hpass : (Entry.mk seat.next .pass).seatBid? = none := rfl
    rw [List.flatMap_cons, List.cons_append, List.singleton_append, inTurn, inTurn, answering,
      List.filterMap_cons_some hbid, List.filterMap_cons_none hpass]
    exact congrArg _ (ih seat.partner)

theorem seatBids_exchange (dealer : Seat) (lead : Nat) (bids : List Bid) :
    (ofCalls dealer (exchange lead bids)).seatBids = answering (dealer.advance lead) bids := by
  rw [seatBids, entries_ofCalls, exchange, inTurn_append, List.filterMap_append,
    seatBids_inTurn_replicate_pass, List.nil_append, List.length_replicate,
    seatBids_inTurn_flatMap]

/-- The last action of an exchange is its last bid, two places before the seat to call. -/
theorem lastAction?_exchange_concat (dealer : Seat) (lead : Nat) (bids : List Bid) (bid : Bid) :
    (ofCalls dealer (exchange lead (bids ++ [bid]))).lastAction? =
      some ⟨dealer.advance (lead + 2 * bids.length), .bid bid⟩ := by
  refine lastAction?_ofCalls_eq_some_iff.mpr ⟨_, ⟨exchange lead bids, [.pass], ?_, ?_, ?_, ?_⟩, rfl⟩
  · exact exchange_concat lead bids bid
  · exact length_exchange lead bids
  · simp
  · simp

theorem lastAction?_exchange_nil (dealer : Seat) (lead : Nat) :
    (ofCalls dealer (exchange lead [])).lastAction? = none := by
  rw [lastAction?, List.find?_eq_none]
  intro entry hentry
  rw [List.mem_reverse, entries_ofCalls, exchange, List.flatMap_nil, List.append_nil] at hentry
  have hpasses : ∀ entry ∈ inTurn dealer (List.replicate lead .pass), entry.call = .pass :=
    (forall_mem_inTurn_iff dealer).mpr fun call hcall ↦ List.eq_of_mem_replicate hcall
  simp [Entry.isPass, hpasses entry hentry, Call.isPass]

/-- No double is permitted to the side that alone has bid. -/
theorem exists_bid_of_permits_exchange {dealer : Seat} {lead : Nat} {bids : List Bid} {call : Call}
    (h : (ofCalls dealer (exchange lead bids)).permits call
      (dealer.advance (lead + 2 * bids.length)) = true) :
    call = .pass ∨ ∃ bid, call = .bid bid := by
  have hside (places : Nat) :
      (dealer.advance places).sameSide (dealer.advance (places + 2)) = true := by
    rw [Seat.sameSide_comm, Seat.sameSide_advance_succ, Seat.sameSide_advance_succ]
    cases dealer.advance places <;> rfl
  rw [permits.eq_def, Bool.and_eq_true] at h
  rcases List.eq_nil_or_concat bids with rfl | ⟨before, last, rfl⟩
  · have hnone := lastAction?_exchange_nil dealer lead
    cases call with
    | pass => exact Or.inl rfl
    | bid bid => exact Or.inr ⟨bid, rfl⟩
    | double => simp [permitsDouble, hnone] at h
    | redouble => simp [permitsRedouble, hnone] at h
  · have hlast := lastAction?_exchange_concat dealer lead before last
    rw [List.concat_eq_append] at h
    cases call with
    | pass => exact Or.inl rfl
    | bid bid => exact Or.inr ⟨bid, rfl⟩
    | double =>
      simp [permitsDouble, hlast, Nat.mul_succ, ← Nat.add_assoc, hside] at h
    | redouble => simp [permitsRedouble, hlast] at h

theorem isFinished_exchange_passes {dealer : Seat} {lead : Nat} {bids : List Bid}
    (hbids : bids ≠ []) :
    isFinished (inTurn dealer (exchange lead bids ++ [.pass, .pass])) = true := by
  obtain ⟨before, last, rfl⟩ := (List.eq_nil_or_concat bids).resolve_left hbids
  refine isFinished_iff.mpr ⟨exchange lead before ++ [.bid last], ?_, Or.inr ⟨.bid last, ?_⟩⟩
  · rw [map_call_inTurn, List.concat_eq_append, exchange_concat]
    simp [List.replicate]
  · simp

/-- Before the first bid every bid is permitted. -/
theorem permits_of_no_bid {auction : Auction} (hopen : auction.isOver = false)
    (hbids : auction.seatBids = []) {call : Call} (hcall : call = .pass ∨ ∃ bid, call = .bid bid)
    (seat : Seat) : auction.permits call seat = true := by
  have hlast : auction.lastBid? = none := by
    rw [lastBid?_eq_getLast?, hbids]
    rfl
  rcases hcall with rfl | ⟨bid, rfl⟩
  · simp [permits, hopen]
  · simp [permits, hopen, permitsBid, hlast]

/-- After that a bid is permitted if it outranks the last one. -/
theorem permits_iff_outranks {auction : Auction} (hopen : auction.isOver = false) {bidder : Seat}
    {last : Bid} (hlast : auction.seatBids.getLast? = some (bidder, last)) {call : Call}
    (hcall : call = .pass ∨ ∃ bid, call = .bid bid) (seat : Seat) :
    auction.permits call seat = true ↔ ∀ bid, call = .bid bid → bid.outranks last = true := by
  rw [← lastBid?_eq_getLast?] at hlast
  rcases hcall with rfl | ⟨bid, rfl⟩
  · simp [permits, hopen]
  · simp [permits, hopen, permitsBid, hlast]

/-! ### Runs -/

/-- The auctions in which the members of a side call as they like and the other side passes. -/
inductive Uncontested (side : Seat) (say : Auction → Seat → Call) (dealer : Seat) : Auction → Prop
  | start : Uncontested side say dealer (empty (some dealer))
  | call {auction next : Auction} {seat : Seat} (hrun : Uncontested side say dealer auction)
    (hturn : auction.toAct? = some seat)
    (hadd : auction.add ⟨seat, if seat.sameSide side then say auction seat else .pass⟩ =
      .ok next) : Uncontested side say dealer next

section Runs

variable {side : Seat} {say : Auction → Seat → Call} {dealer : Seat}

/-- The bids are what the side called when its turns came, the first of them at a member's turn. -/
def Spoken (side : Seat) (say : Auction → Seat → Call) (dealer : Seat) (lead : Nat)
    (bids : List Bid) : Prop :=
  (bids ≠ [] → (dealer.advance lead).sameSide side = true) ∧
    ∀ before bid after, bids = before ++ bid :: after →
      say (ofCalls dealer (exchange lead before)) (dealer.advance (lead + 2 * before.length)) =
        .bid bid

/-- Where an uncontested auction stands: at the end of an exchange, after one more bid, or after one
or two passes that follow an exchange. -/
inductive Stage (side : Seat) (say : Auction → Seat → Call) (dealer : Seat) : List Call → Prop
  | exchanged {lead : Nat} {bids : List Bid} (hspoken : Spoken side say dealer lead bids) :
    Stage side say dealer (exchange lead bids)
  | bid {lead : Nat} {bids : List Bid} {bid : Bid}
    (hspoken : Spoken side say dealer lead (bids ++ [bid])) :
    Stage side say dealer (exchange lead bids ++ [.bid bid])
  | passed {lead : Nat} {bids : List Bid} (hbids : bids ≠ [])
    (hspoken : Spoken side say dealer lead bids) :
    Stage side say dealer (exchange lead bids ++ [.pass])
  | ended {lead : Nat} {bids : List Bid} (hbids : bids ≠ []) :
    Stage side say dealer (exchange lead bids ++ [.pass, .pass])

theorem spoken_nil (lead : Nat) : Spoken side say dealer lead [] :=
  ⟨fun h ↦ absurd rfl h, fun before bid after h ↦ by simp at h⟩

/-- After an exchange of bids it is the turn of the side that made them. -/
theorem Spoken.sameSide {lead : Nat} {bids : List Bid} (h : Spoken side say dealer lead bids)
    (hbids : bids ≠ []) : (dealer.advance (lead + 2 * bids.length)).sameSide side = true := by
  rw [Seat.advance_add, Seat.sameSide_advance_double, h.1 hbids]

/-- Over a bid, and over a pass after an exchange of bids, it is the other side's turn. -/
theorem Spoken.sameSide_over_bid {lead : Nat} {bids : List Bid} {bid : Bid}
    (h : Spoken side say dealer lead (bids ++ [bid])) :
    (dealer.advance (exchange lead bids ++ [Call.bid bid]).length).sameSide side = false := by
  have hnext := h.sameSide (List.concat_ne_nil bid bids)
  rw [List.length_append, List.length_singleton, Nat.mul_succ, ← Nat.add_assoc,
    Seat.sameSide_advance_succ, Seat.sameSide_advance_succ, Bool.not_not] at hnext
  rw [List.length_append, length_exchange, List.length_singleton, Seat.sameSide_advance_succ,
    hnext, Bool.not_true]

theorem Spoken.sameSide_over_pass {lead : Nat} {bids : List Bid}
    (h : Spoken side say dealer lead bids) (hbids : bids ≠ []) :
    (dealer.advance (exchange lead bids ++ [Call.pass]).length).sameSide side = false := by
  rw [List.length_append, length_exchange, List.length_singleton, Seat.sameSide_advance_succ,
    h.sameSide hbids, Bool.not_true]

theorem Spoken.concat {lead : Nat} {bids : List Bid} {bid : Bid}
    (h : Spoken side say dealer lead bids)
    (hside : (dealer.advance (lead + 2 * bids.length)).sameSide side = true)
    (hsay : say (ofCalls dealer (exchange lead bids)) (dealer.advance (lead + 2 * bids.length)) =
      .bid bid) : Spoken side say dealer lead (bids ++ [bid]) := by
  constructor
  · intro _
    rwa [Seat.advance_add, Seat.sameSide_advance_double] at hside
  · intro before other after hsplit
    rcases split_concat hsplit with ⟨rfl, rfl⟩ | ⟨between, hbids⟩
    · exact hsay
    · exact h.2 before other between hbids

/-- A call that is added in turn is permitted, and the auction is not over. -/
theorem add_ofCalls_eq_ok {calls : List Call} {entry : Entry} {next : Auction}
    (h : (ofCalls dealer calls).add entry = .ok next) :
    (ofCalls dealer calls).isOver = false ∧ entry.seat = dealer.advance calls.length ∧
      (ofCalls dealer calls).permits entry.call entry.seat = true ∧
      next = ofCalls dealer (calls ++ [entry.call]) := by
  obtain ⟨hseat, hpermits, hnext⟩ := (add_eq_ok_iff (toAct?_ofCalls ..)).mp h
  refine ⟨isOver_of_permits hpermits, hseat, hpermits, ?_⟩
  rw [← hnext, ← append_ofCalls, ← hseat]

/-- One call leads from stage to stage. -/
theorem Stage.add {calls : List Call} {seat : Seat} {next : Auction}
    (h : Stage side say dealer calls)
    (hadd : (ofCalls dealer calls).add
      ⟨seat, if seat.sameSide side then say (ofCalls dealer calls) seat else .pass⟩ = .ok next) :
    ∃ further, next = ofCalls dealer further ∧ Stage side say dealer further := by
  obtain ⟨hopen, hseat, hpermits, rfl⟩ := add_ofCalls_eq_ok hadd
  refine ⟨_, rfl, ?_⟩
  simp only at hseat hpermits
  cases h with
  | @exchanged lead bids hspoken =>
    rw [length_exchange] at hseat
    subst hseat
    by_cases hside : (dealer.advance (lead + 2 * bids.length)).sameSide side = true
    · rw [if_pos hside] at hpermits ⊢
      rcases exists_bid_of_permits_exchange hpermits with hpass | ⟨bid, hbid⟩
      · rw [hpass]
        by_cases hbids : bids = []
        · subst hbids
          rw [exchange_nil_concat_pass]
          exact .exchanged (spoken_nil _)
        · exact .passed hbids hspoken
      · rw [hbid]
        exact .bid (hspoken.concat hside hbid)
    · rw [if_neg hside]
      have hbids : bids = [] := by
        by_contra hne
        exact hside (hspoken.sameSide hne)
      subst hbids
      rw [exchange_nil_concat_pass]
      exact .exchanged (spoken_nil _)
  | @bid lead bids bid hspoken =>
    have hside : seat.sameSide side = false := hseat ▸ hspoken.sameSide_over_bid
    rw [hside, if_neg (by simp), List.append_assoc, List.singleton_append, ← exchange_concat]
    exact .exchanged hspoken
  | @passed lead bids hbids hspoken =>
    have hside : seat.sameSide side = false := hseat ▸ hspoken.sameSide_over_pass hbids
    rw [hside, if_neg (by simp), List.append_assoc, List.singleton_append]
    exact .ended hbids
  | ended hbids =>
    rw [isOver_ofCalls, isFinished_exchange_passes hbids] at hopen
    cases hopen

/-- Every uncontested auction is at some stage. -/
theorem Uncontested.exists_stage {auction : Auction} (h : Uncontested side say dealer auction) :
    ∃ calls, auction = ofCalls dealer calls ∧ Stage side say dealer calls := by
  induction h with
  | start => exact ⟨exchange 0 [], rfl, .exchanged (spoken_nil 0)⟩
  | call _ _ hadd ih =>
    obtain ⟨calls, rfl, hstage⟩ := ih
    exact hstage.add hadd

/-- When it is a member's turn, the auction is an exchange of bids that the members called. -/
theorem Uncontested.exists_exchange {auction : Auction} {seat : Seat}
    (h : Uncontested side say dealer auction) (hopen : auction.isOver = false)
    (hturn : auction.toAct? = some seat) (hside : seat.sameSide side = true) :
    ∃ lead bids, auction = ofCalls dealer (exchange lead bids) ∧
      seat = dealer.advance (lead + 2 * bids.length) ∧ Spoken side say dealer lead bids := by
  obtain ⟨calls, rfl, hstage⟩ := h.exists_stage
  rw [toAct?_ofCalls, Option.some.injEq] at hturn
  subst hturn
  cases hstage with
  | @exchanged lead bids hspoken =>
    exact ⟨lead, bids, rfl, by rw [length_exchange], hspoken⟩
  | bid hspoken => cases hside.symm.trans hspoken.sameSide_over_bid
  | passed hbids hspoken => cases hside.symm.trans (hspoken.sameSide_over_pass hbids)
  | ended hbids =>
    rw [isOver_ofCalls, isFinished_exchange_passes hbids] at hopen
    cases hopen

end Runs

end Auction

end BridgeBidding
