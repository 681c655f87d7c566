import BridgeBidding.Proofs.Auction.Reachable

/-!
# What a seat is offered

The legal calls of a seat are listed in the order in which all calls are: a pass, the bids above the
last one in rising order, and then a double or a redouble, if the last action gives the seat one
(`Auction.Marks`).  The last action belongs to one side and is a bid or a double, so that the two
are never offered at one time, nor to both sides (`Auction.Offer`, `Auction.Reachable.offer`).
-/

set_option autoImplicit false
set_option relaxedAutoImplicit false

namespace BridgeBidding

theorem Seat.sameSide_partner (seat other : Seat) :
    other.sameSide seat.partner = other.sameSide seat := by
  cases seat <;> cases other <;> rfl

namespace Bid

theorem map_rank_all : all.map rank = List.range 35 := by decide

/-- All bids are listed in rising order. -/
theorem pairwise_all : all.Pairwise fun low high ↦ high.outranks low = true := by
  have hrank : (all.map rank).Pairwise (· < ·) := map_rank_all ▸ List.pairwise_lt_range
  exact (List.pairwise_map.mp hrank).imp outranks_iff_rank_lt.mpr

end Bid

namespace Auction

variable {auction : Auction} {dealer : Option Seat} {seat other : Seat} {call mark : Call}

/-! ### Doubles and redoubles -/

/-- The call marks the other as a double marks a bid and a redouble a double. -/
inductive Marks : Call → Call → Prop
  | double (bid : Bid) : Marks .double (.bid bid)
  | redouble : Marks .redouble .double

/-- A mark is permitted if the last action is the other side's and one that it marks. -/
theorem permits_mark_iff (hmark : mark = .double ∨ mark = .redouble) :
    auction.permits mark seat = true ↔ auction.isOver = false ∧
      ∃ last, auction.lastAction? = some last ∧ Marks mark last.call ∧
        last.seat.sameSide seat = false := by
  rw [permits.eq_def, Bool.and_eq_true, Bool.not_eq_true']
  refine and_congr_right fun _ ↦ ?_
  rcases hmark with rfl | rfl
  · rw [permitsDouble_eq_true_iff]
    constructor
    · rintro ⟨bidder, bid, hlast, hside⟩
      exact ⟨_, hlast, .double bid, hside⟩
    · rintro ⟨⟨bidder, call⟩, hlast, hmarks, hside⟩
      cases hmarks with
      | double bid => exact ⟨bidder, bid, hlast, hside⟩
  · rw [permitsRedouble_eq_true_iff]
    constructor
    · rintro ⟨doubler, hlast, hside⟩
      exact ⟨_, hlast, .redouble, hside⟩
    · rintro ⟨⟨doubler, call⟩, hlast, hmarks, hside⟩
      cases hmarks
      exact ⟨doubler, hlast, hside⟩

/-- Partners are permitted the same marks. -/
theorem permits_mark_partner (hmark : mark = .double ∨ mark = .redouble) :
    auction.permits mark seat.partner = true ↔ auction.permits mark seat = true := by
  simp only [permits_mark_iff hmark, Seat.sameSide_partner]

/-- Opponents are not permitted the same mark. -/
theorem not_permits_mark_of_opponents (hmark : mark = .double ∨ mark = .redouble)
    (hseat : auction.permits mark seat = true) (hside : seat.sameSide other = false) :
    ¬ auction.permits mark other = true := by
  rw [permits_mark_iff hmark] at hseat ⊢
  rintro ⟨-, last, hlast, -, hother⟩
  obtain ⟨-, same, hsame, -, hopponent⟩ := hseat
  obtain rfl := Option.some.inj (hlast.symm.trans hsame)
  rw [Seat.sameSide_of_opponents hopponent hside] at hother
  cases hother

/-- The last action gives occasion for one mark only. -/
theorem not_permits_double_and_redouble :
    ¬ (auction.permits .double seat = true ∧ auction.permits .redouble other = true) := by
  rw [permits_mark_iff (.inl rfl), permits_mark_iff (.inr rfl)]
  rintro ⟨⟨-, last, hlast, hdoubles, -⟩, -, same, hsame, hredoubles, -⟩
  obtain rfl := Option.some.inj (hlast.symm.trans hsame)
  generalize last.call = marked at hdoubles hredoubles
  cases hdoubles
  cases hredoubles

/-! ### The list -/

theorem permits_bid_iff {bid : Bid} :
    auction.permits (.bid bid) seat = true ↔ auction.isOver = false ∧
      ∀ bidder last, auction.lastBid? = some (bidder, last) → bid.outranks last = true := by
  rw [permits.eq_def, Bool.and_eq_true, Bool.not_eq_true']
  refine and_congr_right fun _ ↦ ?_
  simp only [permitsBid]
  cases auction.lastBid? with
  | none => simp
  | some made =>
    obtain ⟨bidder, last⟩ := made
    simp

/-- The marks that are offered are at most one. -/
theorem filter_marks (auction : Auction) (seat : Seat) :
    [Call.double, .redouble].filter (auction.permits · seat) ∈
      [[], [Call.double], [Call.redouble]] := by
  have hone := @not_permits_double_and_redouble auction seat seat
  cases hdouble : auction.permits .double seat <;>
    cases hredouble : auction.permits .redouble seat <;> simp_all

/-- Before the end a seat is offered a pass, the bids above the last one, and at most one mark. -/
theorem legalCalls_of_open (hopen : auction.isOver = false) (seat : Seat) :
    ∃ bids : List Bid, ∃ marks ∈ [[], [Call.double], [Call.redouble]],
      auction.legalCalls seat = .pass :: bids.map .bid ++ marks ∧
      bids.Pairwise (fun low high ↦ high.outranks low = true) ∧
      ∀ bid, bid ∈ bids ↔
        ∀ bidder last, auction.lastBid? = some (bidder, last) → bid.outranks last = true := by
  refine ⟨Bid.all.filter fun bid ↦ auction.permits (.bid bid) seat, _, filter_marks auction seat,
    ?_, Bid.pairwise_all.filter _, fun bid ↦ ?_⟩
  · rw [legalCalls, hopen, if_neg Bool.false_ne_true, Call.all, List.cons_append, List.filter_cons,
      if_pos (permits_pass hopen seat), List.filter_append, List.filter_map]
    rfl
  · rw [List.mem_filter, and_iff_right (Bid.mem_all bid), permits_bid_iff, and_iff_right hopen]

/-- The mark that an auction is over stands for its end. -/
theorem Reachable.isOver_iff (h : Reachable dealer auction) :
    auction.isOver = true ↔ Finished auction.calls := by
  rcases h.exists_isLegal with rfl | ⟨first, calls, hlegal, rfl⟩
  · exact isFinished_inTurn_iff (isLegal_nil .north)
  · rw [isOver_ofCalls, calls_ofCalls, isFinished_inTurn_iff hlegal]

/-- What the lists of legal calls hold and how they compare: they are exactly the calls that are
permitted and, to the seat whose turn it is, those that can be added; nothing after the end, and
before it a pass, the bids above the last one in rising order, and at most one of double and
redouble, which partners share and opponents do not. -/
structure Offer (auction : Auction) (seat : Seat) : Prop where
  nodup : (auction.legalCalls seat).Nodup
  mem_iff : ∀ call, call ∈ auction.legalCalls seat ↔ auction.permits call seat = true
  mem_iff_add : auction.toAct? = none ∨ auction.toAct? = some seat →
    ∀ call, call ∈ auction.legalCalls seat ↔ ∃ next, auction.add ⟨seat, call⟩ = .ok next
  nil_iff : auction.legalCalls seat = [] ↔ Finished auction.calls
  listed : ¬ Finished auction.calls →
    ∃ bids : List Bid, ∃ marks ∈ [[], [Call.double], [Call.redouble]],
      auction.legalCalls seat = .pass :: bids.map .bid ++ marks ∧
      bids.Pairwise (fun low high ↦ high.outranks low = true) ∧
      ∀ bid, bid ∈ bids ↔
        ∀ bidder last, auction.lastBid? = some (bidder, last) → bid.outranks last = true
  partner : ∀ mark ∈ [Call.double, .redouble],
    mark ∈ auction.legalCalls seat.partner ↔ mark ∈ auction.legalCalls seat
  opponent : ∀ mark ∈ [Call.double, .redouble], mark ∈ auction.legalCalls seat →
    ∀ other, seat.sameSide other = false → mark ∉ auction.legalCalls other
  exclusive : Call.double ∈ auction.legalCalls seat →
    ∀ other, Call.redouble ∉ auction.legalCalls other

/-- In an auction that can be reached, every seat is offered what the rules give it. -/
theorem Reachable.offer (h : Reachable dealer auction) (seat : Seat) : Offer auction seat where
  nodup := nodup_legalCalls auction seat
  mem_iff _ := mem_legalCalls_iff
  mem_iff_add hturn call := by
    rw [mem_legalCalls_iff]
    constructor
    · exact fun hpermits ↦ ⟨_, add_eq_ok_iff_permits.mpr ⟨hturn, hpermits, rfl⟩⟩
    · rintro ⟨next, hadd⟩
      exact (add_eq_ok_iff_permits.mp hadd).2.1
  nil_iff := by
    rw [← h.isOver_iff]
    refine ⟨fun hnil ↦ ?_, fun hover ↦ by rw [legalCalls, if_pos hover]⟩
    by_contra hopen
    obtain ⟨bids, marks, -, hlist, -⟩ := legalCalls_of_open (Bool.eq_false_iff.mpr hopen) seat
    rw [hnil] at hlist
    cases hlist
  listed hopen := by
    rw [← h.isOver_iff, Bool.not_eq_true] at hopen
    exact legalCalls_of_open hopen seat
  partner mark hmark := by
    rw [mem_legalCalls_iff, mem_legalCalls_iff]
    exact permits_mark_partner (by simpa using hmark)
  opponent mark hmark hoffered other hside := by
    rw [mem_legalCalls_iff] at hoffered ⊢
    exact not_permits_mark_of_opponents (by simpa using hmark) hoffered hside
  exclusive hdouble other hredouble := by
    rw [mem_legalCalls_iff] at hdouble hredouble
    exact not_permits_double_and_redouble ⟨hdouble, hredouble⟩

/-- When north has doubled west's spade, west may redouble just as east may, but south may not. -/
theorem offer_doubledSpade :
    let auction := ofCalls .west [.of 1 .spades, .double]
    Reachable (some .west) auction ∧ .redouble ∈ auction.legalCalls .east ∧
      .redouble ∈ auction.legalCalls .west ∧ .redouble ∉ auction.legalCalls .south := by
  intro auction
  have hreach : Reachable (some .west) auction := reachable_ofCalls (by decide)
  have hoffered : .redouble ∈ auction.legalCalls .east := by decide
  have hoffer := hreach.offer .east
  exact ⟨hreach, hoffered, (hoffer.partner _ (by simp)).mpr hoffered,
    hoffer.opponent _ (by simp) hoffered .south rfl⟩

end Auction

end BridgeBidding
