import BridgeBidding.Proofs.Auction.Dialogue
import BridgeBidding.Proofs.Auction.Length
import BridgeBidding.Proofs.Auction.Reachable

/-!
# The longest auctions

An auction is drawn out if nothing is called before it has to be: three passes to begin with, then
all bids from the lowest on, each of them doubled and redoubled, with two passes before every call
(`Auction.drawnOut`), and the last pass only when nothing else is left.  It is legal
(`Auction.isLegal_drawnOut`) and takes up all the room there is, so no bound below 319 calls holds
of all auctions (`Auction.reachable_length_le_sharp`).
-/

set_option autoImplicit false
set_option relaxedAutoImplicit false

namespace BridgeBidding

theorem Seat.sameSide_advance_three (seat : Seat) : seat.sameSide (seat.advance 3) = false := by
  cases seat <;> rfl

theorem Seat.sameSide_advance_six (seat : Seat) : seat.sameSide (seat.advance 6) = true := by
  cases seat <;> rfl

namespace Auction

variable {dealer : Seat} {calls : List Call} {action : Call}

/-! ### Auctions that go on -/

theorem not_finished_replicate {count : Nat} (h : count < 4) :
    ¬ Finished (List.replicate count .pass) := by
  rintro (hfour | ⟨before, action, haction, hsplit⟩)
  · have hlength := congrArg List.length hfour
    rw [List.length_replicate, List.length_replicate] at hlength
    omega
  · have hmem : action ∈ List.replicate count .pass := by
      rw [hsplit]
      simp
    exact haction (List.eq_of_mem_replicate hmem)

/-- An auction of at most four passes is legal. -/
theorem isLegal_replicate (dealer : Seat) {count : Nat} (h : count ≤ 4) :
    IsLegal dealer (List.replicate count .pass) := by
  induction count with
  | zero => exact isLegal_nil dealer
  | succ count ih =>
    rw [List.replicate_succ', isLegal_concat_iff]
    exact ⟨ih (by omega), trivial, not_finished_replicate h⟩

theorem IsLegal.not_finished_of_action {passes : List Call}
    (h : IsLegal dealer (calls ++ action :: passes)) (haction : action ≠ .pass)
    (hpasses : passes.length < 3) : ¬ Finished (calls ++ action :: passes) := by
  have hopen : (ofCalls dealer (calls ++ action :: passes)).isOver = false :=
    isOver_ofCalls_of_action haction hpasses
  rw [← isFinished_inTurn_iff h, ← isOver_ofCalls, hopen]
  exact Bool.false_ne_true

/-- An action that is allowed may be made and passed twice, and the auction goes on. -/
theorem IsLegal.passed_twice (h : IsLegal dealer calls) (hopen : ¬ Finished calls)
    (haction : action ≠ .pass) (hfollow : MayFollow dealer calls action) :
    IsLegal dealer (calls ++ [action, .pass, .pass]) ∧
      ¬ Finished (calls ++ [action, .pass, .pass]) := by
  have hmade : IsLegal dealer (calls ++ [action]) := isLegal_concat_iff.mpr ⟨h, hfollow, hopen⟩
  have honce : IsLegal dealer (calls ++ [action, .pass]) := by
    rw [List.append_cons, isLegal_concat_iff]
    exact ⟨hmade, trivial, hmade.not_finished_of_action haction (by decide)⟩
  have htwice : IsLegal dealer (calls ++ [action, .pass, .pass]) := by
    rw [List.append_cons, List.append_cons, isLegal_concat_iff, List.append_assoc]
    exact ⟨honce, trivial, honce.not_finished_of_action haction (by decide)⟩
  exact ⟨htwice, htwice.not_finished_of_action haction (by decide)⟩

theorem lastAction_passed_twice (calls : List Call) (haction : action ≠ .pass) :
    LastAction (calls ++ [action, .pass, .pass]) calls.length action :=
  ⟨calls, [.pass, .pass], rfl, rfl, haction, by simp⟩

/-! ### Drawing an auction out -/

/-- The bid, its double and its redouble, each of them passed twice. -/
def contested (bid : Bid) : List Call :=
  [.bid bid, .pass, .pass, .double, .pass, .pass, .redouble, .pass, .pass]

/-- Three passes, and then the bids as contested as they can be. -/
def drawnOut (bids : List Bid) : List Call :=
  List.replicate 3 .pass ++ bids.flatMap contested

/-- A bid above all earlier ones may be contested, and the auction goes on. -/
theorem IsLegal.concat_contested {bid : Bid} (h : IsLegal dealer calls) (hopen : ¬ Finished calls)
    (hbid : ∀ earlier, .bid earlier ∈ calls → earlier.rank < bid.rank) :
    IsLegal dealer (calls ++ contested bid) ∧ ¬ Finished (calls ++ contested bid) := by
  have hfollow : MayFollow dealer calls (.bid bid) := hbid
  obtain ⟨hbidLegal, hbidOpen⟩ := h.passed_twice hopen (by simp) hfollow
  have hdouble : MayFollow dealer (calls ++ [.bid bid, .pass, .pass]) .double := by
    refine ⟨calls.length, bid, lastAction_passed_twice calls (by simp), ?_⟩
    rw [List.length_append, Seat.advance_add]
    exact Seat.sameSide_advance_three _
  obtain ⟨hdoubleLegal, hdoubleOpen⟩ := hbidLegal.passed_twice hbidOpen (by simp) hdouble
  have hredouble : MayFollow dealer
      (calls ++ [.bid bid, .pass, .pass] ++ [.double, .pass, .pass]) .redouble := by
    constructor
    · refine ⟨_, lastAction_passed_twice _ (by simp), ?_⟩
      rw [@List.length_append _ _ [Call.double, .pass, .pass], Seat.advance_add]
      exact Seat.sameSide_advance_three _
    · refine ⟨calls.length, bid, ⟨calls, [.pass, .pass, .double, .pass, .pass], by simp, rfl,
        by simp [Call.bid?]⟩, ?_⟩
      rw [List.append_assoc, List.length_append, Seat.advance_add]
      exact Seat.sameSide_advance_six _
  have hredoubled := hdoubleLegal.passed_twice hdoubleOpen (by simp) hredouble
  rw [List.append_assoc, List.append_assoc] at hredoubled
  exact hredoubled

theorem length_drawnOut (bids : List Bid) : (drawnOut bids).length = 3 + 9 * bids.length := by
  induction bids with
  | nil => rfl
  | cons bid rest ih =>
    unfold drawnOut at ih ⊢
    rw [List.length_append, List.length_replicate] at ih ⊢
    rw [List.flatMap_cons, List.length_append, List.length_cons, contested]
    simp only [List.length_cons, List.length_nil]
    omega

/-- The bids of an auction that is drawn out. -/
theorem bid_mem_drawnOut {bids : List Bid} {bid : Bid} (h : .bid bid ∈ drawnOut bids) :
    bid ∈ bids := by
  unfold drawnOut at h
  rcases List.mem_append.mp h with hpass | hcontested
  · cases List.eq_of_mem_replicate hpass
  · obtain ⟨made, hmade, hmem⟩ := List.mem_flatMap.mp hcontested
    obtain rfl : bid = made := by simpa [contested] using hmem
    exact hmade

/-- Rising bids can be drawn out, and the auction goes on. -/
theorem isLegal_drawnOut (dealer : Seat) {bids : List Bid}
    (h : bids.Pairwise fun low high ↦ low.rank < high.rank) :
    IsLegal dealer (drawnOut bids) ∧ ¬ Finished (drawnOut bids) := by
  induction bids using List.reverseRecOn with
  | nil =>
    have hthree : 3 < 4 := by decide
    exact ⟨isLegal_replicate dealer (Nat.le_of_lt hthree), not_finished_replicate hthree⟩
  | append_singleton before last ih =>
    obtain ⟨hbefore, -, hlast⟩ := List.pairwise_append.mp h
    obtain ⟨hlegal, hopen⟩ := ih hbefore
    have hnext := hlegal.concat_contested hopen fun earlier hearlier ↦
      hlast earlier (bid_mem_drawnOut hearlier) last List.mem_cons_self
    simpa [drawnOut] using hnext

/-- The longest auction: all bids drawn out, and a third pass over the last redouble. -/
def longest : List Call := drawnOut Bid.all ++ [.pass]

theorem isLegal_longest (dealer : Seat) : IsLegal dealer longest := by
  obtain ⟨hlegal, hopen⟩ := isLegal_drawnOut dealer (by decide : Bid.all.Pairwise _)
  exact isLegal_concat_iff.mpr ⟨hlegal, trivial, hopen⟩

theorem length_longest : longest.length = 319 := by
  have hbids : Bid.all.length = 35 := rfl
  rw [longest, List.length_append, length_drawnOut, hbids, List.length_singleton]

/-! ### Reachable auctions -/

theorem length_ofCalls (dealer : Seat) (calls : List Call) :
    (ofCalls dealer calls).length = calls.length := by
  rw [length, ← List.length_map (f := Entry.call), entries_ofCalls, map_call_inTurn]

theorem Reachable.length_le {dealer : Option Seat} {auction : Auction}
    (h : Reachable dealer auction) : auction.length ≤ 319 := by
  rcases h.exists_isLegal with rfl | ⟨first, calls, hlegal, rfl⟩
  · exact Nat.zero_le 319
  · rw [length_ofCalls]
    exact hlegal.length_le

/-- As long as calls are accepted, the auction is reachable and holds all of them. -/
theorem reachable_of_run {dealer : Option Seat} {run : Nat → Auction}
    (hstart : run 0 = .empty dealer) {limit : Nat}
    (hrun : ∀ count < limit, ∃ entry, (run count).add entry = .ok (run (count + 1)))
    {count : Nat} (hcount : count ≤ limit) :
    Reachable dealer (run count) ∧ (run count).length = count := by
  induction count with
  | zero =>
    rw [hstart]
    exact ⟨.empty, rfl⟩
  | succ count ih =>
    obtain ⟨hreach, hlength⟩ := ih (by omega)
    obtain ⟨entry, hadd⟩ := hrun count hcount
    exact ⟨hreach.add hadd, by rw [length_of_add hadd, hlength]⟩

/-- Whether or not the dealer is known to begin with, an auction to which calls are added one after
another never has more than 319 of them, it may have as many, and no matter who calls what, after
319 calls at the latest one is not accepted. -/
theorem reachable_length_le_sharp (dealer : Option Seat) :
    (∀ auction, Reachable dealer auction → auction.length ≤ 319) ∧
    (∃ auction, Reachable dealer auction ∧ auction.length = 319) ∧
    ∀ run : Nat → Auction, run 0 = .empty dealer →
      ∃ count ≤ 319, ∀ entry, (run count).add entry ≠ .ok (run (count + 1)) := by
  refine ⟨fun auction hreach ↦ hreach.length_le, ?_, ?_⟩
  · have hlength (first : Seat) : (ofCalls first longest).length = 319 := by
      rw [length_ofCalls, length_longest]
    cases dealer with
    | some first => exact ⟨_, (isLegal_longest first).reachable, hlength first⟩
    | none =>
      rcases (isLegal_longest .north).reachable.of_some with hempty | hreach
      · have hzero := hlength .north
        rw [hempty] at hzero
        cases hzero
      · exact ⟨_, hreach, hlength .north⟩
  · intro run hstart
    by_contra hnever
    have hrun : ∀ count < 320, ∃ entry, (run count).add entry = .ok (run (count + 1)) := by
      intro count hcount
      by_contra hrefused
      exact hnever ⟨count, Nat.lt_succ_iff.mp hcount, fun entry hadd ↦ hrefused ⟨entry, hadd⟩⟩
    obtain ⟨hreach, hlength⟩ := reachable_of_run hstart hrun (Nat.le_refl 320)
    have hbound := hreach.length_le
    omega

end Auction

end BridgeBidding
