import BridgeBidding.Deal
import BridgeBidding.Proofs.Auction.Uncontested
import BridgeBidding.Proofs.Tree.Outcome
import Mathlib.Data.List.Chain

/-!
# Dialogues

In a dialogue the members of a side call as they like (`say`) from some auction on, and the other
side passes.  Whether their calls are legal is not asked, so that it can be shown.

A dialogue that follows a script (`Auction.Follows`), a list of bids that the members make in turn
before the first pass, has no other auctions than those on the way through the script
(`Auction.Moment`), and it gets through to the end (`Auction.Follows.dialogue_ended`).
-/

set_option autoImplicit false
set_option relaxedAutoImplicit false

namespace BridgeBidding

namespace RuleTree

/-- The call that the tree gives the seat for its hand of the deal. -/
def callOf? (tree : RuleTree) (deal : Deal) (auction : Auction) (seat : Seat) : Option Call :=
  (deal.hand? seat).bind fun hand ↦
    (tree.descend (Context.ofHand hand auction seat none deal.vulnerability)).ending.call?

/-- What the seat calls by the tree: a pass if the tree gives no call. -/
def callOf (tree : RuleTree) (deal : Deal) (auction : Auction) (seat : Seat) : Call :=
  (tree.callOf? deal auction seat).getD .pass

/-- For the hand that the seat holds in the deal the tree matches a bid of the name, with the
call. -/
def Matches (tree : RuleTree) (deal : Deal) (auction : Auction) (seat : Seat) (name : String)
    (call : Call) : Prop :=
  ∃ hand node, deal.hand? seat = some hand ∧ node.name = name ∧
    (tree.descend (Context.ofHand hand auction seat none deal.vulnerability)).ending =
      .bid node call

/-- The tree gives no call if it comes to none for any hand. -/
theorem callOf?_eq_none {tree : RuleTree} {deal : Deal} {auction : Auction} {seat : Seat}
    (h : ∀ hand, tree.outcome? (Context.ofHand hand auction seat none deal.vulnerability) = none) :
    tree.callOf? deal auction seat = none := by
  rw [callOf?]
  cases deal.hand? seat with
  | none => rfl
  | some hand =>
    rw [Option.bind_some, Ending.call?_eq, outcome?_descend, h hand]
    rfl

/-- A bid that the seat makes is what the tree gives. -/
theorem callOf?_eq_some_of_bid {tree : RuleTree} {deal : Deal} {auction : Auction} {seat : Seat}
    {bid : Bid} (h : tree.callOf deal auction seat = .bid bid) :
    tree.callOf? deal auction seat = some (.bid bid) := by
  rw [callOf] at h
  cases hcall : tree.callOf? deal auction seat with
  | none =>
    rw [hcall, Option.getD_none] at h
    cases h
  | some call =>
    rw [hcall, Option.getD_some] at h
    rw [h]

end RuleTree

namespace Auction

/-- The auctions that follow on a start when the members of a side call as they like and the other
side passes, until the auction is over. -/
inductive Dialogue (side : Seat) (say : Auction → Seat → Call) (start : Auction) : Auction → Prop
  | start : Dialogue side say start start
  | call {auction : Auction} {seat : Seat} (hrun : Dialogue side say start auction)
    (hopen : auction.isOver = false) (hturn : auction.toAct? = some seat) :
    Dialogue side say start
      (auction.append ⟨seat, if seat.sameSide side then say auction seat else .pass⟩)

/-! ### Auctions that are not over -/

/-- Fewer than three passes after an action do not end an auction. -/
theorem isOver_ofCalls_of_action {dealer : Seat} {before passes : List Call} {action : Call}
    (haction : action ≠ .pass) (hpasses : passes.length < 3) :
    (ofCalls dealer (before ++ action :: passes)).isOver = false := by
  rw [isOver_ofCalls, ← Bool.not_eq_true, isFinished_iff, map_call_inTurn]
  rintro ⟨earlier, hsplit, -⟩
  have hreverse : passes.reverse ++ action :: before.reverse =
      List.replicate 3 .pass ++ earlier.reverse := by
    simpa using congrArg List.reverse hsplit
  have hpass : (List.replicate 3 Call.pass ++ earlier.reverse)[passes.length]? = some .pass := by
    rw [List.getElem?_append_left (by simpa using hpasses), List.getElem?_replicate,
      if_pos hpasses]
  have haction? : (passes.reverse ++ action :: before.reverse)[passes.length]? = some action := by
    simp
  rw [hreverse, hpass] at haction?
  exact haction (Option.some.inj haction?).symm

theorem isOver_exchange {dealer : Seat} {lead : Nat} {bids : List Bid} (hbids : bids ≠ [])
    {passes : List Call} (hpasses : passes.length < 2) :
    (ofCalls dealer (exchange lead bids ++ passes)).isOver = false := by
  obtain ⟨before, last, rfl⟩ := (List.eq_nil_or_concat bids).resolve_left hbids
  rw [List.concat_eq_append, exchange_concat, List.append_assoc, List.cons_append]
  exact isOver_ofCalls_of_action (by simp) (Nat.succ_lt_succ hpasses)

/-- The last bid of an exchange stays the last one when passes follow. -/
theorem lastBid?_exchange {dealer : Seat} {lead : Nat} {bids : List Bid} {last : Bid}
    (passes : Nat) :
    (ofCalls dealer (exchange lead (bids ++ [last]) ++ List.replicate passes .pass)).lastBid? =
      some (dealer.advance (lead + 2 * bids.length), last) := by
  rw [lastBid?_ofCalls_eq_some_iff]
  refine ⟨_, ⟨exchange lead bids, .pass :: List.replicate passes .pass, ?_,
    length_exchange lead bids, ?_⟩, rfl⟩
  · rw [exchange_concat, List.append_assoc]
    rfl
  · rw [← List.replicate_succ]
    intro later hlater
    rw [List.eq_of_mem_replicate hlater]
    rfl

/-- Over an exchange of bids a bid is permitted if it outranks the last one. -/
theorem permits_exchange_iff {dealer seat : Seat} {lead : Nat} {bids : List Bid} {last bid : Bid} :
    (ofCalls dealer (exchange lead (bids ++ [last]))).permits (.bid bid) seat = true ↔
      bid.outranks last = true := by
  have hopen := @isOver_exchange dealer lead (bids ++ [last]) (by simp) [] (by simp)
  have hlast := @lastBid?_exchange dealer lead bids last 0
  rw [List.replicate_zero] at hlast
  rw [List.append_nil] at hopen hlast
  rw [permits.eq_def, hopen]
  simp [permitsBid, hlast]

/-- Of bids each of which outranks the one before it, every next one is permitted over those
before. -/
theorem permits_exchange_of_isChain {dealer seat : Seat} {lead : Nat} {bids later : List Bid}
    {bid : Bid} (hbids : bids ≠ [])
    (hchain : (bids ++ bid :: later).IsChain fun low high ↦ high.outranks low = true) :
    (ofCalls dealer (exchange lead bids)).permits (.bid bid) seat = true := by
  obtain ⟨before, last, rfl⟩ := (List.eq_nil_or_concat bids).resolve_left hbids
  rw [List.concat_eq_append, List.append_assoc, List.singleton_append] at hchain
  rw [List.concat_eq_append, permits_exchange_iff]
  exact (List.isChain_append_cons_cons.mp hchain).2.1

/-! ### Scripts -/

section Scripts

variable {side dealer seat : Seat} {say : Auction → Seat → Call} {lead : Nat}
  {said later before : List Bid}

/-- What the member whose turn it is says after the bids, each with a pass over it. -/
def saidAfter (say : Auction → Seat → Call) (dealer : Seat) (lead : Nat) (bids : List Bid) :
    Call :=
  say (ofCalls dealer (exchange lead bids)) (dealer.advance (lead + 2 * bids.length))

/-- What the member whose turn it is knows after the bids. -/
def contextAfter (deal : Deal) (dealer : Seat) (lead : Nat) (hand : Hand) (bids : List Bid) :
    Context :=
  Context.ofHand hand (ofCalls dealer (exchange lead bids))
    (dealer.advance (lead + 2 * bids.length)) none deal.vulnerability

theorem calls_contextAfter (deal : Deal) (dealer : Seat) (lead : Nat) (hand : Hand)
    (bids : List Bid) :
    (contextAfter deal dealer lead hand bids).auction.calls = exchange lead bids :=
  calls_ofCalls ..

/-- A member who calls by a tree says what the tree comes to. -/
theorem saidAfter_callOf {tree : RuleTree} {deal : Deal} {hand : Hand} {bids : List Bid}
    {name : String} {call : Call}
    (hhand : deal.hand? (dealer.advance (lead + 2 * bids.length)) = some hand)
    (houtcome : tree.outcome? (contextAfter deal dealer lead hand bids) = some (name, .ok call)) :
    saidAfter (tree.callOf deal) dealer lead bids = call := by
  have hcall : (tree.descend (contextAfter deal dealer lead hand bids)).ending.call? = some call :=
    RuleTree.call?_descend_eq_some_iff.mpr ⟨name, houtcome⟩
  rw [saidAfter, RuleTree.callOf, RuleTree.callOf?, hhand, Option.bind_some, ← contextAfter, hcall,
    Option.getD_some]

/-- A member passes if the tree comes to no call for any hand. -/
theorem saidAfter_callOf_eq_pass {tree : RuleTree} {deal : Deal} {bids : List Bid}
    (h : ∀ hand, tree.outcome? (contextAfter deal dealer lead hand bids) = none) :
    saidAfter (tree.callOf deal) dealer lead bids = .pass := by
  rw [saidAfter, RuleTree.callOf, RuleTree.callOf?_eq_none h, Option.getD_none]

/-- After the bids said the members say the later ones in turn, and then the one whose turn it is
passes. -/
def Follows (say : Auction → Seat → Call) (dealer : Seat) (lead : Nat) :
    List Bid → List Bid → Prop
  | said, [] => saidAfter say dealer lead said = .pass
  | said, bid :: later =>
    saidAfter say dealer lead said = .bid bid ∧ Follows say dealer lead (said ++ [bid]) later

/-- A script is followed from every point on the way. -/
theorem Follows.drop (h : Follows say dealer lead said (before ++ later)) :
    Follows say dealer lead (said ++ before) later := by
  induction before generalizing said with
  | nil => rwa [List.append_nil]
  | cons bid rest ih => simpa using ih h.2

/-- Where a dialogue that follows a script stands: at a member's turn, after a bid of the script, or
after one or two of the passes at its end. -/
inductive Moment (lead : Nat) (said later : List Bid) : List Call → Prop
  | turn {before after : List Bid} (hlater : later = before ++ after) :
    Moment lead said later (exchange lead (said ++ before))
  | bid {before after : List Bid} {bid : Bid} (hlater : later = before ++ bid :: after) :
    Moment lead said later (exchange lead (said ++ before) ++ [.bid bid])
  | passed : Moment lead said later (exchange lead (said ++ later) ++ [.pass])
  | ended : Moment lead said later (exchange lead (said ++ later) ++ [.pass, .pass])

/-- The side that has made the bids is to call after each of them has been passed. -/
theorem sameSide_exchange (hside : (dealer.advance lead).sameSide side = true)
    (bids : List Bid) : (dealer.advance (exchange lead bids).length).sameSide side = true := by
  rw [length_exchange, Seat.advance_add, Seat.sameSide_advance_double, hside]

theorem sameSide_exchange_concat (hside : (dealer.advance lead).sameSide side = true)
    (bids : List Bid) (call : Call) :
    (dealer.advance (exchange lead bids ++ [call]).length).sameSide side = false := by
  rw [List.length_append, List.length_singleton, Seat.sameSide_advance_succ,
    sameSide_exchange hside, Bool.not_true]

/-- One call leads from one moment of the script to the next. -/
theorem Moment.append {calls : List Call} (h : Moment lead said later calls) (hsaid : said ≠ [])
    (hside : (dealer.advance lead).sameSide side = true)
    (hfollows : Follows say dealer lead said later)
    (hopen : (ofCalls dealer calls).isOver = false) (hseat : seat = dealer.advance calls.length) :
    Moment lead said later
      (calls ++ [if seat.sameSide side then say (ofCalls dealer calls) seat else .pass]) := by
  subst hseat
  cases h with
  | @turn before after hlater =>
    subst hlater
    have hnext := hfollows.drop
    have hsays : say (ofCalls dealer (exchange lead (said ++ before)))
        (dealer.advance (lead + 2 * (said ++ before).length)) =
          saidAfter say dealer lead (said ++ before) := rfl
    rw [sameSide_exchange hside, if_pos rfl, length_exchange, hsays]
    cases after with
    | nil =>
      have hpass : saidAfter say dealer lead (said ++ before) = .pass := hnext
      rw [hpass, List.append_nil]
      exact .passed
    | cons bid after =>
      rw [hnext.1]
      exact .bid rfl
  | @bid before after bid hlater =>
    rw [sameSide_exchange_concat hside, if_neg Bool.false_ne_true, List.append_assoc,
      List.singleton_append, ← exchange_concat, List.append_assoc]
    exact .turn (by rw [hlater, List.append_assoc, List.singleton_append])
  | passed =>
    rw [sameSide_exchange_concat hside, if_neg Bool.false_ne_true, List.append_assoc,
      List.singleton_append]
    exact .ended
  | ended =>
    rw [isOver_ofCalls, isFinished_exchange_passes (by simp [hsaid])] at hopen
    cases hopen

/-- A dialogue that follows a script is always at some moment of it. -/
theorem Follows.exists_moment {auction : Auction} (hfollows : Follows say dealer lead said later)
    (hsaid : said ≠ []) (hside : (dealer.advance lead).sameSide side = true)
    (h : Dialogue side say (ofCalls dealer (exchange lead said)) auction) :
    ∃ calls, auction = ofCalls dealer calls ∧ Moment lead said later calls := by
  induction h with
  | start =>
    have hturn := @Moment.turn lead said later [] later (List.nil_append later).symm
    rw [List.append_nil] at hturn
    exact ⟨_, rfl, hturn⟩
  | call _ hopen hturn ih =>
    obtain ⟨calls, rfl, hmoment⟩ := ih
    rw [toAct?_ofCalls, Option.some.injEq] at hturn
    refine ⟨_, ?_, hmoment.append hsaid hside hfollows hopen hturn.symm⟩
    rw [← hturn]
    exact append_ofCalls ..

/-- At a member's turn in a dialogue that follows a script, some of its bids have been made. -/
theorem Follows.exists_turn {auction : Auction} (hfollows : Follows say dealer lead said later)
    (hsaid : said ≠ []) (hside : (dealer.advance lead).sameSide side = true)
    (h : Dialogue side say (ofCalls dealer (exchange lead said)) auction)
    (hopen : auction.isOver = false) (hturn : auction.toAct? = some seat)
    (hmember : seat.sameSide side = true) :
    ∃ before after, later = before ++ after ∧
      auction = ofCalls dealer (exchange lead (said ++ before)) ∧
      seat = dealer.advance (lead + 2 * (said ++ before).length) := by
  obtain ⟨calls, rfl, hmoment⟩ := hfollows.exists_moment hsaid hside h
  rw [toAct?_ofCalls, Option.some.injEq] at hturn
  subst hturn
  cases hmoment with
  | @turn before after hlater => exact ⟨before, after, hlater, rfl, by rw [length_exchange]⟩
  | bid => cases hmember.symm.trans (sameSide_exchange_concat hside _ _)
  | passed => cases hmember.symm.trans (sameSide_exchange_concat hside _ _)
  | ended =>
    rw [isOver_ofCalls, isFinished_exchange_passes (by simp [hsaid])] at hopen
    cases hopen

/-- A dialogue that follows a script is over at its end. -/
theorem Follows.eq_of_isOver {auction : Auction} (hfollows : Follows say dealer lead said later)
    (hsaid : said ≠ []) (hside : (dealer.advance lead).sameSide side = true)
    (h : Dialogue side say (ofCalls dealer (exchange lead said)) auction)
    (hover : auction.isOver = true) :
    auction = ofCalls dealer (exchange lead (said ++ later) ++ [.pass, .pass]) := by
  obtain ⟨calls, rfl, hmoment⟩ := hfollows.exists_moment hsaid hside h
  cases hmoment with
  | @turn before after hlater =>
    have hopen := @isOver_exchange dealer lead (said ++ before) (by simp [hsaid]) [] (by simp)
    rw [List.append_nil] at hopen
    cases hover.symm.trans hopen
  | @bid before after bid hlater =>
    have hopen := @isOver_ofCalls_of_action dealer (exchange lead (said ++ before)) []
      (.bid bid) (by simp) (by simp)
    cases hover.symm.trans hopen
  | passed =>
    have hopen := @isOver_exchange dealer lead (said ++ later) (by simp [hsaid]) [.pass] (by simp)
    cases hover.symm.trans hopen
  | ended => rfl

/-! ### Getting through a script -/

/-- One more call of a dialogue. -/
theorem Dialogue.concat {start : Auction} {calls : List Call} {call : Call}
    (h : Dialogue side say start (ofCalls dealer calls))
    (hopen : (ofCalls dealer calls).isOver = false)
    (hcall : (if (dealer.advance calls.length).sameSide side then
      say (ofCalls dealer calls) (dealer.advance calls.length) else .pass) = call) :
    Dialogue side say start (ofCalls dealer (calls ++ [call])) := by
  have hnext := h.call hopen (toAct?_ofCalls ..)
  rwa [hcall, append_ofCalls] at hnext

/-- What a member says after bids, and the pass over it. -/
theorem Dialogue.concat_said {start : Auction} {bids : List Bid}
    (h : Dialogue side say start (ofCalls dealer (exchange lead bids))) (hbids : bids ≠ [])
    (hside : (dealer.advance lead).sameSide side = true)
    (hopen : (ofCalls dealer (exchange lead bids ++ [saidAfter say dealer lead bids])).isOver =
      false) :
    Dialogue side say start
      (ofCalls dealer (exchange lead bids ++ [saidAfter say dealer lead bids, .pass])) := by
  have hnow := @isOver_exchange dealer lead bids hbids [] (by simp)
  rw [List.append_nil] at hnow
  have hsaid : Dialogue side say start
      (ofCalls dealer (exchange lead bids ++ [saidAfter say dealer lead bids])) := by
    apply h.concat hnow
    rw [sameSide_exchange hside, if_pos rfl, length_exchange]
    rfl
  have hpassed : Dialogue side say start
      (ofCalls dealer (exchange lead bids ++ [saidAfter say dealer lead bids] ++ [.pass])) := by
    apply hsaid.concat hopen
    rw [sameSide_exchange_concat hside, if_neg Bool.false_ne_true]
  rwa [List.append_assoc, List.singleton_append] at hpassed

/-- A dialogue comes to every member's turn on the way through a script that it follows. -/
theorem Follows.dialogue_turn (hfollows : Follows say dealer lead said (before ++ later))
    (hsaid : said ≠ []) (hside : (dealer.advance lead).sameSide side = true) :
    Dialogue side say (ofCalls dealer (exchange lead said))
      (ofCalls dealer (exchange lead (said ++ before))) := by
  induction before using List.reverseRecOn generalizing later with
  | nil =>
    rw [List.append_nil]
    exact .start
  | append_singleton before bid ih =>
    rw [List.append_assoc, List.singleton_append] at hfollows
    have hbid : saidAfter say dealer lead (said ++ before) = .bid bid := hfollows.drop.1
    have hopen : (ofCalls dealer (exchange lead (said ++ before) ++ [.bid bid])).isOver = false :=
      isOver_ofCalls_of_action (by simp) (by simp)
    rw [← hbid] at hopen
    have hnext := (ih hfollows).concat_said (by simp [hsaid]) hside hopen
    rwa [hbid, ← exchange_concat, List.append_assoc] at hnext

/-- A dialogue that follows a script comes to its end. -/
theorem Follows.dialogue_ended (hfollows : Follows say dealer lead said later)
    (hsaid : said ≠ []) (hside : (dealer.advance lead).sameSide side = true) :
    Dialogue side say (ofCalls dealer (exchange lead said))
      (ofCalls dealer (exchange lead (said ++ later) ++ [.pass, .pass])) := by
  rw [← List.append_nil later] at hfollows
  have hpass : saidAfter say dealer lead (said ++ later) = .pass := hfollows.drop
  have hopen := @isOver_exchange dealer lead (said ++ later) (by simp [hsaid]) [.pass] (by simp)
  rw [← hpass] at hopen
  have hnext := (hfollows.dialogue_turn hsaid hside).concat_said (by simp [hsaid]) hside hopen
  rwa [hpass] at hnext

end Scripts

end Auction

end BridgeBidding
