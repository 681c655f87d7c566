import BridgeBidding.Convention.Bergen
import BridgeBidding.Convention.Dont
import BridgeBidding.Convention.Landy
import BridgeBidding.Convention.Stayman
import BridgeBidding.Proofs.Auction.LegalCalls
import BridgeBidding.Proofs.Condition.Verdict
import BridgeBidding.Proofs.Tree.Outcome

/-!
# Turns of conventions that look for auctions

Stayman, Bergen raises, Landy and DONT look for one auction after another, and each auction that
they look for has a turn of its own, a tree without further questions about the auction.  The bids
of a turn make certain calls, whatever the hand, and each of these may be made by the seat whose
turn it is, whoever deals (`Auction.mayCall`).  So what a tree calls for a hand at its turn is
permitted (`RuleTree.permits_of_isPermitted`).
-/

set_option autoImplicit false
set_option relaxedAutoImplicit false

namespace BridgeBidding

open Auction

/-! ### Looking for an auction -/

namespace RuleTree

variable {dealer : Seat} {context : Context} {name : String} {yes no : RuleTree}

/-- Whatever call the tree comes to is permitted, if the auction began with the dealer and it is the
seat's turn. -/
def IsPermitted (dealer : Seat) (context : Context) (tree : RuleTree) : Prop :=
  tree.Promises context fun call ↦ mayCall dealer context.auction.calls call = true

/-- A turn makes permitted calls if those of all its bids are. -/
theorem isPermitted_of_bids {calls : List Call} (h : context.auction.calls = calls)
    (answers : List Call)
    (hanswers : yes.bids.map (fun node ↦ node.call context) = answers.map Except.ok)
    (hpermitted : mayCallAll calls answers = true) : yes.IsPermitted dealer context := by
  refine Promises.of_bids answers hanswers fun call hcall ↦ ?_
  rw [h]
  exact mayCall_of_mayCallAll hpermitted dealer hcall

/-- A tree that looks for an auction makes permitted calls if the turn found and the tree that looks
on do. -/
theorem isPermitted_after {calls : List Call} (answers : List Call)
    (hanswers : yes.bids.map (fun node ↦ node.call context) = answers.map Except.ok)
    (hpermitted : mayCallAll calls answers = true) (hno : no.IsPermitted dealer context) :
    (ask name (.auctionIs calls) yes no).IsPermitted dealer context := by
  refine Promises.ask (fun hfound ↦ ?_) fun _ ↦ hno
  exact isPermitted_of_bids (Condition.passed_auctionIs.mp hfound) answers hanswers hpermitted

/-- Likewise for a tree that looks for any of several auctions. -/
theorem isPermitted_afterAny {auctions : List (List Call)}
    (hyes : context.auction.calls ∈ auctions → yes.IsPermitted dealer context)
    (hno : no.IsPermitted dealer context) :
    (ask name (.auctionIsAny auctions) yes no).IsPermitted dealer context := by
  refine Promises.ask (fun hfound ↦ ?_) fun _ ↦ hno
  rw [Condition.passed_auctionIsAny, List.contains_iff_mem] at hfound
  exact hyes hfound

end RuleTree

/-! ### Whose turn it is -/

/-- After the calls it is the turn of the seat, whose hand is evaluated. -/
structure Context.IsTurnOf (context : Context) (hand : Hand) (calls : List Call) : Prop where
  exists_dealer : ∃ dealer, context.auction = .ofCalls dealer calls
  toAct : context.auction.toAct? = some context.seat
  evaluation : context.evaluation = hand.evaluation

theorem Context.IsTurnOf.calls_eq {context : Context} {hand : Hand} {calls : List Call}
    (h : context.IsTurnOf hand calls) : context.auction.calls = calls := by
  obtain ⟨dealer, hauction⟩ := h.exists_dealer
  rw [hauction, calls_ofCalls]

/-- A call that is permitted whoever deals is permitted to the seat. -/
theorem RuleTree.permits_of_isPermitted {context : Context} {tree : RuleTree} {hand : Hand}
    {calls : List Call} {name : String} {call : Call}
    (h : ∀ dealer, tree.IsPermitted dealer context) (hturn : context.IsTurnOf hand calls)
    (houtcome : tree.outcome? context = some (name, .ok call)) :
    context.auction.permits call context.seat = true := by
  obtain ⟨dealer, hauction⟩ := hturn.exists_dealer
  have htoAct := hturn.toAct
  rw [hauction, toAct?_ofCalls] at htoAct
  have hmay : mayCall dealer context.auction.calls call = true := h dealer name call houtcome
  rw [mayCall, hturn.calls_eq, ← hauction, Option.some.inj htoAct] at hmay
  exact hmay

open RuleTree

/-! ### The conventions -/

variable (dealer : Seat) (context : Context)

theorem Stayman.isPermitted_tree : Stayman.tree.IsPermitted dealer context := by
  apply Promises.numbered
  apply isPermitted_after [.of 2 .clubs] rfl (by decide)
  apply isPermitted_after [.of 3 .clubs] rfl (by decide)
  apply isPermitted_after [.of 2 .hearts, .of 2 .spades, .of 2 .diamonds] rfl (by decide)
  apply isPermitted_after [.of 3 .hearts, .of 3 .spades, .of 3 .diamonds] rfl (by decide)
  apply isPermitted_after [.of 4 .hearts, .of 3 .hearts, .of 3 .notrump, .of 2 .notrump] rfl
    (by decide)
  apply isPermitted_after [.of 4 .spades, .of 3 .spades, .of 3 .notrump, .of 2 .notrump] rfl
    (by decide)
  apply isPermitted_after [.of 3 .hearts, .of 3 .spades, .of 3 .notrump, .of 2 .notrump] rfl
    (by decide)
  exact Promises.stop

theorem Landy.isPermitted_tree : Landy.tree.IsPermitted dealer context := by
  apply Promises.numbered
  apply isPermitted_after [.of 2 .clubs] rfl (by decide)
  apply isPermitted_after [.of 3 .notrump, .of 3 .spades, .of 3 .diamonds, .of 3 .clubs] rfl
    (by decide)
  apply isPermitted_after [.of 2 .notrump, .of 3 .hearts, .of 3 .spades, .pass, .of 2 .hearts,
    .of 2 .spades, .of 2 .diamonds] rfl (by decide)
  exact Promises.stop

theorem Dont.isPermitted_tree : Dont.tree.IsPermitted dealer context := by
  apply Promises.numbered
  apply isPermitted_after [.of 2 .hearts, .of 2 .diamonds, .of 2 .clubs, .of 2 .spades, .double] rfl
    (by decide)
  apply isPermitted_after [.pass, .of 2 .spades] rfl (by decide)
  apply isPermitted_after [.pass] rfl (by decide)
  apply isPermitted_after [.pass, .of 2 .hearts] rfl (by decide)
  apply isPermitted_after [.pass, .of 2 .diamonds] rfl (by decide)
  apply isPermitted_after [.of 2 .clubs] rfl (by decide)
  apply isPermitted_after [.pass, .of 2 .hearts, .of 2 .diamonds] rfl (by decide)
  exact Promises.stop

/-- North opens by its hand. -/
theorem Bergen.opening_of_hand? {deal : Deal} {hand : Hand} (h : deal.hand? .north = some hand) :
    opening .south (some deal) = .ok (some (.ofCalls .north (opened (openedBy hand)))) := by
  have hnorth : deal.hand .north = .ok hand := by rw [Deal.hand, h]
  change (do
    let hand ← deal.hand .north
    return some (Auction.ofCalls .north (opened (openedBy hand)))) = _
  rw [hnorth]
  rfl

/-- The raise of the major that was opened. -/
theorem Bergen.raiseMajor_opened {strain : Strain} (h : context.auction.calls = opened strain)
    (hmajor : strain.isMajor = true) (level : Level) :
    CallRule.raiseMajor level.number context = .ok (.of level strain) := by
  have hopened : CallRule.openedMajor context = .ok strain := by
    unfold CallRule.openedMajor
    rw [h]
    exact if_pos hmajor
  rw [CallRule.raiseMajor, hopened]
  simp [CallRule.inStrain]

/-- The bids of the responder's turn over a major. -/
theorem Bergen.calls_raisingTurn {strain : Strain} (h : context.auction.calls = opened strain)
    (hmajor : strain.isMajor = true) :
    raisingTurn.bids.map (fun node ↦ node.call context) =
      [Call.of 4 strain, .of 3 .diamonds, .of 3 .clubs, .of 3 strain].map Except.ok := by
  have hbids : raisingTurn.bids.map (fun node ↦ node.call context) =
      [CallRule.raiseMajor (Level.number 4) context, .ok (.of 3 .diamonds), .ok (.of 3 .clubs),
        CallRule.raiseMajor (Level.number 3) context] := rfl
  rw [hbids, raiseMajor_opened context h hmajor, raiseMajor_opened context h hmajor]
  rfl

theorem Bergen.isPermitted_tree : Bergen.tree.IsPermitted dealer context := by
  apply Promises.numbered
  refine isPermitted_afterAny (fun hopened ↦ ?_) Promises.stop
  refine Promises.ask (fun _ ↦ ?_) fun _ ↦ Promises.stop
  rw [List.mem_cons, List.mem_singleton] at hopened
  rcases hopened with hhearts | hspades
  · exact isPermitted_of_bids hhearts _ (calls_raisingTurn context hhearts rfl) (by decide)
  · exact isPermitted_of_bids hspades _ (calls_raisingTurn context hspades rfl) (by decide)

end BridgeBidding
