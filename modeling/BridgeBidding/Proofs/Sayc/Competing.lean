import BridgeBidding.Proofs.Condition.Biddable
import BridgeBidding.Proofs.Hand.Counting
import BridgeBidding.Proofs.Sayc.Calls

/-!
# Competing by the natural system

When an opponent has opened, the system always has a call, an overcall or a pass
(`Sayc.competes_tree`).  An overcall in a suit is worked out from the hand and the auction: the
decision above it finds out that some suit of five cards can be bid at its level, and the call
searches again for the one to bid.  Both search in the same way, so that the overcall is there and
it is the best one (`Sayc.Overcall`), which makes it legal (`Sayc.overcalls_legal`).
-/

set_option autoImplicit false
set_option relaxedAutoImplicit false

namespace BridgeBidding

namespace Position

variable {position : Position} {opener : Seat} {opening : Bid}

/-- Where an opponent has opened, an opponent has bid. -/
theorem opponentBidder?_isSome (h : position.openingBid? = some (opener, opening))
    (hopponent : opener.sameSide position.seat = false) :
    position.opponentBidder?.isSome = true := by
  obtain ⟨entry, hentry, hmade⟩ := List.exists_of_findSome?_eq_some h
  obtain ⟨bid, hbid, hsame⟩ := Option.map_eq_some_iff.mp hmade
  obtain ⟨rfl, rfl⟩ := Prod.mk.inj hsame
  rw [opponentBidder?, Option.isSome_map, List.find?_isSome]
  exact ⟨entry, hentry, by rw [hbid, isOpponents, hopponent]; rfl⟩

end Position

namespace Sayc

open RuleTree Success

variable {context : Context}

/-- What the system calls over an opponent's opening, by the name of the bid, and what that tells
about the hand. -/
inductive Overcall (context : Context) : String → Call → Prop
  | notrump (hminimum : 15 ≤ context.evaluation.points) (hmaximum : context.evaluation.points ≤ 18)
    (hbalanced : context.evaluation.isBalanced = true) :
    Overcall context "sayc-overcall-1nt" (.of 1 .notrump)
  | oneLevel (suit : Suit) (hminimum : 8 ≤ context.evaluation.points)
    (hmaximum : context.evaluation.points ≤ 16) (hbest : context.IsBestBid .one 5 suit) :
    Overcall context "sayc-overcall-1-level" (.of 1 suit.strain)
  | twoLevel (suit : Suit) (hminimum : 10 ≤ context.evaluation.points)
    (hmaximum : context.evaluation.points ≤ 16) (hbest : context.IsBestBid .two 5 suit) :
    Overcall context "sayc-overcall-2-level" (.of 2 suit.strain)
  | pass : Overcall context "sayc-pass-competitive" .pass
  | passAgain : Overcall context "sayc-pass-after-overcall" .pass

/-- The tree comes to an overcall or a pass. -/
def Competes (context : Context) (tree : RuleTree) : Prop :=
  ∃ name call, tree.outcome? context = some (name, .ok call) ∧ Overcall context name call

theorem outcome?_tree_of_competing {opener : Seat} {opening : Bid}
    (h : context.openingBid? = some (opener, opening))
    (hopponent : opener.sameSide context.seat = false) :
    tree.outcome? context =
      if 0 < context.ownBidCount then some ("sayc-pass-after-overcall", .ok .pass)
      else competingTurn.outcome? context := by
  have hown : opener ≠ context.seat := by
    rintro rfl
    simp [Seat.sameSide] at hopponent
  have hpartner : opener ≠ context.seat.partner := by
    rintro rfl
    simp [Seat.sameSide] at hopponent
  have hbid := Position.opponentBidder?_isSome h hopponent
  simp [tree, PositionTest.holds, h, hown, hpartner, hbid]

/-- The overcall is in the suit that the decision above it has found. -/
theorem exists_bestBid {minimum maximum : Int} {level : Level}
    (hopen : context.auction.isOver = false)
    (h : ((overcallValues minimum maximum level.number).verdict context).passed = true) :
    ∃ suit, CallRule.overcall level.number context = .ok (.of level suit.strain) ∧
      minimum ≤ context.evaluation.points ∧ context.evaluation.points ≤ maximum ∧
      context.IsBestBid level 5 suit := by
  obtain ⟨hpoints, hbiddable⟩ := Condition.passed_both.mp h
  obtain ⟨hminimum, hmaximum⟩ := (Condition.passed_pointsRange minimum maximum).mp hpoints
  obtain ⟨suit, hbest⟩ := (Condition.passed_biddableSuit hopen level 5).mp hbiddable
  obtain ⟨suit?, hsuit, -, hfound⟩ := Context.longestBiddable?_finds hopen level 5
  obtain rfl := (hfound suit).mpr hbest
  have hsearch : context.longestBiddable? (.int level.number) 5 = .ok (some suit) := hsuit
  refine ⟨suit, ?_, hminimum, hmaximum, hbest⟩
  rw [CallRule.overcall, hsearch, ok_bind]
  exact inStrain_eq_ok rfl level

theorem competes_competingTurn (hopen : context.auction.isOver = false) :
    Competes context competingTurn := by
  rw [Competes]
  simp only [competingTurn, outcome?_ask, outcome?_say]
  by_cases hnotrump : ((Condition.conjunction [.pointsRange 15 18, .holding .balanced]).verdict
      context).passed = true
  · rw [if_pos hnotrump]
    obtain ⟨hpoints, hbalanced⟩ := Condition.passed_both.mp hnotrump
    obtain ⟨hminimum, hmaximum⟩ := (Condition.passed_pointsRange 15 18).mp hpoints
    exact ⟨_, _, rfl, .notrump hminimum hmaximum hbalanced⟩
  rw [if_neg hnotrump]
  by_cases hone : ((overcallValues 8 16 1).verdict context).passed = true
  · rw [if_pos hone]
    obtain ⟨suit, hcall, hminimum, hmaximum, hbest⟩ := @exists_bestBid context 8 16 .one hopen hone
    exact ⟨_, _, outcome?_workOut_of_ok hcall, .oneLevel suit hminimum hmaximum hbest⟩
  rw [if_neg hone]
  by_cases htwo : ((overcallValues 10 16 2).verdict context).passed = true
  · rw [if_pos htwo]
    obtain ⟨suit, hcall, hminimum, hmaximum, hbest⟩ := @exists_bestBid context 10 16 .two hopen htwo
    exact ⟨_, _, outcome?_workOut_of_ok hcall, .twoLevel suit hminimum hmaximum hbest⟩
  rw [if_neg htwo]
  exact ⟨_, _, rfl, .pass⟩

/-- When an opponent has opened, the system has a call. -/
theorem competes_tree {opener : Seat} {opening : Bid} (hopen : context.auction.isOver = false)
    (h : context.openingBid? = some (opener, opening))
    (hopponent : opener.sameSide context.seat = false) : Competes context tree := by
  rw [Competes, outcome?_tree_of_competing h hopponent]
  by_cases hbid : 0 < context.ownBidCount
  · rw [if_pos hbid]
    exact ⟨_, _, rfl, .passAgain⟩
  · rw [if_neg hbid]
    exact competes_competingTurn hopen

/-- The overcalls in a suit, by the names of their bids. -/
def suitOvercalls : List (String × Level) :=
  [("sayc-overcall-1-level", .one), ("sayc-overcall-2-level", .two)]

/-- An overcall in a suit is in the best suit to bid at its level. -/
theorem Overcall.exists_suit {name : String} {call : Call} {level : Level}
    (h : Overcall context name call) (hsuit : (name, level) ∈ suitOvercalls) :
    ∃ suit, call = .of level suit.strain ∧ context.IsBestBid level 5 suit := by
  cases h with
  | oneLevel suit _ _ hbest =>
    obtain rfl : level = .one := by simpa [suitOvercalls] using hsuit
    exact ⟨suit, rfl, hbest⟩
  | twoLevel suit _ _ hbest =>
    obtain rfl : level = .two := by simpa [suitOvercalls] using hsuit
    exact ⟨suit, rfl, hbest⟩
  | notrump | pass | passAgain => simp [suitOvercalls] at hsuit

/-- Before the auction is over, the search for a suit to bid at a level finds one exactly if some
suit of the length asked for can legally be bid there, and then it finds the longest of these, the
highest one if several are as long.  So when an opponent has opened, the system comes to a bid of
its tree, and its overcalls in a suit are legal and made on five cards or more. -/
theorem overcalls_legal {hand : Hand} {auction : Auction} {seat : Seat}
    {vulnerability : Vulnerability} {dealer : Option Seat} (hopen : auction.isOver = false) :
    let context := Context.ofHand hand auction seat none vulnerability dealer
    (∀ level minimum, ∃ suit?,
      context.longestBiddable? (.int (Level.number level)) (.int minimum) = .ok suit? ∧
      (suit?.isSome = true ↔ ∃ suit, minimum ≤ hand.length suit ∧
        auction.permits (.of level suit.strain) seat = true) ∧
      ∀ suit, suit? = some suit ↔ context.IsBestBid level minimum suit) ∧
    ∀ opener opening, auction.openingBid? = some (opener, opening) →
      opener.sameSide seat = false →
      ∃ node call, (tree.descend context).ending = .bid node call ∧
        Overcall context node.name call ∧
        ∀ level, (node.name, level) ∈ suitOvercalls → auction.permits call seat = true ∧
          ∃ suit, call = .of level suit.strain ∧ 5 ≤ hand.length suit ∧
            context.IsBestBid level 5 suit := by
  intro context
  have hlength (suit : Suit) : context.length suit = hand.length suit :=
    hand.length_evaluation suit
  have hcanBid (level : Level) (minimum : Int) (suit : Suit) :
      context.CanBid level minimum suit ↔ minimum ≤ hand.length suit ∧
        auction.permits (.of level suit.strain) seat = true := by
    rw [Context.CanBid, hlength]
    rfl
  refine ⟨fun level minimum ↦ ?_, fun opener opening h hopponent ↦ ?_⟩
  · obtain ⟨suit?, hsuit, hsome, hbest⟩ :=
      @Context.longestBiddable?_finds context hopen level minimum
    exact ⟨suit?, hsuit, hsome.trans (exists_congr (hcanBid level minimum)), hbest⟩
  · obtain ⟨name, call, houtcome, hovercall⟩ := @competes_tree context _ _ hopen h hopponent
    obtain ⟨node, hending, rfl⟩ := exists_ending_of_outcome? houtcome
    refine ⟨node, call, hending, hovercall, fun level hlevel ↦ ?_⟩
    obtain ⟨suit, rfl, hbest⟩ := hovercall.exists_suit hlevel
    obtain ⟨hlong, hpermits⟩ := (hcanBid level 5 suit).mp hbest.canBid
    exact ⟨hpermits, suit, rfl, by exact_mod_cast hlong, hbest⟩

/-- South overcalls east's heart in spades, of which it has five. -/
theorem overcalls_legal_oneSpade :
    let auction := Auction.ofCalls .east [.of 1 .hearts]
    let hand := Hand.ofSuits [.king, .queen, .jack, .seven, .two] [.eight, .three] [.queen, .four]
      [.nine, .six, .three, .two]
    let context := Context.ofHand hand auction .south
    Auction.Reachable (some .east) auction ∧ auction.isOver = false ∧
      context.IsBestBid .one 5 .spades ∧
      ∃ node, (tree.descend context).ending = .bid node (.of 1 .spades) ∧
        node.name = "sayc-overcall-1-level" ∧ auction.permits (.of 1 .spades) .south = true := by
  intro auction hand context
  obtain ⟨hsearch, hcompete⟩ := @overcalls_legal hand auction .south .neither none rfl
  obtain ⟨suit?, hsuit, -, hbest⟩ := hsearch .one 5
  obtain rfl : suit? = some .spades := (Except.ok.inj hsuit).symm
  obtain ⟨node, call, hending, -, hlegal⟩ := hcompete .east ⟨1, .hearts⟩ rfl rfl
  have hname : (tree.descend context).ending.reached?.map BidNode.name =
    some "sayc-overcall-1-level" := rfl
  have hcall : (tree.descend context).ending.call? = some (.of 1 .spades) := rfl
  rw [hending] at hname hcall
  obtain rfl : call = .of 1 .spades := Option.some.inj hcall
  have hnode : node.name = "sayc-overcall-1-level" := Option.some.inj hname
  refine ⟨Auction.reachable_ofCalls (by decide), rfl, (hbest .spades).mp rfl, node, hending, hnode,
    (hlegal .one ?_).1⟩
  rw [hnode]
  exact List.mem_cons_self

end Sayc

end BridgeBidding
