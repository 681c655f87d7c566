import BridgeBidding.Condition.Named
import BridgeBidding.Proofs.Tree.Flattening
import BridgeBidding.Proofs.Tree.Sibling

/-!
# What the auction alone decides

Two seats that look at one auction from one place may hold different hands, under another
vulnerability and another dealer.  Conditions about the auction that are built from the questions of
the library (`Condition.IsBuilt`) cannot tell the two apart: they are answered, described and
reported on alike (`Condition.IsBuilt.alike`), and they say nothing about the hand.  So the
decisions about the auction lead through a tree to one node, whatever the hands, and one list of
bids competes for them (`Context.auction_part_determined`).
-/

set_option autoImplicit false
set_option relaxedAutoImplicit false

namespace BridgeBidding

open Success

namespace Condition

variable {first second : Context} {condition : Condition} {parts : List Condition}

/-- The condition is a question of the library, or made of such conditions by taking the opposite,
all, or any of them.  No part of it is a question written out by hand. -/
inductive IsBuilt : Condition → Prop
  | position (test : PositionTest) : IsBuilt (position test)
  | holding (test : HandTest) : IsBuilt (holding test)
  | negate {condition opposite : Condition} (hcondition : IsBuilt condition)
      (hopposite : condition.negate = .ok opposite) : IsBuilt opposite
  | all {parts : List Condition} {whole : Condition} (hparts : ∀ part ∈ parts, IsBuilt part)
      (hwhole : all parts = .ok whole) : IsBuilt whole
  | any {parts : List Condition} {whole : Condition} (hparts : ∀ part ∈ parts, IsBuilt part)
      (hwhole : any parts = .ok whole) : IsBuilt whole

/-! ### Taking combinations apart -/

theorem category_eq_auction_iff : condition.category = .auction ↔ condition.isAuction = true := by
  unfold category
  cases condition.isAuction <;> simp

theorem areAuction_eq_true_iff :
    areAuction parts = true ↔ ∀ part ∈ parts, part.isAuction = true := by
  induction parts with
  | nil => simp [areAuction]
  | cons part rest ih => rw [areAuction, Bool.and_eq_true, List.forall_mem_cons, ih]

theorem all_eq_ok {whole : Condition} (h : all parts = .ok whole) : whole = conjunction parts := by
  unfold all at h
  split at h
  · cases h
  · exact (Except.ok.inj h).symm

theorem any_eq_ok {whole : Condition} (h : any parts = .ok whole) : whole = disjunction parts := by
  unfold any at h
  split_ifs at h
  exact (Except.ok.inj h).symm

/-! ### Answering alike -/

/-- The condition is answered, described and reported on alike in both contexts. -/
structure Alike (first second : Context) (condition : Condition) : Prop where
  holds_eq : condition.holds first = condition.holds second
  describe_eq : condition.describe first = condition.describe second
  branches_eq : condition.branches first = condition.branches second

theorem holdAll_eq (h : ∀ part ∈ parts, Alike first second part) :
    holdAll first parts = holdAll second parts := by
  induction parts with
  | nil => rfl
  | cons part rest ih =>
    obtain ⟨hpart, hrest⟩ := List.forall_mem_cons.mp h
    rw [holdAll, holdAll, hpart.holds_eq, ih hrest]

theorem answers_eq (h : ∀ part ∈ parts, Alike first second part) :
    answers first parts = answers second parts := by
  induction parts with
  | nil => rfl
  | cons part rest ih =>
    obtain ⟨hpart, hrest⟩ := List.forall_mem_cons.mp h
    rw [answers, answers, hpart.holds_eq, ih hrest]

theorem descriptions_eq (h : ∀ part ∈ parts, Alike first second part) :
    descriptions first parts = descriptions second parts := by
  induction parts with
  | nil => rfl
  | cons part rest ih =>
    obtain ⟨hpart, hrest⟩ := List.forall_mem_cons.mp h
    rw [descriptions, descriptions, hpart.describe_eq, ih hrest]

theorem answersDescribed_eq (h : ∀ part ∈ parts, Alike first second part) :
    answersDescribed first parts = answersDescribed second parts := by
  induction parts with
  | nil => rfl
  | cons part rest ih =>
    obtain ⟨hpart, hrest⟩ := List.forall_mem_cons.mp h
    rw [answersDescribed, answersDescribed, hpart.holds_eq, hpart.describe_eq, ih hrest]

theorem partReports_eq (h : ∀ part ∈ parts, Alike first second part) :
    partReports first parts = partReports second parts := by
  induction parts with
  | nil => rfl
  | cons part rest ih =>
    obtain ⟨hpart, hrest⟩ := List.forall_mem_cons.mp h
    rw [partReports, partReports, hpart.branches_eq, hpart.holds_eq, hpart.describe_eq, ih hrest]

theorem partBranches_eq (h : ∀ part ∈ parts, Alike first second part) :
    partBranches first parts = partBranches second parts := by
  induction parts with
  | nil => rfl
  | cons part rest ih =>
    obtain ⟨hpart, hrest⟩ := List.forall_mem_cons.mp h
    rw [partBranches, partBranches, hpart.branches_eq, hpart.holds_eq, hpart.describe_eq,
      ih hrest]

theorem alike_position (hposition : first.toPosition = second.toPosition) (test : PositionTest) :
    Alike first second (position test) where
  holds_eq := by rw [holds, holds, hposition]
  describe_eq := by rw [describe, describe, hposition]
  branches_eq := rfl

theorem Alike.negation (h : Alike first second condition) :
    Alike first second (negation condition) where
  holds_eq := by rw [holds, holds, h.holds_eq]
  describe_eq := by rw [describe, describe, h.describe_eq]
  branches_eq := rfl

theorem alike_conjunction (h : ∀ part ∈ parts, Alike first second part) :
    Alike first second (conjunction parts) where
  holds_eq := by rw [holds, holds, holdAll_eq h]
  describe_eq := by rw [describe, describe, descriptions_eq h]
  branches_eq := by rw [branches, branches, partReports_eq h]

theorem alike_disjunction (h : ∀ part ∈ parts, Alike first second part) :
    Alike first second (disjunction parts) where
  holds_eq := by rw [holds, holds, answers_eq h]
  describe_eq := by rw [describe, describe, answersDescribed_eq h]
  branches_eq := by rw [branches, branches, partBranches_eq h]

theorem Alike.verdict_eq (h : Alike first second condition) :
    condition.verdict first = condition.verdict second := by
  unfold verdict
  rw [h.holds_eq, h.describe_eq]

/-! ### Conditions about the auction -/

/-- A condition about the auction depends on what the seat sees of the auction only. -/
theorem IsBuilt.alike (h : condition.IsBuilt)
    (hposition : first.toPosition = second.toPosition) (hauction : condition.isAuction = true) :
    Alike first second condition := by
  induction h with
  | position test => exact alike_position hposition test
  | holding test => cases hauction
  | negate hcondition hopposite ih =>
    obtain rfl := RuleTree.negate_eq_ok hopposite
    exact (ih hauction).negation
  | all hparts hwhole ih =>
    obtain rfl := all_eq_ok hwhole
    have hall := areAuction_eq_true_iff.mp hauction
    exact alike_conjunction fun part hpart ↦ ih part hpart (hall part hpart)
  | any hparts hwhole ih =>
    obtain rfl := any_eq_ok hwhole
    have hall := areAuction_eq_true_iff.mp hauction
    exact alike_disjunction fun part hpart ↦ ih part hpart (hall part hpart)

/-- A condition about the auction says nothing about the hand. -/
theorem IsBuilt.inference?_eq_none (h : condition.IsBuilt) (hauction : condition.isAuction = true) :
    condition.inference? = none := by
  induction h with
  | position test => rfl
  | holding test => cases hauction
  | negate hcondition hopposite ih =>
    obtain rfl := RuleTree.negate_eq_ok hopposite
    exact RuleTree.inference?_negation (ih hauction)
  | all hparts hwhole ih =>
    obtain rfl := all_eq_ok hwhole
    rfl
  | any hparts hwhole ih =>
    obtain rfl := any_eq_ok hwhole
    rfl

end Condition

/-! ### Descending alike -/

namespace RuleTree

variable {first second : Context} {tree : RuleTree}

/-- The decisions of the tree that are about the auction ask conditions built from the questions of
the library. -/
def AuctionBuilt (tree : RuleTree) : Prop :=
  ∀ condition ∈ tree.conditions, condition.category = .auction → condition.IsBuilt

theorem auctionBuilt_decision_iff {key : Nat} {name : String} {condition : Condition}
    {yes no : RuleTree} :
    (decision key name condition yes no).AuctionBuilt ↔
      (condition.category = .auction → condition.IsBuilt) ∧ yes.AuctionBuilt ∧
        no.AuctionBuilt := by
  simp only [AuctionBuilt, conditions, List.forall_mem_cons, List.forall_mem_append]

/-- The decisions about the auction end at one node for all hands. -/
theorem handRoot_eq (hposition : first.toPosition = second.toPosition) (h : tree.AuctionBuilt) :
    tree.handRoot first = tree.handRoot second := by
  induction tree with
  | decision key name condition yes no ihyes ihno =>
    obtain ⟨hbuilt, hyes, hno⟩ := auctionBuilt_decision_iff.mp h
    rw [handRoot, handRoot]
    by_cases hauction : condition.isAuction = true
    · have halike := (hbuilt (Condition.category_eq_auction_iff.mpr hauction)).alike
        hposition hauction
      rw [if_pos hauction, if_pos hauction, halike.verdict_eq, ihyes hyes, ihno hno]
    · rw [if_neg hauction, if_neg hauction]
  | bid key name call meaning => rfl
  | deadEnd key reason => rfl

/-- A descent that reaches a bid reaches one that competes for the hand. -/
theorem mem_bids_handRoot {context : Context} {node : BidNode} (hkeys : tree.keys.Nodup)
    (h : (tree.descend context).ending.reached? = some node) :
    node ∈ (tree.handRoot context).bids := by
  have hleaf := reached?_descendFrom_eq_some_iff.mp h
  rw [leafBy_outcomes_handRoot hkeys] at hleaf
  exact mem_bids_of_leafBy hleaf

end RuleTree

/-- Two contexts with one auction and one seat, whatever else they hold, cannot be told apart by
conditions about the auction, which say nothing about the hand.  In a tree that passes the
examination the decisions about the auction lead to one node in both, the bids that compete for the
hand are the same, and the bid reached in one context competes in the other. -/
theorem Context.auction_part_determined {first second : Context}
    (hposition : first.toPosition = second.toPosition) :
    (∀ condition : Condition, condition.IsBuilt → condition.category = .auction →
      condition.holds first = condition.holds second ∧
      condition.describe first = condition.describe second ∧
      condition.branches first = condition.branches second ∧
      condition.inference? = none) ∧
    ∀ tree : RuleTree, tree.examine = .ok () → tree.AuctionBuilt →
      tree.handRoot first = tree.handRoot second ∧
      (tree.handRoot first).bids = (tree.handRoot second).bids ∧
      ∀ node, (tree.descend second).ending.reached? = some node →
        node ∈ (tree.handRoot first).bids := by
  constructor
  · intro condition hbuilt hcategory
    have hauction := Condition.category_eq_auction_iff.mp hcategory
    have halike := hbuilt.alike hposition hauction
    exact ⟨halike.holds_eq, halike.describe_eq, halike.branches_eq,
      hbuilt.inference?_eq_none hauction⟩
  · intro tree hexamine hbuilt
    have hroot := RuleTree.handRoot_eq hposition hbuilt
    refine ⟨hroot, congrArg RuleTree.bids hroot, fun node hreached ↦ ?_⟩
    rw [hroot]
    exact RuleTree.mem_bids_handRoot (RuleTree.examine_eq_ok_iff.mp hexamine).1 hreached

theorem Context.auction_part_determined_notrumpOrPass :
    let first := Context.ofHand .bothMajors (.empty (some .north)) .north
    let second :=
      Context.ofHand .strongNotrump (.empty (some .north)) .north none .both (some .east)
    let unopened : Condition :=
      .disjunction [.position .noPriorBid, .negation (.position .seatHasBid)]
    first.toPosition = second.toPosition ∧
      (unopened.IsBuilt ∧ unopened.category = .auction ∧
        unopened.holds first = unopened.holds second) ∧
      RuleTree.notrumpOrPass.examine = .ok () ∧ RuleTree.notrumpOrPass.AuctionBuilt ∧
      ((RuleTree.notrumpOrPass.descend first).ending.call? = some .pass ∧
        (RuleTree.notrumpOrPass.descend second).ending.call? = some (.of 1 .notrump)) ∧
      (RuleTree.notrumpOrPass.handRoot first).bids =
        (RuleTree.notrumpOrPass.handRoot second).bids := by
  intro first second unopened
  have hposition : first.toPosition = second.toPosition := rfl
  have hbuilt : unopened.IsBuilt := by
    refine Condition.IsBuilt.any (List.forall_mem_cons.mpr ⟨.position _, ?_⟩)
      (rfl : Condition.any [.position .noPriorBid, .negation (.position .seatHasBid)] = _)
    exact List.forall_mem_singleton.mpr (.negate (.position .seatHasBid) rfl)
  have htree : RuleTree.notrumpOrPass.AuctionBuilt := by
    intro condition hcondition _
    rcases List.mem_cons.mp hcondition with rfl | hcondition
    · exact .position _
    · obtain rfl := List.mem_singleton.mp hcondition
      exact .holding _
  obtain ⟨hconditions, htrees⟩ := Context.auction_part_determined hposition
  exact ⟨hposition, ⟨hbuilt, rfl, (hconditions unopened hbuilt rfl).1⟩, rfl, htree,
    ⟨by decide, by decide⟩, (htrees _ rfl htree).2.1⟩

end BridgeBidding
