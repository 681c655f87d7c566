import BridgeBidding.Hand.Sample
import BridgeBidding.Proofs.Tree.Structure
import BridgeBidding.Tree.Sibling
import Mathlib.Data.List.Forall2

/-!
# Siblings are one change of outcomes away

The descent for a context and the search for siblings take the decisions about the auction alike,
so the descent passes the node below which the siblings lie (`RuleTree.handRoot_mem_trail`).  Every
path below that node whose call can be worked out makes a sibling, save the one that the descent
followed, and the sibling lists the decisions on its path that turn out otherwise.  With just those
turned round, the tree leads to the sibling (`RuleTree.siblings_complete`).
-/

set_option autoImplicit false
set_option relaxedAutoImplicit false

namespace BridgeBidding

open Success

namespace Outcomes

/-- The outcomes with those of the decisions in a list turned round. -/
def flip (outcomes : Outcomes) (keys : List Nat) : Outcomes :=
  fun key condition ↦ if key ∈ keys then !outcomes key condition else outcomes key condition

end Outcomes

namespace Junction

/-- What a sibling says about the decision. -/
def detail (context : Context) (junction : Junction) : SiblingCondition where
  name := junction.condition.name
  description := (junction.condition.verdict context).description
  required := junction.required
  actual := context.outcomes junction.key junction.condition

end Junction

namespace BidPath

/-- The decisions that do not turn out as the path requires, from the root down. -/
def differing (outcomes : Outcomes) (path : BidPath) : List Junction :=
  path.junctions.filter fun junction ↦
    outcomes junction.key junction.condition != junction.required

theorem differing_eq_nil_iff {outcomes : Outcomes} {path : BidPath} :
    path.differing outcomes = [] ↔ path.Follows outcomes := by
  simp [differing, Follows, List.filter_eq_nil_iff]

/-- A path on which no decision stands twice is followed once those that differ are turned round. -/
theorem follows_flip_differing {outcomes : Outcomes} {path : BidPath}
    (hkeys : (path.junctions.map Junction.key).Nodup) :
    path.Follows (outcomes.flip ((path.differing outcomes).map Junction.key)) := by
  intro junction hjunction
  have hmem : junction.key ∈ (path.differing outcomes).map Junction.key ↔
      outcomes junction.key junction.condition ≠ junction.required := by
    constructor
    · intro h
      obtain ⟨other, hother, hkey⟩ := List.mem_map.mp h
      obtain ⟨hotherMem, hdiffers⟩ := List.mem_filter.mp hother
      obtain rfl := List.inj_on_of_nodup_map hkeys hotherMem hjunction hkey
      simpa using hdiffers
    · intro h
      exact List.mem_map_of_mem (List.mem_filter.mpr ⟨hjunction, by simpa using h⟩)
  rw [Outcomes.flip]
  by_cases h : outcomes junction.key junction.condition = junction.required
  · rw [if_neg (by rw [hmem]; exact not_not.mpr h), h]
  · rw [if_pos (hmem.mpr h)]
    exact Bool.not_eq.mpr h

/-- The sibling at the end of a path below further decisions, if the path does not lead to the
matched node and its call can be worked out. -/
def sibling? (context : Context) (matched? : Option Nat) (above : List (Condition × Bool))
    (path : BidPath) : Option Sibling :=
  if matched? = some path.node.key then
    none
  else
    match path.node.call context with
    | .error _ => none
    | .ok call =>
      some {
        name := path.node.name
        meaning := path.node.meaning
        call
        failed := RuleTree.failedOn context
          (above ++ path.junctions.map fun junction ↦ (junction.condition, junction.required)) }

theorem sibling?_below (context : Context) (matched? : Option Nat)
    (above : List (Condition × Bool)) (junction : Junction) (path : BidPath) :
    (path.below junction).sibling? context matched? above =
      path.sibling? context matched? (above ++ [(junction.condition, junction.required)]) := by
  simp [sibling?, below]

/-- The path leads to a bid that competes with the matched one. -/
def competes (context : Context) (matched? : Option Nat) (path : BidPath) : Bool :=
  decide (matched? ≠ some path.node.key) && (path.node.call context).isOk

end BidPath

namespace RuleTree

/-! ### The node where the decisions about the auction end -/

theorem sublist_keys_handRoot (context : Context) (tree : RuleTree) :
    (tree.handRoot context).keys.Sublist tree.keys := by
  induction tree with
  | decision key name condition yes no ihyes ihno =>
    rw [handRoot]
    split_ifs with hauction hpassed
    · exact (ihyes.trans (List.sublist_append_left _ _)).cons key
    · exact (ihno.trans (List.sublist_append_right _ _)).cons key
    · exact List.Sublist.refl _
  | _ => exact List.Sublist.refl _

/-- Only decisions about the hand are left. -/
theorem Ordered.handOnly_handRoot {context : Context} {tree : RuleTree} (h : tree.Ordered) :
    (tree.handRoot context).HandOnly := by
  induction tree with
  | decision key name condition yes no ihyes ihno =>
    obtain ⟨hhand, hyes, hno⟩ := h
    rw [handRoot]
    split_ifs with hauction hpassed
    · exact ihyes hyes
    · exact ihno hno
    · exact handOnly_decision_iff.mpr ⟨by simpa using hauction, hhand (by simpa using hauction)⟩
  | _ => exact handOnly_of_conditions_eq_nil rfl

/-- Changing the outcomes of decisions about the hand does not change the way to them. -/
theorem leafBy_handRoot {context : Context} {outcomes : Outcomes} {tree : RuleTree}
    (hkeys : tree.keys.Nodup)
    (hagree : ∀ key condition, key ∉ (tree.handRoot context).keys →
      outcomes key condition = context.outcomes key condition) :
    tree.leafBy outcomes = (tree.handRoot context).leafBy outcomes := by
  induction tree with
  | decision key name condition yes no ihyes ihno =>
    obtain ⟨hfresh, hbelow⟩ := List.nodup_cons.mp hkeys
    rw [handRoot] at hagree ⊢
    split_ifs at hagree ⊢ with hauction hpassed
    · have hkey : key ∉ (yes.handRoot context).keys := fun h ↦
        hfresh (List.mem_append_left _ ((sublist_keys_handRoot context yes).mem h))
      rw [leafBy, hagree key condition hkey, Context.outcomes, if_pos hpassed]
      exact ihyes hbelow.of_append_left hagree
    · have hkey : key ∉ (no.handRoot context).keys := fun h ↦
        hfresh (List.mem_append_right _ ((sublist_keys_handRoot context no).mem h))
      rw [leafBy, hagree key condition hkey, Context.outcomes, if_neg hpassed]
      exact ihno hbelow.of_append_right hagree
    · rfl
  | _ => rfl

end RuleTree

/-! ### The way down -/

namespace Descent

/-- The nodes on the way down from the root, with the leaf at its end. -/
def trail (root : RuleTree) (descent : Descent) : List RuleTree :=
  descent.steps.map Step.node ++ [(descent.steps.getLast?.map Step.taken).getD root]

theorem trail_cons (root : RuleTree) (step : Step) (steps : List Step) (ending : Ending) :
    trail root { steps := step :: steps, ending } =
      step.node :: trail step.taken { steps, ending } := by
  cases steps with
  | nil => rfl
  | cons next rest =>
    simp only [trail, List.map_cons, List.cons_append, List.getLast?_cons_cons]
    rw [List.getLast?_eq_some_getLast (List.cons_ne_nil next rest)]
    rfl

end Descent

namespace RuleTree

/-- The first node on a way down from a decision is the decision, and the others are those from the
branch taken. -/
theorem trail_descendFrom_decision (context : Context) (depth : Nat) (parent? : Option String)
    (key : Nat) (name : String) (condition : Condition) (yes no : RuleTree) :
    ((decision key name condition yes no).descendFrom context depth parent?).trail
        (decision key name condition yes no) =
      decision key name condition yes no ::
        if (condition.verdict context).passed then
          (yes.descendFrom context (depth + 1) (some name)).trail yes
        else
          (no.descendFrom context (depth + 1) (some name)).trail no := by
  rw [descendFrom, Descent.trail_cons]
  cases hpassed : (condition.verdict context).passed with
  | true => simp [Step.node, Step.passed, hpassed]
  | false => simp [Step.node, Step.passed, hpassed]

/-- The descent passes the node where the decisions about the auction end. -/
theorem handRoot_mem_trail (context : Context) (tree : RuleTree) (depth : Nat)
    (parent? : Option String) :
    tree.handRoot context ∈ (tree.descendFrom context depth parent?).trail tree := by
  induction tree generalizing depth parent? with
  | decision key name condition yes no ihyes ihno =>
    rw [trail_descendFrom_decision, handRoot]
    by_cases hauction : condition.isAuction = true
    · rw [if_pos hauction]
      by_cases hpassed : (condition.verdict context).passed = true
      · rw [if_pos hpassed, if_pos hpassed]
        exact List.mem_cons_of_mem _ (ihyes _ _)
      · rw [if_neg hpassed, if_neg hpassed]
        exact List.mem_cons_of_mem _ (ihno _ _)
    · rw [if_neg hauction]
      exact List.mem_cons_self
  | _ => exact List.mem_singleton_self _

/-! ### The search for siblings -/

/-- Below decisions about the hand the search finds one sibling for every path that makes one. -/
theorem siblingsFrom_eq {context : Context} {matched? : Option Nat}
    {above : List (Condition × Bool)} {tree : RuleTree} (h : tree.HandOnly) :
    tree.siblingsFrom context matched? above =
      .ok (tree.paths.filterMap (BidPath.sibling? context matched? above)) := by
  induction tree generalizing above with
  | decision key name condition yes no ihyes ihno =>
    obtain ⟨hhand, hyes, hno⟩ := handOnly_decision_iff.mp h
    have hbelow (required : Bool) :
        BidPath.sibling? context matched? above ∘ BidPath.below ⟨key, condition, required⟩ =
          BidPath.sibling? context matched? (above ++ [(condition, required)]) :=
      funext fun path ↦ BidPath.sibling?_below context matched? above _ path
    rw [siblingsFrom, hhand, if_neg (by simp), ihyes hyes, ihno hno, paths, List.filterMap_append,
      List.filterMap_map, List.filterMap_map, hbelow, hbelow]
    rfl
  | bid key name call meaning =>
    simp only [siblingsFrom, paths, List.filterMap_cons, List.filterMap_nil, BidPath.sibling?]
    split_ifs with hmatched
    · rfl
    · cases call context with
      | ok value => simp
      | error failure => rfl
  | deadEnd key reason => rfl

/-- A bid that the verdicts lead to is matched if its call can be worked out. -/
theorem node?_descend_of_leafBy {context : Context} {tree : RuleTree} {node : BidNode} {call : Call}
    (h : tree.leafBy context.outcomes = node.leaf) (hcall : node.call context = .ok call) :
    (tree.descend context).ending.node? = some node := by
  have hending : (tree.descend context).ending = endAt context node :=
    ending_eq_endAt (reached?_descendFrom_eq_some_iff.mpr h)
  rw [hending, endAt, hcall]
  rfl

/-- The verdicts lead from the root where they lead from the end of the decisions about the
auction. -/
theorem leafBy_outcomes_handRoot {context : Context} {tree : RuleTree} (hkeys : tree.keys.Nodup) :
    tree.leafBy context.outcomes = (tree.handRoot context).leafBy context.outcomes :=
  leafBy_handRoot hkeys fun _ _ _ ↦ rfl

/-- The siblings are those of the paths below the end of the decisions about the auction.  If a bid
stands there, it has none: the descent matches it unless its call fails. -/
theorem siblings_eq {context : Context} {matched? : Option Nat} {tree : RuleTree}
    (hkeys : tree.keys.Nodup) (hordered : tree.Ordered)
    (hmatched : matched? = (tree.descend context).ending.node?.map BidNode.key) :
    tree.siblings context matched? =
      .ok ((tree.handRoot context).paths.filterMap (BidPath.sibling? context matched? [])) := by
  have hhand := @Ordered.handOnly_handRoot context tree hordered
  have hleaf := @leafBy_outcomes_handRoot context tree hkeys
  rw [siblings]
  cases hroot : tree.handRoot context with
  | decision key name condition yes no =>
    rw [hroot] at hhand
    exact siblingsFrom_eq hhand
  | bid key name call meaning =>
    rw [hroot] at hleaf
    cases hcall : call context with
    | ok value =>
      have hnode : (tree.descend context).ending.node? = some ⟨key, name, call, meaning⟩ :=
        node?_descend_of_leafBy hleaf hcall
      simp [hmatched, hnode, paths, BidPath.sibling?]
    | error failure => simp [paths, BidPath.sibling?, hcall]
  | deadEnd key reason => rfl

end RuleTree

namespace BidPath

theorem failedOn_eq (context : Context) (path : BidPath) :
    RuleTree.failedOn context
        (path.junctions.map fun junction ↦ (junction.condition, junction.required)) =
      (path.differing context.outcomes).map (Junction.detail context) := by
  obtain ⟨junctions, node⟩ := path
  simp only [differing, RuleTree.failedOn]
  induction junctions with
  | nil => rfl
  | cons junction rest ih =>
    rw [List.map_cons, List.filterMap_cons, List.filter_cons, ih]
    by_cases h : (junction.condition.verdict context).passed = junction.required
    · simp [h, Context.outcomes]
    · simp [h, Context.outcomes, Junction.detail]

/-- A path that competes makes a sibling, and no other path does. -/
theorem sibling?_eq_of_competes {context : Context} {matched? : Option Nat} {path : BidPath}
    (h : path.competes context matched? = true) :
    ∃ call, path.node.call context = .ok call ∧
      path.sibling? context matched? [] =
        some {
          name := path.node.name
          meaning := path.node.meaning
          call
          failed := (path.differing context.outcomes).map (Junction.detail context) } := by
  rw [competes, Bool.and_eq_true, decide_eq_true_iff] at h
  obtain ⟨hother, hok⟩ := h
  cases hcall : path.node.call context with
  | ok call =>
    refine ⟨call, rfl, ?_⟩
    rw [sibling?, if_neg hother, hcall, List.nil_append, failedOn_eq]
  | error failure => simp [hcall, Except.isOk, Except.toBool] at hok

theorem sibling?_eq_none_of_not_competes {context : Context} {matched? : Option Nat}
    {path : BidPath} (h : path.competes context matched? = false) :
    path.sibling? context matched? [] = none := by
  rw [sibling?]
  split_ifs with hmatched
  · rfl
  · cases hcall : path.node.call context with
    | ok call => simp [competes, hmatched, hcall, Except.isOk, Except.toBool] at h
    | error failure => rfl

end BidPath

theorem forall₂_filter_filterMap {α β : Type} {relation : α → β → Prop} {keep : α → Bool}
    {make : α → Option β} {list : List α}
    (hkeep : ∀ item ∈ list, keep item = true → ∃ made, make item = some made ∧ relation item made)
    (hdrop : ∀ item ∈ list, keep item = false → make item = none) :
    List.Forall₂ relation (list.filter keep) (list.filterMap make) := by
  induction list with
  | nil => exact List.Forall₂.nil
  | cons item rest ih =>
    have hrest := ih (fun other hother ↦ hkeep other (List.mem_cons_of_mem _ hother))
      fun other hother ↦ hdrop other (List.mem_cons_of_mem _ hother)
    cases hitem : keep item with
    | true =>
      obtain ⟨made, hmade, hrelation⟩ := hkeep item List.mem_cons_self hitem
      rw [List.filter_cons_of_pos hitem, List.filterMap_cons_some hmade]
      exact List.Forall₂.cons hrelation hrest
    | false =>
      rw [List.filter_cons_of_neg (by simp [hitem]),
        List.filterMap_cons_none (hdrop item List.mem_cons_self hitem)]
      exact hrest

namespace RuleTree

/-- Turning round the outcomes that differ on a path makes the tree lead to the bid of the path. -/
theorem leafBy_flip_differing {context : Context} {tree : RuleTree} {path : BidPath}
    (hkeys : tree.keys.Nodup) (hpath : path ∈ (tree.handRoot context).paths) :
    tree.leafBy (context.outcomes.flip ((path.differing context.outcomes).map Junction.key)) =
      path.node.leaf := by
  have hrootKeys := hkeys.sublist (sublist_keys_handRoot context tree)
  rw [leafBy_handRoot hkeys]
  · exact leafBy_eq_leaf_iff.mpr ⟨path, hpath, BidPath.follows_flip_differing
      (hrootKeys.sublist (sublist_keys_of_mem_paths hpath)), rfl⟩
  · intro key condition hkey
    rw [Outcomes.flip, if_neg]
    intro hdiffers
    obtain ⟨junction, hjunction, rfl⟩ := List.mem_map.mp hdiffers
    exact hkey ((sublist_keys_of_mem_paths hpath).mem
      (List.mem_map_of_mem (List.mem_of_mem_filter hjunction)))

/-- A path that competes differs from the verdicts, for its bid would have been matched. -/
theorem differing_ne_nil_of_competes {context : Context} {matched? : Option Nat} {tree : RuleTree}
    {path : BidPath} (hkeys : tree.keys.Nodup)
    (hmatched : matched? = (tree.descend context).ending.node?.map BidNode.key)
    (hpath : path ∈ (tree.handRoot context).paths)
    (hcompetes : path.competes context matched? = true) :
    path.differing context.outcomes ≠ [] := by
  intro hnil
  obtain ⟨call, hcall, -⟩ := BidPath.sibling?_eq_of_competes hcompetes
  have hleaf : tree.leafBy context.outcomes = path.node.leaf := by
    rw [leafBy_outcomes_handRoot hkeys]
    exact leafBy_eq_leaf_iff.mpr ⟨path, hpath, BidPath.differing_eq_nil_iff.mp hnil, rfl⟩
  have hnode := node?_descend_of_leafBy hleaf hcall
  simp [BidPath.competes, hmatched, hnode] at hcompetes

/-- In a tree that passes the examination, the descent passes the node where the decisions about the
auction end.  The siblings are the bids below it, in order, other than the matched one and those
whose call fails.  What a sibling lists are the decisions on its path that turn out otherwise, at
least one, and with just those turned round the tree leads to the sibling. -/
theorem siblings_complete {tree : RuleTree} {context : Context} {root : RuleTree}
    {matched? : Option Nat} (hexamine : tree.examine = .ok ())
    (hroot : root = tree.handRoot context)
    (hmatched : matched? = (tree.descend context).ending.node?.map BidNode.key) :
    root ∈ (tree.descend context).trail tree ∧
    root.paths.map BidPath.node = root.bids ∧ (root.bids.map BidNode.key).Nodup ∧
    ∃ found, tree.siblings context matched? = .ok found ∧
      List.Forall₂ (fun path sibling ↦
          sibling.name = path.node.name ∧ sibling.meaning = path.node.meaning ∧
          path.node.call context = .ok sibling.call ∧
          sibling.failed = (path.differing context.outcomes).map (Junction.detail context) ∧
          sibling.failed ≠ [] ∧
          tree.leafBy (context.outcomes.flip
              ((path.differing context.outcomes).map Junction.key)) = path.node.leaf)
        (root.paths.filter (BidPath.competes context matched?)) found := by
  obtain ⟨hkeys, hordered⟩ := examine_eq_ok_iff.mp hexamine
  subst hroot
  have hrootKeys := hkeys.sublist (sublist_keys_handRoot context tree)
  refine ⟨handRoot_mem_trail context tree 0 none, map_node_paths _,
    hrootKeys.sublist (sublist_keys_bids _), _, siblings_eq hkeys hordered hmatched, ?_⟩
  apply forall₂_filter_filterMap
  · intro path hpath hcompetes
    obtain ⟨call, hcall, hsibling⟩ := BidPath.sibling?_eq_of_competes hcompetes
    have hdiffering := differing_ne_nil_of_competes hkeys hmatched hpath hcompetes
    refine ⟨_, hsibling, rfl, rfl, hcall, rfl, ?_, leafBy_flip_differing hkeys hpath⟩
    exact fun hnil ↦ hdiffering (List.map_eq_nil_iff.mp hnil)
  · intro path _ hcompetes
    exact BidPath.sibling?_eq_none_of_not_competes hcompetes

/-- Opens one notrump on a balanced hand, and on others asks a question that has no answer. -/
def notrumpOrUnsettled : RuleTree :=
  numbered <|
    ask "no-bids-yet" (.position .noPriorBid)
      (ask "is-balanced" (.holding .balanced)
        (say "open-1nt" (.of 1 .notrump) "Balanced") <|
      ask "is-unsettled" (.custom (.failing "unsettled" .hand "no answer"))
        (say "open-2c" (.of 2 .clubs) "Artificial")
        (say "pass" .pass "Not balanced"))
      (stop none)

theorem siblings_complete_notrumpOrUnsettled :
    let context := Context.ofHand .bothMajors (.empty (some .north)) .north
    let matched? := (notrumpOrUnsettled.descend context).ending.node?.map BidNode.key
    notrumpOrUnsettled.examine = .ok () ∧
      ∃ found, notrumpOrUnsettled.siblings context matched? = .ok found ∧
        List.Forall₂ (fun name sibling ↦ sibling.name = name ∧ sibling.failed ≠ [])
          ["open-1nt", "open-2c"] found := by
  intro context matched?
  have hexamine : notrumpOrUnsettled.examine = .ok () := rfl
  obtain ⟨-, -, -, found, hfound, hforall⟩ := siblings_complete hexamine rfl
    (rfl : matched? = (notrumpOrUnsettled.descend context).ending.node?.map BidNode.key)
  have hnames : ((notrumpOrUnsettled.handRoot context).paths.filter
      (BidPath.competes context matched?)).map (fun path ↦ path.node.name) =
        ["open-1nt", "open-2c"] := by decide
  refine ⟨hexamine, found, hfound, ?_⟩
  rw [← hnames, List.forall₂_map_left_iff]
  exact hforall.imp fun path sibling h ↦ ⟨h.1, h.2.2.2.2.1⟩

end RuleTree

end BridgeBidding
