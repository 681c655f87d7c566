import BridgeBidding.Tree.Descent

/-!
# Paths through a rule tree

A path to a bid lists the decisions above it with the branch that leads on to it
(`RuleTree.paths`, one path for every bid, in order).  Given an outcome for every decision, a walk
from the root ends at one leaf (`RuleTree.leafBy`), and it ends at a bid exactly when a path to it
follows the outcomes (`RuleTree.leafBy_eq_leaf_iff`).

The descent for a context reaches the bid that its verdicts lead to
(`RuleTree.reached?_descendFrom_eq_some_iff`).
-/

set_option autoImplicit false
set_option relaxedAutoImplicit false

namespace BridgeBidding

/-- A decision on a path, and whether the path leads on down its yes branch. -/
structure Junction where
  key : Nat
  condition : Condition
  required : Bool

/-- A bid with the decisions above it, from the root down. -/
structure BidPath where
  junctions : List Junction
  node : BidNode

/-- An outcome for every decision, which is told by its key and its condition. -/
abbrev Outcomes := Nat → Condition → Bool

namespace BidNode

/-- The bid as a leaf of a tree. -/
def leaf (node : BidNode) : RuleTree := .bid node.key node.name node.call node.meaning

theorem leaf_injective {node other : BidNode} (h : node.leaf = other.leaf) : node = other := by
  obtain ⟨hkey, hname, hcall, hmeaning⟩ := RuleTree.bid.inj h
  cases node
  cases other
  congr

end BidNode

namespace BidPath

/-- The path as it continues one from the decision above. -/
def below (junction : Junction) (path : BidPath) : BidPath :=
  { path with junctions := junction :: path.junctions }

/-- Every decision on the path turns out as the path requires. -/
def Follows (outcomes : Outcomes) (path : BidPath) : Prop :=
  ∀ junction ∈ path.junctions, outcomes junction.key junction.condition = junction.required

theorem follows_below_iff {outcomes : Outcomes} {junction : Junction} {path : BidPath} :
    (path.below junction).Follows outcomes ↔
      outcomes junction.key junction.condition = junction.required ∧ path.Follows outcomes :=
  List.forall_mem_cons

end BidPath

namespace RuleTree

/-- The conditions of the decisions, each before those below it. -/
def conditions : RuleTree → List Condition
  | decision _ _ condition yes no => condition :: (yes.conditions ++ no.conditions)
  | _ => []

/-- The paths to the bids, in the order of the bids. -/
def paths : RuleTree → List BidPath
  | decision key _ condition yes no =>
    yes.paths.map (BidPath.below ⟨key, condition, true⟩) ++
      no.paths.map (BidPath.below ⟨key, condition, false⟩)
  | bid key name call meaning => [⟨[], { key, name, call, meaning }⟩]
  | deadEnd .. => []

/-- The leaf that the outcomes lead to. -/
def leafBy (outcomes : Outcomes) : RuleTree → RuleTree
  | decision key _ condition yes no =>
    if outcomes key condition then yes.leafBy outcomes else no.leafBy outcomes
  | tree => tree

theorem map_node_paths (tree : RuleTree) : tree.paths.map BidPath.node = tree.bids := by
  induction tree with
  | decision key name condition yes no ihyes ihno =>
    have hnode (junction : Junction) : BidPath.node ∘ BidPath.below junction = BidPath.node := rfl
    rw [paths, bids, List.map_append, List.map_map, List.map_map, hnode, hnode, ihyes, ihno]
  | bid key name call meaning => rfl
  | deadEnd key reason => rfl

theorem getElem?_bids (tree : RuleTree) (place : Nat) :
    tree.bids[place]? = tree.paths[place]?.map BidPath.node := by
  rw [← map_node_paths, List.getElem?_map]

/-- The decisions on a path ask conditions of the tree. -/
theorem mem_conditions_of_mem_paths {tree : RuleTree} {path : BidPath} (hpath : path ∈ tree.paths) :
    ∀ junction ∈ path.junctions, junction.condition ∈ tree.conditions := by
  induction tree generalizing path with
  | decision key name condition yes no ihyes ihno =>
    intro junction hjunction
    rcases List.mem_append.mp hpath with hyes | hno
    · obtain ⟨rest, hrest, rfl⟩ := List.mem_map.mp hyes
      rcases List.mem_cons.mp hjunction with rfl | hjunction
      · exact List.mem_cons_self
      · exact List.mem_cons_of_mem _ (List.mem_append_left _ (ihyes hrest junction hjunction))
    · obtain ⟨rest, hrest, rfl⟩ := List.mem_map.mp hno
      rcases List.mem_cons.mp hjunction with rfl | hjunction
      · exact List.mem_cons_self
      · exact List.mem_cons_of_mem _ (List.mem_append_right _ (ihno hrest junction hjunction))
  | bid key name call meaning =>
    obtain rfl := List.mem_singleton.mp hpath
    simp
  | deadEnd key reason => cases hpath

/-- The keys of the decisions on a path are keys of the tree, in the same order. -/
theorem sublist_keys_of_mem_paths {tree : RuleTree} {path : BidPath} (hpath : path ∈ tree.paths) :
    (path.junctions.map Junction.key).Sublist tree.keys := by
  induction tree generalizing path with
  | decision key name condition yes no ihyes ihno =>
    rcases List.mem_append.mp hpath with hyes | hno
    · obtain ⟨rest, hrest, rfl⟩ := List.mem_map.mp hyes
      exact ((ihyes hrest).trans (List.sublist_append_left _ _)).cons_cons key
    · obtain ⟨rest, hrest, rfl⟩ := List.mem_map.mp hno
      exact ((ihno hrest).trans (List.sublist_append_right _ _)).cons_cons key
  | bid key name call meaning =>
    obtain rfl := List.mem_singleton.mp hpath
    exact List.nil_sublist _
  | deadEnd key reason => cases hpath

/-- The keys of the bids are keys of the tree, in the same order. -/
theorem sublist_keys_bids (tree : RuleTree) : (tree.bids.map BidNode.key).Sublist tree.keys := by
  induction tree with
  | decision key name condition yes no ihyes ihno =>
    rw [bids, keys, List.map_append]
    exact (ihyes.append ihno).cons key
  | bid key name call meaning => exact List.Sublist.refl _
  | deadEnd key reason => exact List.nil_sublist _

/-! ### Where outcomes lead -/

/-- The outcomes lead to a bid exactly when its path follows them. -/
theorem leafBy_eq_leaf_iff {outcomes : Outcomes} {tree : RuleTree} {node : BidNode} :
    tree.leafBy outcomes = node.leaf ↔
      ∃ path ∈ tree.paths, path.Follows outcomes ∧ path.node = node := by
  induction tree with
  | decision key name condition yes no ihyes ihno =>
    rw [leafBy, paths]
    simp only [List.mem_append, List.mem_map, or_and_right, exists_or]
    cases houtcome : outcomes key condition with
    | true =>
      rw [if_pos rfl, ihyes]
      constructor
      · rintro ⟨path, hpath, hfollows, rfl⟩
        exact Or.inl ⟨_, ⟨path, hpath, rfl⟩,
          BidPath.follows_below_iff.mpr ⟨houtcome, hfollows⟩, rfl⟩
      · rintro (⟨-, ⟨path, hpath, rfl⟩, hfollows, rfl⟩ | ⟨-, ⟨path, hpath, rfl⟩, hfollows, -⟩)
        · exact ⟨path, hpath, (BidPath.follows_below_iff.mp hfollows).2, rfl⟩
        · simp [BidPath.follows_below_iff, houtcome] at hfollows
    | false =>
      rw [if_neg (by simp), ihno]
      constructor
      · rintro ⟨path, hpath, hfollows, rfl⟩
        exact Or.inr ⟨_, ⟨path, hpath, rfl⟩,
          BidPath.follows_below_iff.mpr ⟨houtcome, hfollows⟩, rfl⟩
      · rintro (⟨-, ⟨path, hpath, rfl⟩, hfollows, -⟩ | ⟨-, ⟨path, hpath, rfl⟩, hfollows, rfl⟩)
        · simp [BidPath.follows_below_iff, houtcome] at hfollows
        · exact ⟨path, hpath, (BidPath.follows_below_iff.mp hfollows).2, rfl⟩
  | bid key name call meaning =>
    simp only [leafBy, paths, List.mem_singleton, exists_eq_left]
    constructor
    · intro h
      exact ⟨fun junction hjunction ↦ absurd hjunction (by simp), BidNode.leaf_injective h⟩
    · rintro ⟨-, rfl⟩
      rfl
  | deadEnd key reason => simp [leafBy, paths, BidNode.leaf]

theorem mem_bids_of_leafBy {outcomes : Outcomes} {tree : RuleTree} {node : BidNode}
    (h : tree.leafBy outcomes = node.leaf) : node ∈ tree.bids := by
  obtain ⟨path, hpath, -, rfl⟩ := leafBy_eq_leaf_iff.mp h
  rw [← map_node_paths]
  exact List.mem_map_of_mem hpath

end RuleTree

/-! ### Where a descent ends -/

/-- What the decisions turn out to be for a context, one that fails counting as not passed. -/
def Context.outcomes (context : Context) : Outcomes :=
  fun _ condition ↦ (condition.verdict context).passed

namespace Ending

/-- The bid reached, whether its call was worked out or failed. -/
def reached? : Ending → Option BidNode
  | bid node _ => some node
  | failedBid node _ => some node
  | deadEnd _ => none

/-- The name of the bid reached, and what came of its call. -/
def outcome? : Ending → Option (String × Except Failure Call)
  | bid node call => some (node.name, .ok call)
  | failedBid node failure => some (node.name, .error failure)
  | deadEnd _ => none

end Ending

namespace RuleTree

theorem reached?_endAt (context : Context) (node : BidNode) :
    (endAt context node).reached? = some node := by
  rw [endAt]
  split <;> rfl

theorem outcome?_endAt (context : Context) (node : BidNode) :
    (endAt context node).outcome? = some (node.name, node.call context) := by
  rw [endAt]
  split <;> simp_all [Ending.outcome?]

/-- The descent reaches the bid that the verdicts lead to. -/
theorem reached?_descendFrom_eq_some_iff {context : Context} {tree : RuleTree} {depth : Nat}
    {parent? : Option String} {node : BidNode} :
    (tree.descendFrom context depth parent?).ending.reached? = some node ↔
      tree.leafBy context.outcomes = node.leaf := by
  induction tree generalizing depth parent? with
  | decision key name condition yes no ihyes ihno =>
    rw [descendFrom, leafBy, Context.outcomes]
    cases hpassed : (condition.verdict context).passed with
    | true => exact ihyes
    | false => exact ihno
  | bid key name call meaning =>
    rw [descendFrom, reached?_endAt, Option.some.injEq]
    exact ⟨fun h ↦ congrArg BidNode.leaf h, fun h ↦ BidNode.leaf_injective h⟩
  | deadEnd key reason => simp [descendFrom, leafBy, Ending.reached?, BidNode.leaf]

/-- A descent that reaches a bid ends there as its call says. -/
theorem ending_eq_endAt {context : Context} {tree : RuleTree} {depth : Nat}
    {parent? : Option String} {node : BidNode}
    (h : (tree.descendFrom context depth parent?).ending.reached? = some node) :
    (tree.descendFrom context depth parent?).ending = endAt context node := by
  induction tree generalizing depth parent? with
  | decision key name condition yes no ihyes ihno =>
    rw [descendFrom] at h ⊢
    cases hpassed : (condition.verdict context).passed with
    | true =>
      simp only [hpassed, if_true] at h ⊢
      exact ihyes h
    | false =>
      simp only [hpassed, Bool.false_eq_true, if_false] at h ⊢
      exact ihno h
  | bid key name call meaning =>
    rw [descendFrom, reached?_endAt, Option.some.injEq] at h
    rw [descendFrom, h]
  | deadEnd key reason => cases h

end RuleTree

end BridgeBidding
