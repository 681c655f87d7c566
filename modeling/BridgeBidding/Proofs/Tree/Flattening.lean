import BridgeBidding.Hand.Sample
import BridgeBidding.Proofs.Condition.Verdict
import BridgeBidding.Proofs.Tree.Path
import BridgeBidding.Tree.Flattening
import Mathlib.Data.List.Forall2
import Mathlib.Data.List.Nodup

/-!
# Flat rules and the descent agree

A flattened tree has one rule for every path to a bid, which asks the conditions of the path and
their opposites (`RuleTree.flatten_eq_ok`).  A rule matches when every decision on its path has an
answer, and the one that the path requires; a descent goes where the answers lead unless a
description fails.  So scanning the rules for the first match and descending the tree come to the
same (`RuleTree.flatten_agrees`).
-/

set_option autoImplicit false
set_option relaxedAutoImplicit false

namespace BridgeBidding

open Success

namespace Junction

/-- The condition that a flat rule asks for the decision. -/
def asked (junction : Junction) : Condition :=
  if junction.required then junction.condition else .negation junction.condition

/-- The asked condition holds when the decision has the required answer. -/
theorem holds_asked_iff {context : Context} {junction : Junction} :
    junction.asked.holds context = .ok true ↔
      junction.condition.holds context = .ok junction.required := by
  obtain ⟨key, condition, required⟩ := junction
  cases required with
  | true => rfl
  | false => cases hholds : condition.holds context <;> simp [asked, Condition.holds, hholds]

end Junction

namespace BidPath

/-- The conditions that a flat rule asks for the path. -/
def conditions (path : BidPath) : List Condition := path.junctions.map Junction.asked

end BidPath

namespace Rule

/-- The rule of a bid under conditions, those about the auction first. -/
def ofBid (conditions : List Condition) (node : BidNode) : Rule where
  name := node.name
  auctionConditions := conditions.filter Condition.isAuction
  handConditions := conditions.filter fun condition ↦ !condition.isAuction
  call := node.call
  explanation := node.meaning

/-- A rule matches when all its conditions have an answer, and hold. -/
theorem matchesIn_iff {context : Context} {rule : Rule} :
    rule.matchesIn context = true ↔
      ∀ condition ∈ rule.conditions, condition.holds context = .ok true := by
  rw [matchesIn, List.all_eq_true]
  refine forall_congr' fun condition ↦ imp_congr_right fun _ ↦ ?_
  cases condition.holds context <;> simp

/-- Asking the conditions about the auction first does not change which rules match. -/
theorem matchesIn_ofBid_iff {context : Context} {conditions : List Condition} {node : BidNode} :
    (ofBid conditions node).matchesIn context = true ↔
      ∀ condition ∈ conditions, condition.holds context = .ok true := by
  have hmem (condition : Condition) :
      condition ∈ (ofBid conditions node).conditions ↔ condition ∈ conditions := by
    simp only [Rule.conditions, ofBid, List.mem_append, List.mem_filter, ← and_or_left]
    exact and_iff_left (by cases condition.isAuction <;> simp)
  simp only [matchesIn_iff, hmem]

theorem make_eq_ok {name : String} {auctionConditions handConditions : List Condition}
    {call : CallRule} {explanation : String} {rule : Rule}
    (h : make name auctionConditions handConditions call explanation = .ok rule) :
    rule = { name, auctionConditions, handConditions, call, explanation } := by
  rw [make] at h
  split at h
  · cases h
  · exact (Except.ok.inj h).symm

end Rule

namespace RuleTree

/-- The rule of a path below further conditions. -/
def ruleOf (above : List Condition) (path : BidPath) : Rule :=
  Rule.ofBid (above ++ path.conditions) path.node

theorem ruleOf_below (above : List Condition) (junction : Junction) (path : BidPath) :
    ruleOf above (path.below junction) = ruleOf (above ++ [junction.asked]) path := by
  simp [ruleOf, BidPath.conditions, BidPath.below]

theorem negate_eq_ok {condition opposite : Condition} (h : condition.negate = .ok opposite) :
    opposite = .negation condition := by
  rw [Condition.negate] at h
  split at h
  · exact (Except.ok.inj h).symm
  · cases h

theorem inference?_negation {condition : Condition} (h : condition.inference? = none) :
    (Condition.negation condition).inference? = none := by
  rw [Condition.inference?, h]
  rfl

theorem ruleAt_eq_ok {above : List Condition} {node : BidNode} {rule : Rule}
    (h : ruleAt above node = .ok rule) : rule = ruleOf above ⟨[], node⟩ := by
  rw [ruleAt, mapError_eq_ok_iff] at h
  rw [Rule.make_eq_ok h, ruleOf, BidPath.conditions, List.map_nil, List.append_nil]
  rfl

/-- Flattening succeeds with one rule for each path, having seen every node for the first time. -/
theorem flattenFrom_eq_ok {above : List Condition} {seen : List Nat} {tree : RuleTree}
    {result : List Rule × List Nat} (h : tree.flattenFrom above seen = .ok result) :
    result = (tree.paths.map (ruleOf above), tree.keys.reverse ++ seen) ∧
      (seen.Nodup → (tree.keys.reverse ++ seen).Nodup) := by
  induction tree generalizing above seen result with
  | decision key name condition yes no ihyes ihno =>
    rw [flattenFrom] at h
    split at h
    · cases h
    next hfresh =>
      obtain ⟨⟨yesRules, yesSeen⟩, hyes, h⟩ := bind_eq_ok_iff.mp h
      obtain ⟨opposite, hopposite, h⟩ := bind_eq_ok_iff.mp h
      obtain ⟨⟨noRules, noSeen⟩, hno, h⟩ := bind_eq_ok_iff.mp h
      obtain ⟨hyesResult, hyesNodup⟩ := ihyes hyes
      obtain ⟨hnoResult, hnoNodup⟩ := ihno hno
      obtain ⟨rfl, rfl⟩ := Prod.mk.inj hyesResult
      obtain ⟨rfl, rfl⟩ := Prod.mk.inj hnoResult
      obtain rfl := negate_eq_ok (mapError_eq_ok_iff.mp hopposite)
      have hkeys : (decision key name condition yes no).keys.reverse ++ seen =
          no.keys.reverse ++ (yes.keys.reverse ++ (key :: seen)) := by
        simp [keys]
      refine ⟨?_, fun hseen ↦ ?_⟩
      · rw [hkeys, paths, List.map_append, List.map_map, List.map_map]
        simp only [Function.comp_def, ruleOf_below]
        exact (Except.ok.inj h).symm
      · rw [hkeys]
        exact hnoNodup (hyesNodup (List.nodup_cons.mpr ⟨by simpa using hfresh, hseen⟩))
  | bid key name call meaning =>
    rw [flattenFrom] at h
    split at h
    · cases h
    next hfresh =>
      obtain ⟨rule, hrule, h⟩ := bind_eq_ok_iff.mp h
      obtain rfl := ruleAt_eq_ok hrule
      refine ⟨(Except.ok.inj h).symm, fun hseen ↦ ?_⟩
      exact List.nodup_cons.mpr ⟨by simpa using hfresh, hseen⟩
  | deadEnd key reason =>
    rw [flattenFrom] at h
    split at h
    · cases h
    next hfresh =>
      refine ⟨(Except.ok.inj h).symm, fun hseen ↦ ?_⟩
      exact List.nodup_cons.mpr ⟨by simpa using hfresh, hseen⟩

/-- The rules of a flattened tree are those of its paths, and its nodes are all different. -/
theorem flatten_eq_ok {tree : RuleTree} {rules : List Rule} (h : tree.flatten = .ok rules) :
    rules = tree.paths.map (ruleOf []) ∧ tree.keys.Nodup := by
  obtain ⟨result, hresult, hrules⟩ := bind_eq_ok_iff.mp h
  obtain ⟨rfl, hnodup⟩ := flattenFrom_eq_ok hresult
  refine ⟨(Except.ok.inj hrules).symm, ?_⟩
  rw [← List.nodup_reverse]
  simpa using hnodup List.nodup_nil

/-- A bid stands at one place only: the keys of the bids are all different. -/
theorem place_unique {tree : RuleTree} (hkeys : tree.keys.Nodup) {place other : Nat}
    {node : BidNode} (hplace : tree.bids[place]? = some node)
    (hother : tree.bids[other]? = some node) : place = other := by
  have hnodup : (tree.bids.map BidNode.key).Nodup := hkeys.sublist tree.sublist_keys_bids
  obtain ⟨hlt, -⟩ := List.getElem?_eq_some_iff.mp hplace
  refine (List.getElem?_inj (by simpa using hlt) hnodup).mp ?_
  rw [List.getElem?_map, List.getElem?_map, hplace, hother]

/-! ### Matching and descending -/

/-- No decision of the tree fails to be described. -/
def IsDescribedIn (tree : RuleTree) (context : Context) : Prop :=
  ∀ condition ∈ tree.conditions, ∃ description, condition.describe context = .ok description

/-- No decision of the tree fails to be answered. -/
def IsAnsweredIn (tree : RuleTree) (context : Context) : Prop :=
  ∀ condition ∈ tree.conditions, ∃ answer, condition.holds context = .ok answer

theorem matchesIn_ruleOf_iff {context : Context} {path : BidPath} :
    (ruleOf [] path).matchesIn context = true ↔
      ∀ junction ∈ path.junctions,
        junction.condition.holds context = .ok junction.required := by
  rw [ruleOf, List.nil_append, Rule.matchesIn_ofBid_iff, BidPath.conditions, List.forall_mem_map]
  exact forall_congr' fun junction ↦ imp_congr_right fun _ ↦ Junction.holds_asked_iff

/-- The rule of a path matches only if the verdicts follow the path, whatever else fails. -/
theorem follows_of_matchesIn {tree : RuleTree} {context : Context} {path : BidPath}
    (hdescribed : tree.IsDescribedIn context) (hpath : path ∈ tree.paths)
    (hmatches : (ruleOf [] path).matchesIn context = true) : path.Follows context.outcomes := by
  intro junction hjunction
  obtain ⟨description, hdescription⟩ :=
    hdescribed _ (mem_conditions_of_mem_paths hpath junction hjunction)
  have hholds := matchesIn_ruleOf_iff.mp hmatches junction hjunction
  exact Condition.passed_verdict hholds hdescription

/-- When nothing fails, the rule of a path matches exactly if the verdicts follow the path. -/
theorem matchesIn_iff_follows {tree : RuleTree} {context : Context} {path : BidPath}
    (hdescribed : tree.IsDescribedIn context) (hanswered : tree.IsAnsweredIn context)
    (hpath : path ∈ tree.paths) :
    (ruleOf [] path).matchesIn context = true ↔ path.Follows context.outcomes := by
  refine ⟨follows_of_matchesIn hdescribed hpath, fun hfollows ↦ ?_⟩
  refine matchesIn_ruleOf_iff.mpr fun junction hjunction ↦ ?_
  have hcondition := mem_conditions_of_mem_paths hpath junction hjunction
  obtain ⟨description, hdescription⟩ := hdescribed _ hcondition
  obtain ⟨answer, hanswer⟩ := hanswered _ hcondition
  have hrequired : answer = junction.required :=
    (Condition.passed_verdict hanswer hdescription).symm.trans (hfollows junction hjunction)
  rw [hanswer, hrequired]

/-- The descent reaches the bid of a path that the verdicts follow. -/
theorem reached?_of_follows {tree : RuleTree} {context : Context} {path : BidPath}
    (hpath : path ∈ tree.paths) (hfollows : path.Follows context.outcomes) :
    (tree.descend context).ending.reached? = some path.node :=
  reached?_descendFrom_eq_some_iff.mpr (leafBy_eq_leaf_iff.mpr ⟨path, hpath, hfollows, rfl⟩)

/-- A rule that matches stands for the bid that the descent reaches. -/
theorem reached?_of_matchesIn {tree : RuleTree} {context : Context} {path : BidPath}
    (hdescribed : tree.IsDescribedIn context) (hpath : path ∈ tree.paths)
    (hmatches : (ruleOf [] path).matchesIn context = true) :
    (tree.descend context).ending.reached? = some path.node :=
  reached?_of_follows hpath (follows_of_matchesIn hdescribed hpath hmatches)

/-- The path at the place of the bid that the descent reaches is followed by the verdicts. -/
theorem follows_of_reached? {tree : RuleTree} {context : Context} (hkeys : tree.keys.Nodup)
    {place : Nat} {path : BidPath} (hplace : tree.paths[place]? = some path)
    (hreached : (tree.descend context).ending.reached? = some path.node) :
    path.Follows context.outcomes := by
  obtain ⟨other, hother, hfollows, hnode⟩ :=
    leafBy_eq_leaf_iff.mp (reached?_descendFrom_eq_some_iff.mp hreached)
  obtain ⟨otherPlace, hotherPlace⟩ := List.mem_iff_getElem?.mp hother
  have hotherBid : tree.bids[otherPlace]? = some path.node := by
    rw [getElem?_bids, hotherPlace, Option.map_some, hnode]
  have hbid : tree.bids[place]? = some path.node := by
    rw [getElem?_bids, hplace, Option.map_some]
  have heq : otherPlace = place := place_unique hkeys hotherBid hbid
  rw [heq, hplace] at hotherPlace
  exact Option.some.inj hotherPlace ▸ hfollows

/-- Scanning the rules for the first match comes to what the descent comes to. -/
theorem find?_matchesIn {tree : RuleTree} {context : Context}
    (hdescribed : tree.IsDescribedIn context) (hanswered : tree.IsAnsweredIn context) :
    ((tree.paths.map (ruleOf [])).find? (·.matchesIn context)).map
        (fun rule ↦ (rule.name, rule.call context)) =
      (tree.descend context).ending.outcome? := by
  cases hfind : (tree.paths.map (ruleOf [])).find? (·.matchesIn context) with
  | none =>
    have hnone : ∀ path ∈ tree.paths, ¬ path.Follows context.outcomes := by
      intro path hpath hfollows
      refine List.find?_eq_none.mp hfind _ (List.mem_map_of_mem hpath) ?_
      exact (matchesIn_iff_follows hdescribed hanswered hpath).mpr hfollows
    cases hending : (tree.descend context).ending with
    | deadEnd reason => rfl
    | _ node _ =>
      have hreached : (tree.descend context).ending.reached? = some node := by
        rw [hending]
        rfl
      obtain ⟨path, hpath, hfollows, -⟩ :=
        leafBy_eq_leaf_iff.mp (reached?_descendFrom_eq_some_iff.mp hreached)
      exact absurd hfollows (hnone path hpath)
  | some rule =>
    obtain ⟨path, hpath, rfl⟩ := List.mem_map.mp (List.mem_of_find?_eq_some hfind)
    have hmatches := List.find?_some hfind
    have hending : (tree.descend context).ending = endAt context path.node :=
      ending_eq_endAt (reached?_of_matchesIn hdescribed hpath hmatches)
    rw [hending, outcome?_endAt]
    rfl

/-- The rule at a place is that of the path there, and the bid there is the end of the path. -/
theorem exists_path_of_rule {tree : RuleTree} {place : Nat} {rule : Rule}
    (h : (tree.paths.map (ruleOf []))[place]? = some rule) :
    ∃ path ∈ tree.paths, tree.paths[place]? = some path ∧ ruleOf [] path = rule ∧
      tree.bids[place]? = some path.node := by
  rw [List.getElem?_map, Option.map_eq_some_iff] at h
  obtain ⟨path, hpath, rfl⟩ := h
  refine ⟨path, List.mem_of_getElem? hpath, hpath, rfl, ?_⟩
  rw [getElem?_bids, hpath, Option.map_some]

/-- The rules of a flattened tree stand for its bids, place by place, and a rule that matches stands
for the bid that the descent reaches, so at most one does.  Unless an answer fails, that rule does
match, none matches when the descent comes to a dead end, and the first match comes to the same as
the descent. -/
theorem flatten_agrees {tree : RuleTree} {rules : List Rule} {context : Context}
    (hflatten : tree.flatten = .ok rules) (hdescribed : tree.IsDescribedIn context) :
    (tree.bids.map BidNode.key).Nodup ∧
    List.Forall₂ (fun rule node ↦ rule.name = node.name ∧ rule.call = node.call ∧
      rule.explanation = node.meaning) rules tree.bids ∧
    (∀ (place : Nat) (rule : Rule) (node : BidNode), rules[place]? = some rule →
      tree.bids[place]? = some node → rule.matchesIn context = true →
        (tree.descend context).ending.reached? = some node) ∧
    (∀ (place other : Nat) (rule otherRule : Rule), rules[place]? = some rule →
      rules[other]? = some otherRule → rule.matchesIn context = true →
        otherRule.matchesIn context = true → place = other) ∧
    (tree.IsAnsweredIn context →
      (∀ (place : Nat) (rule : Rule) (node : BidNode), rules[place]? = some rule →
        tree.bids[place]? = some node → (rule.matchesIn context = true ↔
          (tree.descend context).ending.reached? = some node)) ∧
      (∀ reason, (tree.descend context).ending = .deadEnd reason →
        ∀ rule ∈ rules, rule.matchesIn context = false) ∧
      (rules.find? (·.matchesIn context)).map (fun rule ↦ (rule.name, rule.call context)) =
        (tree.descend context).ending.outcome?) := by
  obtain ⟨rfl, hkeys⟩ := flatten_eq_ok hflatten
  refine ⟨hkeys.sublist tree.sublist_keys_bids, ?_, ?_, ?_, fun hanswered ↦ ⟨?_, ?_, ?_⟩⟩
  · rw [← map_node_paths, List.forall₂_map_left_iff, List.forall₂_map_right_iff,
      List.forall₂_same]
    exact fun path _ ↦ ⟨rfl, rfl, rfl⟩
  · intro place rule node hplace hnode hmatches
    obtain ⟨path, hpath, -, rfl, hbid⟩ := exists_path_of_rule hplace
    obtain rfl : path.node = node := Option.some.inj (hbid.symm.trans hnode)
    exact reached?_of_matchesIn hdescribed hpath hmatches
  · intro place other rule otherRule hplace hother hmatches hotherMatches
    obtain ⟨path, hpath, -, rfl, hbid⟩ := exists_path_of_rule hplace
    obtain ⟨otherPath, hotherPath, -, rfl, hotherBid⟩ := exists_path_of_rule hother
    have hreached := reached?_of_matchesIn hdescribed hpath hmatches
    have hotherReached := reached?_of_matchesIn hdescribed hotherPath hotherMatches
    have hnode : path.node = otherPath.node :=
      Option.some.inj (hreached.symm.trans hotherReached)
    exact place_unique hkeys (hnode ▸ hbid) hotherBid
  · intro place rule node hplace hnode
    obtain ⟨path, hpath, hat, rfl, hbid⟩ := exists_path_of_rule hplace
    obtain rfl : path.node = node := Option.some.inj (hbid.symm.trans hnode)
    refine ⟨reached?_of_matchesIn hdescribed hpath, fun h ↦ ?_⟩
    exact (matchesIn_iff_follows hdescribed hanswered hpath).mpr
      (follows_of_reached? hkeys hat h)
  · intro reason hreason rule hmem
    obtain ⟨path, hpath, rfl⟩ := List.mem_map.mp hmem
    by_contra hmatches
    have hreached :=
      reached?_of_matchesIn hdescribed hpath (Bool.not_eq_false _ ▸ hmatches)
    rw [hreason] at hreached
    cases hreached
  · exact find?_matchesIn hdescribed hanswered

/-- Opens one notrump on a balanced hand, and else passes. -/
def notrumpOrPass : RuleTree :=
  numbered <|
    ask "no-bids-yet" (.position .noPriorBid)
      (ask "is-balanced" (.holding .balanced)
        (say "open-1nt" (.of 1 .notrump) "Balanced")
        (say "pass" .pass "Not balanced"))
      (stop none)

theorem flatten_agrees_notrumpOrPass :
    let context := Context.ofHand .bothMajors (.empty (some .north)) .north
    notrumpOrPass.IsDescribedIn context ∧ notrumpOrPass.IsAnsweredIn context ∧
      ∃ rules, notrumpOrPass.flatten = .ok rules ∧ rules.length = 2 ∧
        (rules.find? (·.matchesIn context)).map (fun rule ↦ (rule.name, rule.call context)) =
          (notrumpOrPass.descend context).ending.outcome? := by
  intro context
  have hdescribed : notrumpOrPass.IsDescribedIn context := by
    intro condition hcondition
    rcases List.mem_cons.mp hcondition with rfl | hcondition
    · exact ⟨_, rfl⟩
    · obtain rfl := List.mem_singleton.mp hcondition
      exact ⟨_, rfl⟩
  have hanswered : notrumpOrPass.IsAnsweredIn context := by
    intro condition hcondition
    rcases List.mem_cons.mp hcondition with rfl | hcondition
    · exact ⟨_, rfl⟩
    · obtain rfl := List.mem_singleton.mp hcondition
      exact ⟨_, rfl⟩
  refine ⟨hdescribed, hanswered, _, rfl, rfl, ?_⟩
  exact ((flatten_agrees rfl hdescribed).2.2.2.2 hanswered).2.2

end RuleTree

end BridgeBidding
