import BridgeBidding.Proofs.Tree.Flattening
import BridgeBidding.Proofs.Tree.Sibling

/-!
# What an accepted tree can be used for

A tree that passes the examination has its nodes all different and its decisions in order.  So no
use of the tree stumbles over its structure: it flattens without finding a node twice, the search
for siblings succeeds, and a flat rule, which asks about the auction first, keeps the order of the
path it comes from (`RuleTree.examine_ensures`).

Flattening can fail for two more reasons, both of which lie in the inferences: a condition about the
auction must not carry one, and the opposite of a condition needs one that can be inverted.  The
second reason can come before the discovery of a node in two places
(`RuleTree.sharing_not_always_reported`).
-/

set_option autoImplicit false
set_option relaxedAutoImplicit false

namespace BridgeBidding

open Success

namespace Junction

theorem isAuction_asked (junction : Junction) :
    junction.asked.isAuction = junction.condition.isAuction := by
  unfold asked
  split_ifs
  · rfl
  · rfl

end Junction

namespace Rule

/-- A rule can be made of conditions if those about the auction carry no inference. -/
theorem make_ne_error {name : String} {auctionConditions handConditions : List Condition}
    {call : CallRule} {explanation : String} {error : ConditionError}
    (h : ∀ condition ∈ auctionConditions, condition.inference? = none) :
    make name auctionConditions handConditions call explanation ≠ .error error := by
  have hnone : (auctionConditions.findSome? fun condition ↦
      condition.inference?.map fun inference ↦ (condition.name, inference)) = none := by
    rw [List.findSome?_eq_none_iff]
    intro condition hcondition
    rw [h condition hcondition, Option.map_none]
  rw [make, hnone]
  intro hmade
  cases hmade

end Rule

namespace RuleTree

variable {tree : RuleTree} {above : List Condition} {seen : List Nat}

/-- No decision of the tree about the auction carries an inference about the hand. -/
def AuctionSilent (tree : RuleTree) : Prop :=
  ∀ condition ∈ tree.conditions, condition.isAuction = true → condition.inference? = none

/-- Every decision of the tree asks a condition that has an opposite. -/
def Opposable (tree : RuleTree) : Prop :=
  ∀ condition ∈ tree.conditions, ∃ opposite, condition.negate = .ok opposite

/-! ### The order of the conditions -/

theorem isAuction_of_handOnly {path : BidPath} (h : tree.HandOnly) (hpath : path ∈ tree.paths) :
    ∀ condition ∈ path.conditions, condition.isAuction = false := by
  intro condition hcondition
  obtain ⟨junction, hjunction, rfl⟩ := List.mem_map.mp hcondition
  rw [Junction.isAuction_asked]
  exact h _ (mem_conditions_of_mem_paths hpath junction hjunction)

theorem conditions_below (junction : Junction) (path : BidPath) :
    (path.below junction).conditions = junction.asked :: path.conditions := rfl

/-- On a path of an ordered tree the conditions about the auction come first. -/
theorem Ordered.filter_append_filter {path : BidPath} (h : tree.Ordered)
    (hpath : path ∈ tree.paths) :
    path.conditions.filter Condition.isAuction ++
      path.conditions.filter (fun condition ↦ !condition.isAuction) = path.conditions := by
  induction tree generalizing path with
  | decision key name condition yes no ihyes ihno =>
    obtain ⟨hhand, hyes, hno⟩ := h
    -- the path goes on down one of the branches, whose conditions are in order
    obtain ⟨required, rest, rfl, horder, hrest⟩ : ∃ required rest,
        path = BidPath.below ⟨key, condition, required⟩ rest ∧
        rest.conditions.filter Condition.isAuction ++
          rest.conditions.filter (fun condition ↦ !condition.isAuction) = rest.conditions ∧
        (condition.isAuction = false →
          ∀ below ∈ rest.conditions, below.isAuction = false) := by
      rcases List.mem_append.mp hpath with hpath | hpath
      · obtain ⟨rest, hrest, rfl⟩ := List.mem_map.mp hpath
        exact ⟨true, rest, rfl, ihyes hyes hrest,
          fun h ↦ isAuction_of_handOnly (hhand h).1 hrest⟩
      · obtain ⟨rest, hrest, rfl⟩ := List.mem_map.mp hpath
        exact ⟨false, rest, rfl, ihno hno hrest,
          fun h ↦ isAuction_of_handOnly (hhand h).2 hrest⟩
    have hasked := Junction.isAuction_asked ⟨key, condition, required⟩
    rw [conditions_below]
    by_cases hauction : condition.isAuction = true
    · rw [List.filter_cons_of_pos (hasked.trans hauction),
        List.filter_cons_of_neg (by simp [hasked, hauction]), List.cons_append, horder]
    · have hnone := hrest (by simpa using hauction)
      have hauctions : rest.conditions.filter Condition.isAuction = [] :=
        List.filter_eq_nil_iff.mpr fun below hbelow ↦ by simp [hnone below hbelow]
      rw [hauctions, List.nil_append] at horder
      rw [List.filter_cons_of_neg (by simp [hasked, hauction]), hauctions, List.nil_append,
        List.filter_cons_of_pos (by simp [hasked, hauction]), horder]
  | bid key name call meaning =>
    obtain rfl := List.mem_singleton.mp hpath
    rfl
  | deadEnd key reason => cases hpath

/-! ### Why flattening fails -/

theorem not_nodup_of_seen {key : Nat} {keys : List Nat}
    (hmem : key ∈ keys) (hseen : seen.contains key = true) : ¬ (keys.reverse ++ seen).Nodup := by
  intro hnodup
  refine List.disjoint_of_nodup_append hnodup (List.mem_reverse.mpr hmem) ?_
  exact List.contains_iff_mem.mp hseen

/-- Flattening finds fault with the tree itself only when it meets a node again. -/
theorem not_nodup_of_flattenFrom_eq_error {error : TreeError}
    (h : tree.flattenFrom above seen = .error (.tree error)) :
    (∃ name, error = .sharedNode name) ∧ ¬ (tree.keys.reverse ++ seen).Nodup := by
  induction tree generalizing above seen with
  | decision key name condition yes no ihyes ihno =>
    rw [flattenFrom] at h
    split_ifs at h with hseen
    · cases h
      exact ⟨⟨_, rfl⟩, not_nodup_of_seen List.mem_cons_self hseen⟩
    · rw [reverse_keys_decision_append]
      rcases bind_eq_error_iff.mp h with hyes | ⟨⟨yesRules, yesSeen⟩, hyes, h⟩
      · obtain ⟨hname, hnodup⟩ := ihyes hyes
        exact ⟨hname, fun hall ↦ hnodup hall.of_append_right⟩
      · obtain ⟨-, rfl⟩ := Prod.mk.inj (flattenFrom_eq_ok hyes).1
        rcases bind_eq_error_iff.mp h with hopposite | ⟨opposite, -, h⟩
        · obtain ⟨inner, -, hinner⟩ := mapError_eq_error_iff.mp hopposite
          cases hinner
        · rcases bind_eq_error_iff.mp h with hno | ⟨noResult, -, h⟩
          · exact ihno hno
          · cases h
  | bid key name call meaning =>
    rw [flattenFrom] at h
    split_ifs at h with hseen
    · cases h
      exact ⟨⟨_, rfl⟩, not_nodup_of_seen List.mem_cons_self hseen⟩
    · rcases bind_eq_error_iff.mp h with hrule | ⟨rule, -, h⟩
      · obtain ⟨inner, -, hinner⟩ := mapError_eq_error_iff.mp hrule
        cases hinner
      · cases h
  | deadEnd key reason =>
    rw [flattenFrom] at h
    split_ifs at h with hseen
    cases h
    exact ⟨⟨_, rfl⟩, not_nodup_of_seen List.mem_cons_self hseen⟩

/-- Flattening takes the opposite of every condition. -/
theorem opposable_of_flattenFrom_eq_ok {result : List Rule × List Nat}
    (h : tree.flattenFrom above seen = .ok result) : tree.Opposable := by
  induction tree generalizing above seen result with
  | decision key name condition yes no ihyes ihno =>
    rw [flattenFrom] at h
    split_ifs at h
    obtain ⟨yesResult, hyes, h⟩ := bind_eq_ok_iff.mp h
    obtain ⟨opposite, hopposite, h⟩ := bind_eq_ok_iff.mp h
    obtain ⟨noResult, hno, -⟩ := bind_eq_ok_iff.mp h
    refine List.forall_mem_cons.mpr ⟨⟨opposite, mapError_eq_ok_iff.mp hopposite⟩, ?_⟩
    exact List.forall_mem_append.mpr ⟨ihyes hyes, ihno hno⟩
  | _ => exact fun condition hcondition ↦ absurd hcondition List.not_mem_nil

/-- If conditions about the auction carry no inference, flattening finds fault with a condition only
when it has no opposite. -/
theorem not_opposable_of_flattenFrom_eq_error {error : ConditionError}
    (hsilent : tree.AuctionSilent)
    (habove : ∀ condition ∈ above, condition.isAuction = true → condition.inference? = none)
    (h : tree.flattenFrom above seen = .error (.condition error)) :
    ∃ condition ∈ tree.conditions, ∃ inner, condition.negate = .error inner := by
  induction tree generalizing above seen with
  | decision key name condition yes no ihyes ihno =>
    obtain ⟨hcondition, hbranches⟩ := List.forall_mem_cons.mp hsilent
    obtain ⟨hyesSilent, hnoSilent⟩ := List.forall_mem_append.mp hbranches
    rw [flattenFrom] at h
    split_ifs at h with hseen
    · cases h
    · rcases bind_eq_error_iff.mp h with hyes | ⟨⟨yesRules, yesSeen⟩, hyes, h⟩
      · obtain ⟨found, hfound, herror⟩ := ihyes hyesSilent
          (List.forall_mem_append.mpr ⟨habove, List.forall_mem_singleton.mpr hcondition⟩) hyes
        exact ⟨found, List.mem_cons_of_mem _ (List.mem_append_left _ hfound), herror⟩
      · rcases bind_eq_error_iff.mp h with hopposite | ⟨opposite, hopposite, h⟩
        · obtain ⟨inner, hinner, -⟩ := mapError_eq_error_iff.mp hopposite
          exact ⟨condition, List.mem_cons_self, inner, hinner⟩
        · obtain rfl := negate_eq_ok (mapError_eq_ok_iff.mp hopposite)
          rcases bind_eq_error_iff.mp h with hno | ⟨noResult, -, h⟩
          · obtain ⟨found, hfound, herror⟩ := ihno hnoSilent
              (List.forall_mem_append.mpr ⟨habove, List.forall_mem_singleton.mpr
                fun hauction ↦ inference?_negation (hcondition hauction)⟩) hno
            exact ⟨found, List.mem_cons_of_mem _ (List.mem_append_right _ hfound), herror⟩
          · cases h
  | bid key name call meaning =>
    rw [flattenFrom] at h
    split_ifs at h with hseen
    · cases h
    · rcases bind_eq_error_iff.mp h with hrule | ⟨rule, -, h⟩
      · obtain ⟨inner, hinner, -⟩ := mapError_eq_error_iff.mp hrule
        refine absurd hinner (Rule.make_ne_error fun condition hcondition ↦ ?_)
        obtain ⟨hmem, hauction⟩ := List.mem_filter.mp hcondition
        exact habove condition hmem hauction
      · cases h
  | deadEnd key reason =>
    rw [flattenFrom] at h
    split_ifs at h with hseen
    cases h

theorem flatten_eq_error_iff {error : FlattenError} :
    tree.flatten = .error error ↔ tree.flattenFrom [] [] = .error error := by
  rw [flatten, bind_eq_error_iff]
  refine ⟨fun h ↦ h.resolve_right ?_, Or.inl⟩
  rintro ⟨value, -, h⟩
  cases h

theorem opposable_of_flatten_eq_ok {rules : List Rule} (h : tree.flatten = .ok rules) :
    tree.Opposable := by
  obtain ⟨result, hresult, -⟩ := bind_eq_ok_iff.mp h
  exact opposable_of_flattenFrom_eq_ok hresult

theorem not_nodup_of_flatten_eq_error {error : TreeError}
    (h : tree.flatten = .error (.tree error)) :
    (∃ name, error = .sharedNode name) ∧ ¬ tree.keys.Nodup := by
  simpa using not_nodup_of_flattenFrom_eq_error (flatten_eq_error_iff.mp h)

theorem not_opposable_of_flatten_eq_error {error : ConditionError} (hsilent : tree.AuctionSilent)
    (h : tree.flatten = .error (.condition error)) :
    ∃ condition ∈ tree.conditions, ∃ inner, condition.negate = .error inner :=
  not_opposable_of_flattenFrom_eq_error hsilent (by simp) (flatten_eq_error_iff.mp h)

/-- If conditions about the auction carry no inference, flattening fails exactly for a node in two
places or a condition without an opposite. -/
theorem flatten_fails_iff (hsilent : tree.AuctionSilent) :
    (∃ error, tree.flatten = .error error) ↔
      ¬ tree.keys.Nodup ∨
        ∃ condition ∈ tree.conditions, ∃ error, condition.negate = .error error := by
  constructor
  · rintro ⟨error | error, h⟩
    · exact Or.inl (not_nodup_of_flatten_eq_error h).2
    · exact Or.inr (not_opposable_of_flatten_eq_error hsilent h)
  · intro h
    cases hflatten : tree.flatten with
    | error error => exact ⟨error, rfl⟩
    | ok rules =>
      rcases h with hshared | ⟨condition, hcondition, error, herror⟩
      · exact absurd (flatten_eq_ok hflatten).2 hshared
      · obtain ⟨opposite, hopposite⟩ := opposable_of_flatten_eq_ok hflatten condition hcondition
        rw [herror] at hopposite
        cases hopposite

theorem Opposable.not_exists_negate_eq_error (h : tree.Opposable) :
    ¬ ∃ condition ∈ tree.conditions, ∃ error, condition.negate = .error error := by
  rintro ⟨condition, hcondition, error, herror⟩
  obtain ⟨opposite, hopposite⟩ := h condition hcondition
  rw [herror] at hopposite
  cases hopposite

/-- If also all conditions have opposites, flattening reports a node in two places exactly when
there is one. -/
theorem flatten_shares_iff (hsilent : tree.AuctionSilent) (hopposable : tree.Opposable) :
    (∃ name, tree.flatten = .error (.tree (.sharedNode name))) ↔ ¬ tree.keys.Nodup := by
  refine ⟨fun ⟨name, h⟩ ↦ (not_nodup_of_flatten_eq_error h).2, fun hshared ↦ ?_⟩
  obtain ⟨error | error, h⟩ := (flatten_fails_iff hsilent).mpr (Or.inl hshared)
  · obtain ⟨⟨name, rfl⟩, -⟩ := not_nodup_of_flatten_eq_error h
    exact ⟨name, h⟩
  · exact absurd (not_opposable_of_flatten_eq_error hsilent h) hopposable.not_exists_negate_eq_error

/-- The search for siblings succeeds in an ordered tree, whichever node is left out. -/
theorem Ordered.exists_siblings (h : tree.Ordered) (context : Context) (matched? : Option Nat) :
    ∃ found, tree.siblings context matched? = .ok found := by
  have hhand := @Ordered.handOnly_handRoot context tree h
  rw [siblings]
  cases hroot : tree.handRoot context with
  | decision key name condition yes no =>
    rw [hroot] at hhand
    exact ⟨_, siblingsFrom_eq hhand⟩
  | bid key name call meaning => exact ⟨[], rfl⟩
  | deadEnd key reason => exact ⟨[], rfl⟩

/-! ### What acceptance ensures -/

/-- The examination accepts exactly the trees whose nodes are all different and in which no decision
about the auction lies below one about the hand.  Then flattening finds no fault with the tree, the
search for siblings succeeds in every context, and every flat rule asks the conditions of its path
in their order.

Where decisions about the auction carry no inference, flattening fails exactly when a node stands in
two places or a condition has no opposite, and it finds a node in two places only if there is one.
If all conditions have opposites, it finds one exactly then, and does not fail otherwise. -/
theorem examine_ensures (tree : RuleTree) :
    (tree.examine = .ok () ↔ tree.keys.Nodup ∧ tree.Ordered) ∧
    (tree.examine = .ok () →
      (∀ error, tree.flatten ≠ .error (.tree error)) ∧
      (∀ context matched?, ∃ found, tree.siblings context matched? = .ok found) ∧
      ∀ rules, tree.flatten = .ok rules →
        List.Forall₂ (fun rule path ↦
          rule.auctionConditions ++ rule.handConditions = path.conditions) rules tree.paths) ∧
    (tree.AuctionSilent →
      ((∃ error, tree.flatten = .error error) ↔
        ¬ tree.keys.Nodup ∨
          ∃ condition ∈ tree.conditions, ∃ error, condition.negate = .error error) ∧
      (∀ error, tree.flatten = .error (.tree error) →
        (∃ name, error = .sharedNode name) ∧ ¬ tree.keys.Nodup) ∧
      (tree.Opposable →
        ((∃ error, tree.flatten = .error error) ↔ ¬ tree.keys.Nodup) ∧
        ((∃ name, tree.flatten = .error (.tree (.sharedNode name))) ↔ ¬ tree.keys.Nodup))) := by
  refine ⟨examine_eq_ok_iff, fun hexamine ↦ ?_, fun hsilent ↦ ?_⟩
  · obtain ⟨hkeys, hordered⟩ := examine_eq_ok_iff.mp hexamine
    refine ⟨fun error h ↦ ?_, hordered.exists_siblings, fun rules hrules ↦ ?_⟩
    · exact (not_nodup_of_flatten_eq_error h).2 hkeys
    · obtain ⟨rfl, -⟩ := flatten_eq_ok hrules
      rw [List.forall₂_map_left_iff, List.forall₂_same]
      intro path hpath
      exact hordered.filter_append_filter hpath
  · refine ⟨flatten_fails_iff hsilent, fun error ↦ not_nodup_of_flatten_eq_error,
      fun hopposable ↦ ⟨?_, flatten_shares_iff hsilent hopposable⟩⟩
    rw [flatten_fails_iff hsilent, or_iff_left hopposable.not_exists_negate_eq_error]

/-- One notrump on a balanced hand, and the very same bid on others. -/
def notrumpAnyway : RuleTree :=
  decision 0 "is-balanced" (.holding .balanced)
    (bid 1 "open-1nt" (CallRule.fixed (.of 1 .notrump)) "Balanced or not")
    (bid 1 "open-1nt" (CallRule.fixed (.of 1 .notrump)) "Balanced or not")

theorem examine_ensures_notrumpOrPass :
    (notrumpOrPass.examine = .ok () ∧
      ∃ rules, notrumpOrPass.flatten = .ok rules ∧
        List.Forall₂ (fun rule path ↦
          rule.auctionConditions ++ rule.handConditions = path.conditions)
          rules notrumpOrPass.paths) ∧
    notrumpAnyway.AuctionSilent ∧ notrumpAnyway.Opposable ∧ ¬ notrumpAnyway.keys.Nodup ∧
      ∃ name, notrumpAnyway.flatten = .error (.tree (.sharedNode name)) := by
  have haccepted := ((examine_ensures notrumpOrPass).2.1 rfl).2.2
  have hsilent : notrumpAnyway.AuctionSilent := by
    refine List.forall_mem_singleton.mpr fun hauction ↦ ?_
    cases hauction
  have hopposable : notrumpAnyway.Opposable := List.forall_mem_singleton.mpr ⟨_, rfl⟩
  have hshared : ¬ notrumpAnyway.keys.Nodup := by decide
  refine ⟨⟨rfl, _, rfl, haccepted _ rfl⟩, hsilent, hopposable, hshared, ?_⟩
  exact (((examine_ensures notrumpAnyway).2.2 hsilent).2.2 hopposable).2.mpr hshared

/-- A condition that holds of every hand, and whose inference lacks the bound that it speaks of. -/
def boundless : Condition :=
  .custom (.fixed "points" .hand true (some { kind := "hcp-min", parameters := [] }))

/-- Flattening does not always report a node in two places, and does not only fail for one, even if
no condition about the auction carries an inference: an inference that cannot be inverted makes it
fail first. -/
theorem sharing_not_always_reported :
    (¬ ∀ tree : RuleTree, tree.AuctionSilent →
      ((∃ name, tree.flatten = .error (.tree (.sharedNode name))) ↔ ¬ tree.keys.Nodup)) ∧
    ¬ ∀ tree : RuleTree, tree.AuctionSilent →
      ((∃ error, tree.flatten = .error error) ↔ ¬ tree.keys.Nodup) := by
  have hsilent (name : String) (yes no : BidNode) :
      (decision 0 name boundless yes.leaf no.leaf).AuctionSilent := by
    refine List.forall_mem_singleton.mpr fun hauction ↦ ?_
    cases hauction
  let first : BidNode := ⟨1, "open-1c", CallRule.fixed (.of 1 .clubs), "Any hand"⟩
  let second : BidNode := ⟨2, "pass", CallRule.fixed .pass, "No hand"⟩
  constructor
  · intro hall
    obtain ⟨name, h⟩ := (hall _ (hsilent "has-points" first first)).mpr (by decide)
    cases h
  · intro hall
    exact (hall _ (hsilent "has-points" first second)).mp ⟨_, rfl⟩ (by decide)

end RuleTree

end BridgeBidding
