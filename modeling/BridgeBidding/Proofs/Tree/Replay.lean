import BridgeBidding.Proofs.Trainer.Grading
import BridgeBidding.Proofs.Tree.Sibling

/-!
# What the record of a descent tells

The answers recorded on a descent lead again through the decisions that were recorded, to the leaf
that decides what came of it (`RuleTree.replay_descendFrom`, `RuleTree.decides_leafBy`).  The
branches that were not taken hold every bid of the tree but the one at that leaf
(`RuleTree.bids_eq_leaf_iff`), so there is no fork point only if there is no other bid, and the fork
point is the last decision with such a branch.  If there are siblings, one of these branches starts
below the decisions about the auction, and so does that of the fork point
(`RuleTree.descend_replays`).
-/

set_option autoImplicit false
set_option relaxedAutoImplicit false

namespace BridgeBidding

/-! ### Fork points -/

namespace Descent

variable {descent : Descent} {step : Step} {fork : ForkPoint}

theorem forkAt?_eq_none_iff : forkAt? step = none ↔ step.untaken.bids = [] := by
  unfold forkAt?
  cases step.untaken.bids <;> simp

theorem forkAt?_eq_some_iff :
    forkAt? step = some fork ↔
      fork.step = step ∧ step.untaken.bids ≠ [] ∧
        fork.alternatives = step.untaken.bids.map BidNode.name := by
  obtain ⟨other, alternatives⟩ := fork
  unfold forkAt?
  cases step.untaken.bids with
  | nil => simp
  | cons node rest => simp [eq_comm]

/-- There is no fork point exactly if no branch that was not taken holds a bid. -/
theorem forkPoint?_eq_none_iff :
    descent.forkPoint? = none ↔ ∀ step ∈ descent.steps, step.untaken.bids = [] := by
  simp only [forkPoint?, List.findSome?_eq_none_iff, List.mem_reverse, forkAt?_eq_none_iff]

/-- The fork point is at the last decision whose other branch holds bids, and names them all. -/
theorem forkPoint?_eq_some_iff :
    descent.forkPoint? = some fork ↔
      ∃ earlier later, descent.steps = earlier ++ fork.step :: later ∧
        fork.step.untaken.bids ≠ [] ∧ (∀ step ∈ later, step.untaken.bids = []) ∧
        fork.alternatives = fork.step.untaken.bids.map BidNode.name := by
  rw [forkPoint?, List.findSome?_eq_some_iff]
  constructor
  · rintro ⟨later, step, earlier, hsteps, hfork, hlater⟩
    obtain ⟨rfl, hbids, hnames⟩ := forkAt?_eq_some_iff.mp hfork
    refine ⟨earlier.reverse, later.reverse, ?_, hbids, fun step hstep ↦ ?_, hnames⟩
    · rw [← descent.steps.reverse_reverse, hsteps]
      simp
    · exact forkAt?_eq_none_iff.mp (hlater step (List.mem_reverse.mp hstep))
  · rintro ⟨earlier, later, hsteps, hbids, hlater, hnames⟩
    refine ⟨later.reverse, fork.step, earlier.reverse, ?_,
      forkAt?_eq_some_iff.mpr ⟨rfl, hbids, hnames⟩, fun step hstep ↦ ?_⟩
    · rw [hsteps]
      simp
    · exact forkAt?_eq_none_iff.mpr (hlater step (List.mem_reverse.mp hstep))

/-- Decisions before one that has a fork point do not matter. -/
theorem forkPoint?_of_append {below : Descent} {earlier : List Step}
    (hsteps : descent.steps = earlier ++ below.steps) (h : below.forkPoint? = some fork) :
    descent.forkPoint? = some fork := by
  rw [forkPoint?] at h ⊢
  rw [hsteps, List.reverse_append, List.findSome?_append, h]
  rfl

end Descent

namespace RuleTree

variable {context : Context} {tree : RuleTree} {depth : Nat} {parent? : Option String}

/-! ### Going down again -/

/-- The way down from the root by given answers, the yes branch for one that passed: the decisions
on it, and the node at which it ends. -/
def replay : RuleTree → List Bool → List RuleTree × RuleTree
  | decision key name condition yes no, passed :: rest =>
    let below := if passed then yes.replay rest else no.replay rest
    (decision key name condition yes no :: below.1, below.2)
  | tree, _ => ([], tree)

/-- The recorded answers lead through the recorded decisions, to the leaf that the verdicts lead
to. -/
theorem replay_descendFrom (context : Context) (tree : RuleTree) (depth : Nat)
    (parent? : Option String) :
    tree.replay ((tree.descendFrom context depth parent?).steps.map Step.passed) =
      ((tree.descendFrom context depth parent?).steps.map Step.node,
        tree.leafBy context.outcomes) := by
  induction tree generalizing depth parent? with
  | decision key name condition yes no ihyes ihno =>
    rw [descendFrom, leafBy, Context.outcomes]
    cases hpassed : (condition.verdict context).passed with
    | true => simp [replay, Step.passed, Step.node, hpassed, ihyes]
    | false => simp [replay, Step.passed, Step.node, hpassed, ihno]
  | bid key name call meaning => rfl
  | deadEnd key reason => rfl

/-- What is reported at a leaf: a bid is matched with its call, if it could be worked out; if that
failed, no bid is matched, and the reason names the bid and the failure; and at a dead end the
reason is the one given there. -/
inductive Decides (context : Context) :
    RuleTree → Option BidNode → Option Call → Option String → Prop
  | matched {node : BidNode} {call : Call} (hcall : node.call context = .ok call) :
      Decides context node.leaf (some node) (some call) none
  | failed {node : BidNode} {failure : Failure} (hcall : node.call context = .error failure) :
      Decides context node.leaf none none
        (some ("Bid '" ++ node.name ++ "' failed: " ++ failure.message))
  | deadEnd (key : Nat) (reason : Option String) :
      Decides context (.deadEnd key reason) none none reason

/-- The leaf that the verdicts lead to decides the ending of a descent. -/
theorem decides_leafBy (context : Context) (tree : RuleTree) (depth : Nat)
    (parent? : Option String) :
    let ending := (tree.descendFrom context depth parent?).ending
    Decides context (tree.leafBy context.outcomes) ending.node? ending.call? ending.reason? := by
  induction tree generalizing depth parent? with
  | decision key name condition yes no ihyes ihno =>
    rw [descendFrom, leafBy, Context.outcomes]
    cases hpassed : (condition.verdict context).passed with
    | true => exact ihyes _ _
    | false => exact ihno _ _
  | bid key name call meaning =>
    simp only [descendFrom, leafBy, endAt]
    cases hcall : call context with
    | ok made => exact @Decides.matched context ⟨key, name, call, meaning⟩ made hcall
    | error failure => exact @Decides.failed context ⟨key, name, call, meaning⟩ failure hcall
  | deadEnd key reason => exact .deadEnd key reason

/-! ### Places of the steps -/

theorem head?_descendFrom {step : Step}
    (h : (tree.descendFrom context depth parent?).steps.head? = some step) :
    step.depth = depth ∧ step.parent? = parent? := by
  cases tree with
  | decision key name condition yes no =>
    rw [descendFrom, List.head?_cons] at h
    obtain rfl := Option.some.inj h
    exact ⟨rfl, rfl⟩
  | _ => cases h

/-- A step after another is one deeper, and below it. -/
theorem next_of_descendFrom {earlier later : List Step} {step next : Step}
    (h : (tree.descendFrom context depth parent?).steps = earlier ++ step :: next :: later) :
    next.depth = step.depth + 1 ∧ next.parent? = some step.name := by
  obtain ⟨-, -, hbelow⟩ := descendFrom_at_step h
  exact head?_descendFrom (by rw [hbelow]; rfl)

/-- A step stands at the place that its depth tells, below the step before it. -/
theorem place_descend {place : Nat} {step : Step}
    (h : (tree.descend context).steps[place]? = some step) :
    step.depth = place ∧ step.parent? =
      if place = 0 then none else (tree.descend context).steps[place - 1]?.map Step.name := by
  induction place generalizing step with
  | zero => exact head?_descendFrom (List.head?_eq_getElem?.trans h)
  | succ place ih =>
    obtain ⟨hplace, rfl⟩ := List.getElem?_eq_some_iff.mp h
    have hbefore := List.getElem?_eq_getElem (Nat.lt_of_succ_lt hplace)
    have hsplit := (List.take_append_drop place (tree.descend context).steps).symm
    rw [List.drop_eq_getElem_cons (Nat.lt_of_succ_lt hplace), List.drop_eq_getElem_cons hplace]
      at hsplit
    obtain ⟨hdepth, hparent⟩ := next_of_descendFrom hsplit
    rw [(ih hbefore).1] at hdepth
    refine ⟨hdepth, hparent.trans ?_⟩
    rw [if_neg place.succ_ne_zero, Nat.add_sub_cancel, hbefore, Option.map_some]

/-- A step whose condition failed has not passed. -/
theorem passed_eq_false_of_failure? {step : Step} (h : step ∈ (tree.descend context).steps)
    (hfailure : step.verdict.failure?.isSome) : step.passed = false := by
  rw [verdict_of_mem_steps h] at hfailure
  by_contra hpassed
  rw [Step.passed, verdict_of_mem_steps h, Bool.not_eq_false, Condition.passed_iff] at hpassed
  have hnone := Condition.failure?_verdict_eq_none_iff.mpr ⟨⟨true, hpassed.1⟩, hpassed.2⟩
  rw [hnone] at hfailure
  cases hfailure

/-! ### Branches that are not taken -/

/-- The bid at the leaf that outcomes lead to is one of the tree's. -/
theorem sublist_bids_leafBy (outcomes : Outcomes) (tree : RuleTree) :
    (tree.leafBy outcomes).bids.Sublist tree.bids := by
  induction tree with
  | decision key name condition yes no ihyes ihno =>
    rw [leafBy, bids]
    split
    · exact ihyes.trans (List.sublist_append_left _ _)
    · exact ihno.trans (List.sublist_append_right _ _)
  | _ => exact List.Sublist.refl _

/-- The bids of the tree are that of the leaf and those of the branches that were not taken. -/
theorem bids_perm (context : Context) (tree : RuleTree) (depth : Nat) (parent? : Option String) :
    tree.bids.Perm ((tree.leafBy context.outcomes).bids ++
      (tree.descendFrom context depth parent?).steps.flatMap fun step ↦ step.untaken.bids) := by
  induction tree generalizing depth parent? with
  | decision key name condition yes no ihyes ihno =>
    rw [descendFrom, leafBy, Context.outcomes, bids, List.flatMap_cons]
    cases hpassed : (condition.verdict context).passed with
    | true =>
      refine ((ihyes (depth + 1) (some name)).append_right no.bids).trans ?_
      rw [List.append_assoc]
      exact List.perm_append_comm.append_left _
    | false =>
      refine ((ihno (depth + 1) (some name)).append_left yes.bids).trans ?_
      exact List.perm_append_comm_assoc _ _ _
  | bid key name call meaning => exact List.Perm.refl _
  | deadEnd key reason => exact List.Perm.refl _

/-- The tree has no bid but that of the leaf exactly if no branch that was not taken holds one. -/
theorem bids_eq_leaf_iff (context : Context) (tree : RuleTree) (depth : Nat)
    (parent? : Option String) :
    tree.bids = (tree.leafBy context.outcomes).bids ↔
      ∀ step ∈ (tree.descendFrom context depth parent?).steps, step.untaken.bids = [] := by
  have hlength := (bids_perm context tree depth parent?).length_eq
  rw [List.length_append] at hlength
  rw [← List.flatMap_eq_nil_iff]
  constructor
  · intro h
    rw [h] at hlength
    exact List.eq_nil_of_length_eq_zero (by omega)
  · intro h
    rw [h, List.length_nil, Nat.add_zero] at hlength
    exact ((sublist_bids_leafBy context.outcomes tree).eq_of_length hlength.symm).symm

theorem mem_bids_of_mem_paths {path : BidPath} (h : path ∈ tree.paths) : path.node ∈ tree.bids := by
  rw [← map_node_paths]
  exact List.mem_map_of_mem h

/-- A path that the verdicts do not follow leads on in a branch that was not taken. -/
theorem exists_untaken_of_not_follows {path : BidPath} (hpath : path ∈ tree.paths)
    (hfollows : ¬path.Follows context.outcomes) (depth : Nat) (parent? : Option String) :
    ∃ step ∈ (tree.descendFrom context depth parent?).steps, path.node ∈ step.untaken.bids := by
  induction tree generalizing depth parent? path with
  | decision key name condition yes no ihyes ihno =>
    rw [descendFrom]
    rcases List.mem_append.mp hpath with hpath | hpath
    all_goals
      obtain ⟨rest, hrest, rfl⟩ := List.mem_map.mp hpath
      rw [BidPath.follows_below_iff, not_and] at hfollows
      cases hpassed : (condition.verdict context).passed
    case inl.true =>
      obtain ⟨step, hstep, hnode⟩ := ihyes hrest (hfollows hpassed) (depth + 1) (some name)
      exact ⟨step, List.mem_cons_of_mem _ hstep, hnode⟩
    case inr.false =>
      obtain ⟨step, hstep, hnode⟩ := ihno hrest (hfollows hpassed) (depth + 1) (some name)
      exact ⟨step, List.mem_cons_of_mem _ hstep, hnode⟩
    all_goals
      have hnode := mem_bids_of_mem_paths hrest
      exact ⟨_, List.mem_cons_self, hnode⟩
  | bid key name call meaning =>
    obtain rfl := List.mem_singleton.mp hpath
    exact absurd (List.forall_mem_nil _) hfollows
  | deadEnd key reason => cases hpath

/-! ### Below the decisions about the auction -/

/-- The last steps of a descent are those from the node where the decisions about the auction
end. -/
theorem exists_steps_handRoot (context : Context) (tree : RuleTree) (depth : Nat)
    (parent? : Option String) :
    ∃ earlier below above?, (tree.descendFrom context depth parent?).steps =
      earlier ++ ((tree.handRoot context).descendFrom context below above?).steps := by
  induction tree generalizing depth parent? with
  | decision key name condition yes no ihyes ihno =>
    rw [handRoot]
    split_ifs with hauction hpassed
    · obtain ⟨earlier, below, above?, hsteps⟩ := ihyes (depth + 1) (some name)
      exact ⟨_ :: earlier, below, above?, by
        rw [descendFrom, List.cons_append, ← hsteps]; simp only [hpassed, if_true]; rfl⟩
    · obtain ⟨earlier, below, above?, hsteps⟩ := ihno (depth + 1) (some name)
      exact ⟨_ :: earlier, below, above?, by
        rw [descendFrom, List.cons_append, ← hsteps]; simp only [hpassed]; rfl⟩
    · exact ⟨[], depth, parent?, rfl⟩
  | _ => exact ⟨[], depth, parent?, rfl⟩

/-- If there are siblings, the fork point is at a decision about the hand. -/
theorem exists_forkPoint?_of_siblings {found : List Sibling} (hexamine : tree.examine = .ok ())
    (hsiblings : tree.siblings context ((tree.descend context).ending.node?.map BidNode.key) =
      .ok found) (hfound : found ≠ []) :
    ∃ fork, (tree.descend context).forkPoint? = some fork ∧
      fork.step.node ∈ (tree.handRoot context).nodes := by
  obtain ⟨hkeys, hordered⟩ := examine_eq_ok_iff.mp hexamine
  rw [siblings_eq hkeys hordered rfl] at hsiblings
  obtain rfl := Except.ok.inj hsiblings
  -- a sibling stands at the end of a path that the verdicts do not follow
  obtain ⟨sibling, hsibling⟩ := List.exists_mem_of_ne_nil _ hfound
  obtain ⟨path, hpath, hmade⟩ := List.mem_filterMap.mp hsibling
  have hcompetes : path.competes context
      ((tree.descend context).ending.node?.map BidNode.key) = true := by
    by_contra hcompetes
    rw [BidPath.sibling?_eq_none_of_not_competes (Bool.not_eq_true _ ▸ hcompetes)] at hmade
    cases hmade
  have hfollows : ¬path.Follows context.outcomes := fun h ↦
    differing_ne_nil_of_competes hkeys rfl hpath hcompetes (BidPath.differing_eq_nil_iff.mpr h)
  obtain ⟨earlier, below, above?, hsteps⟩ := exists_steps_handRoot context tree 0 none
  obtain ⟨step, hstep, hnode⟩ := exists_untaken_of_not_follows hpath hfollows below above?
  -- so the descent has a fork point already below the decisions about the auction
  have hfork : ((tree.handRoot context).descendFrom context below above?).forkPoint? ≠ none := by
    rw [Ne, Descent.forkPoint?_eq_none_iff]
    intro hnone
    rw [hnone step hstep] at hnode
    cases hnode
  obtain ⟨fork, hfork⟩ := Option.ne_none_iff_exists'.mp hfork
  obtain ⟨before, after, hsplit, -⟩ := Descent.forkPoint?_eq_some_iff.mp hfork
  exact ⟨fork, Descent.forkPoint?_of_append hsteps hfork, (descendFrom_at_step hsplit).1⟩

/-- The steps of a descent are one below the other, and their answers lead from the root through
their decisions to the leaf that decides the ending.  A decision that failed has not passed.  The
branches that were not taken hold the other bids of the tree: there is no fork point exactly if
there is no other bid, and the fork point is the last decision with bids in the other branch and
names these in order.  In a tree that passes the examination it is a decision about the hand if
there are siblings. -/
theorem descend_replays (tree : RuleTree) (context : Context) :
    let descent := tree.descend context
    (∀ place step, descent.steps[place]? = some step → step.depth = place ∧
      step.parent? = if place = 0 then none else descent.steps[place - 1]?.map Step.name) ∧
    (∀ step ∈ descent.steps, step.verdict.failure?.isSome → step.passed = false) ∧
    (∃ leaf,
      tree.replay (descent.steps.map Step.passed) = (descent.steps.map Step.node, leaf) ∧
      Decides context leaf descent.ending.node? descent.ending.call? descent.ending.reason? ∧
      tree.bids.Perm (leaf.bids ++ descent.steps.flatMap fun step ↦ step.untaken.bids) ∧
      (descent.forkPoint? = none ↔ tree.bids = leaf.bids)) ∧
    (∀ fork, descent.forkPoint? = some fork ↔
      ∃ earlier later, descent.steps = earlier ++ fork.step :: later ∧
        fork.step.untaken.bids ≠ [] ∧ (∀ step ∈ later, step.untaken.bids = []) ∧
        fork.alternatives = fork.step.untaken.bids.map BidNode.name) ∧
    (tree.examine = .ok () → ∀ found,
      tree.siblings context (descent.ending.node?.map BidNode.key) = .ok found → found ≠ [] →
        ∃ fork, descent.forkPoint? = some fork ∧
          fork.step.node ∈ (tree.handRoot context).nodes) := by
  intro descent
  refine ⟨?_, ?_, ⟨tree.leafBy context.outcomes, ?_, ?_, ?_, ?_⟩, ?_, ?_⟩
  · exact fun place step ↦ place_descend
  · exact fun step ↦ passed_eq_false_of_failure?
  · exact replay_descendFrom context tree 0 none
  · exact decides_leafBy context tree 0 none
  · exact bids_perm context tree 0 none
  · exact Descent.forkPoint?_eq_none_iff.trans (bids_eq_leaf_iff context tree 0 none).symm
  · exact fun fork ↦ Descent.forkPoint?_eq_some_iff
  · exact fun hexamine found ↦ exists_forkPoint?_of_siblings hexamine

/-- On a hand that is not balanced the last decision asks a question that has no answer, and the bid
of two clubs stands in its other branch. -/
theorem descend_replays_notrumpOrUnsettled :
    let context := Context.ofHand .bothMajors (.empty (some .north)) .north
    let descent := notrumpOrUnsettled.descend context
    notrumpOrUnsettled.examine = .ok () ∧
      (∃ leaf, notrumpOrUnsettled.replay [true, false, false] =
          (descent.steps.map Step.node, leaf) ∧ notrumpOrUnsettled.bids ≠ leaf.bids) ∧
      ∃ step, descent.forkPoint? = some ⟨step, ["open-2c"]⟩ ∧ step.passed = false ∧
        step.depth = 2 ∧ step.parent? = some "is-balanced" ∧
        step.node ∈ (notrumpOrUnsettled.handRoot context).nodes := by
  intro context descent
  have hexamine : notrumpOrUnsettled.examine = .ok () := rfl
  obtain ⟨hplaces, hfailed, ⟨leaf, hreplay, -, -, hnone⟩, -, hsiblings⟩ :=
    descend_replays notrumpOrUnsettled context
  have hfork : ∃ step, descent.steps[2]? = some step ∧ step.verdict.failure?.isSome ∧
      descent.forkPoint? = some ⟨step, ["open-2c"]⟩ := ⟨_, rfl, rfl, rfl⟩
  obtain ⟨step, hstep, hfailure, hfork⟩ := hfork
  obtain ⟨hdepth, hparent⟩ := hplaces 2 step hstep
  obtain ⟨found, hfound, hnode⟩ := hsiblings hexamine _ rfl nofun
  obtain rfl := Option.some.inj (hfound.symm.trans hfork)
  refine ⟨hexamine, ⟨leaf, hreplay, mt hnone.mpr ?_⟩, step, hfork,
    hfailed step (List.mem_of_getElem? hstep) hfailure, hdepth, hparent, hnode⟩
  rw [hfound]
  exact nofun

end RuleTree

end BridgeBidding
