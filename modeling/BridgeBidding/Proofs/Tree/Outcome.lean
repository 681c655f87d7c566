import BridgeBidding.Proofs.Tree.Path

/-!
# What a tree comes to

What a descent comes to is the name of the bid reached and what became of its call.  It can be read
off a tree node by node (`RuleTree.outcome?`), and the keys of the nodes have no part in it, so the
outline of a tree comes to the same as the tree (`RuleTree.outcome?_numbered`).
-/

set_option autoImplicit false
set_option relaxedAutoImplicit false

namespace BridgeBidding

/-- The call of a descent is that of the bid reached, if it was worked out. -/
theorem Ending.call?_eq (ending : Ending) :
    ending.call? = ending.outcome?.bind fun outcome ↦ outcome.2.toOption := by
  cases ending <;> rfl

namespace RuleTree

/-- The name of the bid that the verdicts lead to, and what becomes of its call. -/
def outcome? (context : Context) : RuleTree → Option (String × Except Failure Call)
  | decision _ _ condition yes no =>
    if (condition.verdict context).passed then yes.outcome? context else no.outcome? context
  | bid _ name call _ => some (name, call context)
  | deadEnd .. => none

theorem outcome?_descendFrom (context : Context) (tree : RuleTree) (depth : Nat)
    (parent? : Option String) :
    (tree.descendFrom context depth parent?).ending.outcome? = tree.outcome? context := by
  induction tree generalizing depth parent? with
  | decision key name condition yes no ihyes ihno =>
    rw [descendFrom, outcome?]
    cases hpassed : (condition.verdict context).passed with
    | true => exact ihyes _ _
    | false => exact ihno _ _
  | bid key name call meaning => exact outcome?_endAt context _
  | deadEnd key reason => rfl

theorem outcome?_descend (context : Context) (tree : RuleTree) :
    (tree.descend context).ending.outcome? = tree.outcome? context :=
  outcome?_descendFrom context tree 0 none

theorem outcome?_numberedFrom (context : Context) (tree : RuleTree) (first : Nat) :
    (tree.numberedFrom first).outcome? context = tree.outcome? context := by
  induction tree generalizing first with
  | decision key name condition yes no ihyes ihno =>
    rw [numberedFrom, outcome?, outcome?, ihyes, ihno]
  | bid key name call meaning => rfl
  | deadEnd key reason => rfl

@[simp] theorem outcome?_numbered (context : Context) (tree : RuleTree) :
    tree.numbered.outcome? context = tree.outcome? context :=
  outcome?_numberedFrom context tree 0

/-- A descent makes the call that the tree comes to. -/
theorem call?_descend_eq_some_iff {context : Context} {tree : RuleTree} {call : Call} :
    (tree.descend context).ending.call? = some call ↔
      ∃ name, tree.outcome? context = some (name, .ok call) := by
  rw [Ending.call?_eq, outcome?_descend]
  constructor
  · intro h
    obtain ⟨⟨name, made⟩, houtcome, hmade⟩ := Option.bind_eq_some_iff.mp h
    cases made with
    | ok value =>
      obtain rfl : value = call := Option.some.inj hmade
      exact ⟨name, houtcome⟩
    | error failure => cases hmade
  · rintro ⟨name, houtcome⟩
    rw [houtcome]
    rfl

/-- A descent matches the bid that the tree comes to, if its call can be worked out. -/
theorem exists_ending_of_outcome? {context : Context} {tree : RuleTree} {name : String}
    {call : Call}
    (h : tree.outcome? context = some (name, .ok call)) :
    ∃ node, (tree.descend context).ending = .bid node call ∧ node.name = name := by
  rw [← outcome?_descend] at h
  cases hending : (tree.descend context).ending with
  | bid node made =>
    rw [hending] at h
    obtain ⟨hname, hmade⟩ := Prod.mk.inj (Option.some.inj h)
    exact ⟨node, by rw [Except.ok.inj hmade], hname⟩
  | failedBid node failure =>
    rw [hending] at h
    cases (Prod.mk.inj (Option.some.inj h)).2
  | deadEnd reason =>
    rw [hending] at h
    cases h

theorem outcome?_of_ending {context : Context} {tree : RuleTree} {node : BidNode} {call : Call}
    (h : (tree.descend context).ending = .bid node call) :
    tree.outcome? context = some (node.name, .ok call) := by
  rw [← outcome?_descend, h]
  rfl

/-- A descent matches a bid if the tree comes to one whose call can be worked out. -/
theorem exists_ending_iff {context : Context} {tree : RuleTree} :
    (∃ node call, (tree.descend context).ending = .bid node call) ↔
      ∃ name call, tree.outcome? context = some (name, .ok call) := by
  constructor
  · rintro ⟨node, call, hending⟩
    exact ⟨node.name, call, outcome?_of_ending hending⟩
  · rintro ⟨name, call, houtcome⟩
    obtain ⟨node, hending, -⟩ := exists_ending_of_outcome? houtcome
    exact ⟨node, call, hending⟩

/-- What a descent reaches is what the tree comes to. -/
theorem exists_outcome?_of_reached? {context : Context} {tree : RuleTree} {node : BidNode}
    (h : (tree.descend context).ending.reached? = some node) :
    ∃ made, tree.outcome? context = some (node.name, made) := by
  rw [← outcome?_descend]
  cases hending : (tree.descend context).ending with
  | bid reached call =>
    rw [hending] at h
    obtain rfl := Option.some.inj h
    exact ⟨_, rfl⟩
  | failedBid reached failure =>
    rw [hending] at h
    obtain rfl := Option.some.inj h
    exact ⟨_, rfl⟩
  | deadEnd reason =>
    rw [hending] at h
    cases h

/-! ### Outlines -/

section Outlines

variable (context : Context) (name meaning : String)

@[simp] theorem outcome?_ask (condition : Condition) (yes no : RuleTree) :
    (ask name condition yes no).outcome? context =
      if (condition.verdict context).passed then yes.outcome? context else no.outcome? context :=
  rfl

@[simp] theorem outcome?_say (call : Call) :
    (say name call meaning).outcome? context = some (name, .ok call) := rfl

@[simp] theorem outcome?_workOut (call : CallRule) :
    (workOut name call meaning).outcome? context = some (name, call context) := rfl

@[simp] theorem outcome?_stop (reason : Option String) :
    (stop reason).outcome? context = none := rfl

end Outlines

theorem outcome?_workOut_of_ok {context : Context} {name meaning : String} {rule : CallRule}
    {call : Call} (h : rule context = .ok call) :
    (workOut name rule meaning).outcome? context = some (name, .ok call) := by
  rw [outcome?_workOut, h]

/-- What the tree comes to is one of its bids. -/
theorem exists_mem_bids_of_outcome? {context : Context} {tree : RuleTree} {name : String}
    {made : Except Failure Call} (h : tree.outcome? context = some (name, made)) :
    ∃ node ∈ tree.bids, node.name = name ∧ node.call context = made := by
  induction tree with
  | decision key other condition yes no ihyes ihno =>
    rw [outcome?] at h
    by_cases hpassed : (condition.verdict context).passed = true
    · rw [if_pos hpassed] at h
      obtain ⟨node, hnode, hmade⟩ := ihyes h
      exact ⟨node, List.mem_append_left _ hnode, hmade⟩
    · rw [if_neg hpassed] at h
      obtain ⟨node, hnode, hmade⟩ := ihno h
      exact ⟨node, List.mem_append_right _ hnode, hmade⟩
  | bid key other call meaning =>
    obtain ⟨rfl, rfl⟩ := Prod.mk.inj (Option.some.inj h)
    exact ⟨_, List.mem_cons_self, rfl, rfl⟩
  | deadEnd key reason => cases h

/-! ### What bids have in common -/

/-- Whatever bid the tree comes to, its name and what becomes of its call are as promised. -/
def Ensures (context : Context) (promise : String → Except Failure Call → Prop)
    (tree : RuleTree) : Prop :=
  ∀ name made, tree.outcome? context = some (name, made) → promise name made

namespace Ensures

variable {context : Context} {promise : String → Except Failure Call → Prop} {name : String}

theorem ask {condition : Condition} {yes no : RuleTree}
    (hyes : (condition.verdict context).passed = true → Ensures context promise yes)
    (hno : ¬ (condition.verdict context).passed = true → Ensures context promise no) :
    Ensures context promise (RuleTree.ask name condition yes no) := by
  intro reached made h
  rw [outcome?_ask] at h
  by_cases hpassed : (condition.verdict context).passed = true
  · rw [if_pos hpassed] at h
    exact hyes hpassed reached made h
  · rw [if_neg hpassed] at h
    exact hno hpassed reached made h

/-- If all bids of a tree are as promised, nothing depends on its decisions. -/
theorem of_bids {tree : RuleTree}
    (h : ∀ node ∈ tree.bids, promise node.name (node.call context)) :
    Ensures context promise tree := by
  intro reached made houtcome
  obtain ⟨node, hnode, rfl, rfl⟩ := exists_mem_bids_of_outcome? houtcome
  exact h node hnode

/-- A promise about bids of one name is kept by a tree without them. -/
theorem of_names {tree : RuleTree} {kept : Except Failure Call → Prop}
    (h : name ∉ tree.bids.map BidNode.name) :
    Ensures context (fun reached made ↦ reached = name → kept made) tree := by
  refine of_bids fun node hnode hname ↦ ?_
  exact absurd (List.mem_map.mpr ⟨node, hnode, hname⟩) h

end Ensures

/-! ### What calls have in common -/

/-- Whatever call the tree comes to satisfies the promise. -/
def Promises (context : Context) (promise : Call → Prop) (tree : RuleTree) : Prop :=
  ∀ name call, tree.outcome? context = some (name, .ok call) → promise call

namespace Promises

variable {context : Context} {promise : Call → Prop} {name meaning : String}

theorem ask {condition : Condition} {yes no : RuleTree}
    (hyes : (condition.verdict context).passed = true → Promises context promise yes)
    (hno : ¬ (condition.verdict context).passed = true → Promises context promise no) :
    Promises context promise (RuleTree.ask name condition yes no) := by
  intro reached call h
  rw [outcome?_ask] at h
  by_cases hpassed : (condition.verdict context).passed = true
  · rw [if_pos hpassed] at h
    exact hyes hpassed reached call h
  · rw [if_neg hpassed] at h
    exact hno hpassed reached call h

theorem say {call : Call} (hcall : promise call) :
    Promises context promise (RuleTree.say name call meaning) := by
  intro reached made h
  obtain ⟨-, rfl⟩ : name = reached ∧ call = made := by simpa using h
  exact hcall

theorem workOut {rule : CallRule} (hrule : ∀ call, rule context = .ok call → promise call) :
    Promises context promise (RuleTree.workOut name rule meaning) := by
  intro reached made h
  obtain ⟨-, hmade⟩ : name = reached ∧ rule context = .ok made := by simpa using h
  exact hrule made hmade

theorem stop {reason : Option String} : Promises context promise (RuleTree.stop reason) := by
  intro reached call h
  cases h

theorem numbered {tree : RuleTree} (h : Promises context promise tree) :
    Promises context promise tree.numbered := by
  intro reached call houtcome
  rw [outcome?_numbered] at houtcome
  exact h reached call houtcome

/-- If all bids of a tree make calls that satisfy the promise, nothing depends on its decisions. -/
theorem of_bids {tree : RuleTree} (calls : List Call)
    (hcalls : tree.bids.map (fun node ↦ node.call context) = calls.map Except.ok)
    (hall : ∀ call ∈ calls, promise call) : Promises context promise tree := by
  intro reached call houtcome
  obtain ⟨node, hnode, -, hmade⟩ := exists_mem_bids_of_outcome? houtcome
  have hmem := List.mem_map_of_mem (f := fun node : BidNode ↦ node.call context) hnode
  rw [hcalls] at hmem
  obtain ⟨made, hlisted, heq⟩ := List.mem_map.mp hmem
  obtain rfl : made = call := Except.ok.inj (heq.trans hmade)
  exact hall made hlisted

end Promises

end RuleTree

end BridgeBidding
