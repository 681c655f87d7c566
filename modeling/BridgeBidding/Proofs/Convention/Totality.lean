import BridgeBidding.Proofs.Condition.Inference
import BridgeBidding.Proofs.Gerber.Legality
import BridgeBidding.Proofs.Sayc.Calls
import BridgeBidding.Proofs.Trainer.RightAnswer

/-!
# Conventions that never fail

The calls of some bids are worked out from the auction, which may not be what they expect: a place
of the auction may be missing, nobody may have bid a suit, no suit may be long enough to be bid.
The decisions above such a bid see to it that this does not happen (`RuleTree.WorksOut`), in every
auction and for every hand, whether they can come about or not.  So the built-in conventions never
fail, neither when their tree is descended nor when all their rules are tried
(`Registry.builtin_never_fails`).
-/

set_option autoImplicit false
set_option relaxedAutoImplicit false

namespace BridgeBidding

open Success

/-! ### Trees whose calls never fail -/

namespace RuleTree

variable {context : Context} {tree : RuleTree}

/-- If the tree comes to a bid, its call can be worked out. -/
def WorksOut (context : Context) (tree : RuleTree) : Prop :=
  ∀ name failure, tree.outcome? context ≠ some (name, .error failure)

namespace WorksOut

variable {name meaning : String}

theorem ask {condition : Condition} {yes no : RuleTree}
    (hyes : (condition.verdict context).passed = true → WorksOut context yes)
    (hno : ¬ (condition.verdict context).passed = true → WorksOut context no) :
    WorksOut context (RuleTree.ask name condition yes no) := by
  intro reached failure h
  rw [outcome?_ask] at h
  by_cases hpassed : (condition.verdict context).passed = true
  · rw [if_pos hpassed] at h
    exact hyes hpassed reached failure h
  · rw [if_neg hpassed] at h
    exact hno hpassed reached failure h

theorem workOut {rule : CallRule} (h : ∃ call, rule context = .ok call) :
    WorksOut context (RuleTree.workOut name rule meaning) := by
  intro reached failure houtcome
  obtain ⟨call, hcall⟩ := h
  rw [outcome?_workOut, hcall] at houtcome
  cases houtcome

/-- If the calls of all bids can be worked out, nothing depends on the decisions. -/
theorem of_bids (h : ∀ made ∈ tree.bids.map fun node ↦ node.call context, made.isOk = true) :
    WorksOut context tree := by
  intro name failure houtcome
  obtain ⟨node, hnode, -, hmade⟩ := exists_mem_bids_of_outcome? houtcome
  have hok := h _ (List.mem_map_of_mem hnode)
  rw [hmade] at hok
  cases hok

theorem stop {reason : Option String} : WorksOut context (RuleTree.stop reason) := by
  intro name failure h
  cases h

theorem numbered (h : WorksOut context tree) : WorksOut context tree.numbered := by
  intro name failure houtcome
  rw [outcome?_numbered] at houtcome
  exact h name failure houtcome

theorem ending_ne_failedBid (h : WorksOut context tree) (node : BidNode) (failure : Failure) :
    (tree.descend context).ending ≠ .failedBid node failure := by
  intro hending
  have houtcome := outcome?_descend context tree
  rw [hending] at houtcome
  exact h _ _ houtcome.symm

/-- A bid that is reached is matched, since its call can be worked out. -/
theorem node?_eq_reached? (h : WorksOut context tree) :
    (tree.descend context).ending.node? = (tree.descend context).ending.reached? := by
  cases hending : (tree.descend context).ending with
  | failedBid node failure => exact absurd hending (h.ending_ne_failedBid node failure)
  | bid node call => rfl
  | deadEnd reason => rfl

end WorksOut

end RuleTree

open RuleTree

/-! ### The built-in conventions -/

section Builtin

variable (context : Context)

theorem Stayman.worksOut_tree : WorksOut context Stayman.tree :=
  .of_bids (List.all_eq_true.mp rfl)

theorem Landy.worksOut_tree : WorksOut context Landy.tree :=
  .of_bids (List.all_eq_true.mp rfl)

theorem Dont.worksOut_tree : WorksOut context Dont.tree :=
  .of_bids (List.all_eq_true.mp rfl)

/-- A raise is worked out only after one of a major. -/
theorem Bergen.worksOut_tree : WorksOut context Bergen.tree := by
  apply WorksOut.numbered
  refine .ask (fun hopened ↦ .ask (fun _ ↦ .of_bids ?_) fun _ ↦ .stop) fun _ ↦ .stop
  rw [Condition.passed_auctionIsAny, List.contains_iff_mem, List.mem_cons,
    List.mem_singleton] at hopened
  rcases hopened with hhearts | hspades
  · rw [calls_raisingTurn context hhearts rfl]
    exact List.forall_mem_map.mpr fun _ _ ↦ rfl
  · rw [calls_raisingTurn context hspades rfl]
    exact List.forall_mem_map.mpr fun _ _ ↦ rfl

end Builtin

namespace Gerber

open AceAsking

variable {context : Context}

/-- After the answer about aces there is a call in the place where the contract looks for it. -/
theorem exists_placeAfterAces (h : context.auction.calls ∈ afterAceAnswer) :
    ∃ call, placeAfterAces context = .ok call := by
  have hplace : ∀ calls ∈ afterAceAnswer, (calls[4]?).isSome = true := by decide
  obtain ⟨answer, hanswer⟩ := Option.isSome_iff_exists.mp (hplace _ h)
  unfold placeAfterAces
  rw [hanswer]
  by_cases hfour : totalAces context = 4
  · exact ⟨_, if_pos hfour⟩
  · by_cases hthree : 3 ≤ totalAces context
    · exact ⟨_, by rw [if_neg hfour, if_pos hthree]⟩
    · exact ⟨_, by rw [if_neg hfour, if_neg hthree]⟩

theorem worksOut_afterAces (h : context.auction.calls ∈ afterAceAnswer) :
    WorksOut context afterAces := by
  refine .ask (fun _ ↦ .of_bids (List.all_eq_true.mp rfl)) fun _ ↦ .ask (fun _ ↦ ?_) fun _ ↦ .stop
  exact .workOut (exists_placeAfterAces h)

/-- The contract after the answer about kings can be worked out from any auction. -/
theorem worksOut_afterKings (context : Context) : WorksOut context afterKings := by
  refine .ask (fun _ ↦ .workOut ?_) fun _ ↦ .stop
  rcases placeAfterKings_cases context with ⟨-, call, -, hcall⟩ | ⟨-, hcall⟩
  · exact ⟨call, hcall⟩
  · exact ⟨_, hcall⟩

theorem worksOut_tree (context : Context) : WorksOut context tree := by
  apply WorksOut.numbered
  refine .ask (fun _ ↦ ?asking) fun _ ↦ .ask (fun _ ↦ ?aces) fun _ ↦ .ask (fun _ ↦ ?kings) fun _ ↦
    .ask (fun haces ↦ ?afterAces) fun _ ↦ .ask (fun _ ↦ ?afterKings) fun _ ↦ .stop
  case asking => exact .of_bids (List.all_eq_true.mp rfl)
  case aces => exact .of_bids (List.all_eq_true.mp rfl)
  case kings => exact .of_bids (List.all_eq_true.mp rfl)
  case afterKings => exact worksOut_afterKings context
  case afterAces =>
    rw [Condition.passed_auctionIsAny, List.contains_iff_mem] at haces
    exact worksOut_afterAces haces

end Gerber

namespace Sayc

variable {context : Context}

/-- A bid of a level in a strain that the auction gives can be worked out. -/
theorem exists_inStrain {strain? : Context → Option Strain} (level : Level)
    (h : (strain? context).isSome = true) :
    ∃ call, CallRule.inStrain level.number strain? context = .ok call := by
  obtain ⟨strain, hstrain⟩ := Option.isSome_iff_exists.mp h
  exact ⟨_, inStrain_eq_ok hstrain level⟩

theorem worksOut_afterRaise (h : context.ownFirstStrain?.isSome = true) :
    WorksOut context afterRaise := by
  refine .ask (fun _ ↦ ?game) fun _ ↦ .ask (fun _ ↦ ?invite) fun _ ↦ ?minimum
  case game => exact .workOut (exists_inStrain .four h)
  case invite => exact .workOut (exists_inStrain .three h)
  case minimum => exact .of_bids (List.all_eq_true.mp rfl)

/-- The opener raises partner only if partner has bid a suit, and repeats only a suit of its own. -/
theorem worksOut_rebiddingTurn : WorksOut context rebiddingTurn := by
  refine .ask (fun hraised ↦ worksOut_afterRaise ?raised) fun _ ↦
    .ask (fun hsupport ↦ .workOut (exists_inStrain .two ?support)) fun _ ↦
    .ask (fun hlong ↦ .workOut (exists_inStrain .two ?ownSuit)) fun _ ↦
    .of_bids (List.all_eq_true.mp rfl)
  case raised =>
    rw [Condition.passed_position, PositionTest.holds, PositionTest.majorIsRaised] at hraised
    cases hown : context.ownFirstStrain? with
    | some strain => rfl
    | none => simp [hown] at hraised
  case support =>
    obtain ⟨suit, hsuit, -⟩ :=
      (Condition.passed_partnerMajorSupport 4).mp (Condition.passed_both.mp hsupport).2
    rw [HandTest.partnerMajor?] at hsuit
    cases hpartner : context.partnerLastStrain? with
    | some strain => rfl
    | none => simp [hpartner] at hsuit
  case ownSuit =>
    obtain ⟨suit, hsuit, -⟩ :=
      (Condition.passed_openedSuitMin 6).mp (Condition.passed_both.mp hlong).2
    obtain ⟨strain, hstrain, -⟩ := Option.bind_eq_some_iff.mp hsuit
    exact Option.isSome_of_eq_some hstrain

/-- Support is for a suit that partner has bid. -/
theorem partnerFirstStrain?_isSome {first : Condition} {minimum : Int}
    (h : ((Condition.conjunction [first, .holding (.partnerSuitSupport minimum)]).verdict
      context).passed = true) : context.partnerFirstStrain?.isSome = true := by
  obtain ⟨suit, hsuit, -⟩ :=
    (Condition.passed_partnerSuitSupport minimum).mp (Condition.passed_both.mp h).2
  obtain ⟨strain, hstrain, -⟩ := Option.bind_eq_some_iff.mp hsuit
  exact Option.isSome_of_eq_some hstrain

theorem worksOut_afterMajor : WorksOut context afterMajor := by
  refine .ask (fun _ ↦ .ask (fun hsimple ↦ ?simple) fun _ ↦ .ask (fun hlimit ↦ ?limit) fun _ ↦
    .ask (fun hgame ↦ ?game) fun _ ↦ ?newSuit) fun _ ↦ ?weak
  case simple => exact .workOut (exists_inStrain .two (partnerFirstStrain?_isSome hsimple))
  case limit => exact .workOut (exists_inStrain .three (partnerFirstStrain?_isSome hlimit))
  case game => exact .workOut (exists_inStrain .four (partnerFirstStrain?_isSome hgame))
  case newSuit => exact .of_bids (List.all_eq_true.mp rfl)
  case weak => exact .of_bids (List.all_eq_true.mp rfl)

theorem worksOut_respondingTurn : WorksOut context respondingTurn := by
  refine .ask (fun _ ↦ .stop) fun _ ↦ .ask (fun _ ↦ ?notrump) fun _ ↦
    .ask (fun _ ↦ worksOut_afterMajor) fun _ ↦ ?minor
  case notrump => exact .of_bids (List.all_eq_true.mp rfl)
  case minor => exact .of_bids (List.all_eq_true.mp rfl)

/-- An overcall is made only if there is a suit to bid at its level. -/
theorem exists_overcall {minimum maximum : Int} (level : Level)
    (h : ((overcallValues minimum maximum level.number).verdict context).passed = true) :
    ∃ call, CallRule.overcall level.number context = .ok call := by
  obtain ⟨-, hbiddable⟩ := Condition.passed_both.mp h
  have hholds := (Condition.passed_iff.mp hbiddable).1
  rw [Condition.holds, HandTest.holds] at hholds
  obtain ⟨suit?, hsuit, hsome⟩ := bind_eq_ok_iff.mp hholds
  obtain ⟨suit, rfl⟩ := Option.isSome_iff_exists.mp (Except.ok.inj hsome)
  refine ⟨.bid ⟨level, suit.strain⟩, ?_⟩
  rw [CallRule.overcall, hsuit, ok_bind]
  exact inStrain_eq_ok rfl level

theorem worksOut_competingTurn : WorksOut context competingTurn := by
  refine .ask (fun _ ↦ ?notrump) fun _ ↦ .ask (fun hone ↦ .workOut ?one) fun _ ↦
    .ask (fun htwo ↦ .workOut ?two) fun _ ↦ ?none
  case notrump => exact .of_bids (List.all_eq_true.mp rfl)
  case one => exact exists_overcall .one hone
  case two => exact exists_overcall .two htwo
  case none => exact .of_bids (List.all_eq_true.mp rfl)

theorem worksOut_tree (context : Context) : WorksOut context tree := by
  apply WorksOut.numbered
  refine .ask (fun _ ↦ .of_bids (List.all_eq_true.mp rfl)) fun _ ↦
    .ask (fun _ ↦ worksOut_rebiddingTurn) fun _ ↦ .ask (fun _ ↦ worksOut_respondingTurn) fun _ ↦
    .ask (fun _ ↦ .ask (fun _ ↦ ?hasBid) fun _ ↦ worksOut_competingTurn) fun _ ↦ .stop
  case hasBid => exact .of_bids (List.all_eq_true.mp rfl)

end Sayc

theorem Registry.worksOut_of_mem_builtin {convention : Convention} (h : convention ∈ builtin)
    (context : Context) : WorksOut context convention.tree := by
  simp only [builtin, List.mem_cons, List.not_mem_nil, or_false] at h
  rcases h with rfl | rfl | rfl | rfl | rfl | rfl
  · exact Stayman.worksOut_tree context
  · exact Gerber.worksOut_tree context
  · exact Bergen.worksOut_tree context
  · exact Landy.worksOut_tree context
  · exact Dont.worksOut_tree context
  · exact Sayc.worksOut_tree context

/-- The rules of a built-in convention are those of the paths of its tree. -/
theorem Registry.rules_eq_of_mem_builtin {convention : Convention} (h : convention ∈ builtin) :
    convention.rules = convention.tree.paths.map (ruleOf []) := by
  have hall : (builtin.all fun convention ↦ convention.tree.flatten.isOk) = true := by decide
  have hok := List.all_eq_true.mp hall convention h
  rw [rules_of_mem_builtin h, RuleTree.rules]
  cases hflatten : convention.tree.flatten with
  | ok rules => exact (flatten_eq_ok hflatten).1
  | error error =>
    rw [hflatten] at hok
    cases hok

/-! ### Trying all rules -/

namespace RuleTree

variable {tree : RuleTree}

/-- The tree asks total conditions only. -/
def IsTotal (tree : RuleTree) : Prop := ∀ condition ∈ tree.conditions, condition.isTotal = true

theorem IsTotal.isDescribedIn (h : tree.IsTotal) (context : Context) :
    tree.IsDescribedIn context :=
  fun condition hcondition ↦ (Condition.isSettled_of_isTotal (h condition hcondition)).2

theorem IsTotal.isAnsweredIn (h : tree.IsTotal) (context : Context) : tree.IsAnsweredIn context :=
  fun condition hcondition ↦ (Condition.isSettled_of_isTotal (h condition hcondition)).1

/-- A rule asks total conditions too. -/
theorem IsTotal.isTotal_of_mem_rule {path : BidPath} {condition : Condition} (h : tree.IsTotal)
    (hpath : path ∈ tree.paths) (hcondition : condition ∈ (ruleOf [] path).conditions) :
    condition.isTotal = true := by
  have hmem : condition ∈ path.conditions := by
    rcases List.mem_append.mp hcondition with hcondition | hcondition
    · exact List.mem_of_mem_filter hcondition
    · exact List.mem_of_mem_filter hcondition
  obtain ⟨junction, hjunction, rfl⟩ := List.mem_map.mp hmem
  have htotal := h _ (mem_conditions_of_mem_paths hpath junction hjunction)
  unfold Junction.asked
  split_ifs
  · exact htotal
  · exact htotal

end RuleTree

/-- A total condition can be reported on. -/
theorem Condition.exists_report_of_isTotal {condition : Condition} (h : condition.isTotal = true)
    (context : Context) : ∃ report, condition.report context = .ok report :=
  exists_report_iff.mpr <| List.forall_mem_cons.mpr ⟨isSettled_of_isTotal h, fun _ hasked ↦
    isSettled_of_isTotal (isTotal_of_mem_reported h hasked)⟩

/-- What became of the rule of a bid accords with the ending of a descent: the rule matches if the
descent has matched the bid, and then has the call of the descent. -/
structure RuleTrial.Accords (ending : Ending) (tried : RuleTrial) (node : BidNode) : Prop where
  name_eq : tried.name = node.name
  matched_iff : tried.matched = true ↔ ending.node? = some node
  call?_eq : tried.matched = true → tried.call? = ending.call?

namespace Convention

variable {context : Context}

/-- If every rule can be tried, all can be tried one after another. -/
theorem exists_trialsOf {α : Type} {make : α → Rule} {Fits : RuleTrial → α → Prop} {items : List α}
    (h : ∀ item ∈ items, ∃ tried, trial context (make item) = .ok tried ∧ Fits tried item) :
    ∃ trials, trialsOf context (items.map make) = .ok trials ∧ List.Forall₂ Fits trials items := by
  induction items with
  | nil => exact ⟨[], rfl, .nil⟩
  | cons item rest ih =>
    obtain ⟨⟨tried, htried, hfits⟩, hrest⟩ := List.forall_mem_cons.mp h
    obtain ⟨trials, htrials, hall⟩ := ih hrest
    refine ⟨tried :: trials, ?_, .cons hfits hall⟩
    rw [List.map_cons, trialsOf, htried, ok_bind, htrials, ok_bind]
    rfl

/-- The rule of a path matches when the descent ends at its bid, and then has the same call. -/
theorem exists_trial {tree : RuleTree} {path : BidPath} (hkeys : tree.keys.Nodup)
    (htotal : tree.IsTotal) (hworks : tree.WorksOut context) (hpath : path ∈ tree.paths) :
    ∃ tried, trial context (ruleOf [] path) = .ok tried ∧
      tried.Accords (tree.descend context).ending path.node := by
  obtain ⟨place, hplace⟩ := List.mem_iff_getElem?.mp hpath
  have hmatches : (ruleOf [] path).matchesIn context = true ↔
      (tree.descend context).ending.node? = some path.node := by
    rw [matchesIn_iff_follows (htotal.isDescribedIn context) (htotal.isAnsweredIn context) hpath,
      hworks.node?_eq_reached?]
    exact ⟨reached?_of_follows hpath, follows_of_reached? hkeys hplace⟩
  unfold trial
  by_cases hmatched : (ruleOf [] path).matchesIn context = true
  · have hnode := hmatches.mp hmatched
    have hending : (tree.descend context).ending = endAt context path.node := by
      rw [hworks.node?_eq_reached?] at hnode
      exact ending_eq_endAt hnode
    cases hcall : path.node.call context with
    | ok call =>
      have hrule : (ruleOf [] path).call context = .ok call := hcall
      rw [if_pos hmatched, hrule, ok_bind]
      refine ⟨_, rfl, rfl, iff_of_true rfl hnode, fun _ ↦ ?_⟩
      rw [hending, endAt, hcall]
      rfl
    | error failure =>
      rw [hending, endAt, hcall] at hnode
      cases hnode
  · rw [if_neg hmatched]
    refine ⟨_, rfl, rfl, iff_of_false ?_ (hmatches.not.mp hmatched), fun h ↦ ?_⟩
    · exact Bool.false_ne_true
    · cases h

end Convention

/-- Lists related item by item have related items in the same places. -/
theorem exists_getElem?_of_forall₂ {α β : Type} {relation : α → β → Prop} {first : List α}
    {second : List β} (h : List.Forall₂ relation first second) {place : Nat} {item : α}
    (hitem : first[place]? = some item) :
    ∃ other, second[place]? = some other ∧ relation item other := by
  obtain ⟨hlength, hrelated⟩ := List.forall₂_iff_get.mp h
  obtain ⟨hplace, rfl⟩ := List.getElem?_eq_some_iff.mp hitem
  have hother : place < second.length := hlength ▸ hplace
  exact ⟨second[place], List.getElem?_eq_getElem hother, hrelated place hplace hother⟩

namespace RuleTrial

variable {tree : RuleTree} {ending : Ending} {trials : List RuleTrial}

/-- At most one of the rules of a tree's bids matches. -/
theorem place_eq_of_matched (hkeys : tree.keys.Nodup)
    (haccord : List.Forall₂ (Accords ending) trials tree.bids) {place other : Nat}
    {tried otherTried : RuleTrial} (hplace : trials[place]? = some tried)
    (hother : trials[other]? = some otherTried) (hmatched : tried.matched = true)
    (hotherMatched : otherTried.matched = true) : place = other := by
  obtain ⟨node, hnode, hfits⟩ := exists_getElem?_of_forall₂ haccord hplace
  obtain ⟨otherNode, hotherNode, hotherFits⟩ := exists_getElem?_of_forall₂ haccord hother
  have hsame : node = otherNode := Option.some.inj
    ((hfits.matched_iff.mp hmatched).symm.trans (hotherFits.matched_iff.mp hotherMatched))
  exact place_unique hkeys hnode (hsame ▸ hotherNode)

/-- Some rule matches exactly if a descent has matched a bid. -/
theorem exists_matched_iff (haccord : List.Forall₂ (Accords ending) trials tree.bids)
    (hmem : ∀ node, ending.node? = some node → node ∈ tree.bids) :
    (∃ tried ∈ trials, tried.matched = true) ↔ ending.node?.isSome = true := by
  constructor
  · rintro ⟨tried, htried, hmatched⟩
    obtain ⟨place, hplace⟩ := List.mem_iff_getElem?.mp htried
    obtain ⟨node, -, hfits⟩ := exists_getElem?_of_forall₂ haccord hplace
    exact Option.isSome_of_eq_some (hfits.matched_iff.mp hmatched)
  · intro hsome
    obtain ⟨node, hnode⟩ := Option.isSome_iff_exists.mp hsome
    obtain ⟨place, hplace⟩ := List.mem_iff_getElem?.mp (hmem node hnode)
    obtain ⟨tried, htried, hfits⟩ := exists_getElem?_of_forall₂ haccord.flip hplace
    exact ⟨tried, List.mem_of_getElem? htried, hfits.matched_iff.mpr hnode⟩

end RuleTrial

/-- In every context, whatever its auction, its hand and the evaluation of the hand, a built-in
convention descends its tree without a failure, and comes to a suggestion or to none.  All its rules
can be tried, and every condition that they ask can be reported on.  The rules stand for the bids of
the tree, in order, and the one that matches, if there is one, stands for the bid that the descent
matches and makes the same call. -/
theorem Registry.builtin_never_fails {convention : Convention} (h : convention ∈ builtin)
    (context : Context) :
    (∀ step ∈ (convention.tree.descend context).steps, step.verdict.failure? = none) ∧
    (∀ node failure, (convention.tree.descend context).ending ≠ .failedBid node failure) ∧
    (∀ skipIllegal, ∃ suggestion?, convention.suggest? context skipIllegal = .ok suggestion?) ∧
    (∀ rule ∈ convention.rules, ∀ condition ∈ rule.conditions,
      ∃ report, condition.report context = .ok report) ∧
    ∃ trials, convention.trials context = .ok trials ∧
      List.Forall₂ (RuleTrial.Accords (convention.tree.descend context).ending)
        trials convention.tree.bids ∧
      (∀ (place other : Nat) (tried otherTried : RuleTrial), trials[place]? = some tried →
        trials[other]? = some otherTried → tried.matched = true → otherTried.matched = true →
          place = other) ∧
      ((∃ tried ∈ trials, tried.matched = true) ↔
        (convention.tree.descend context).ending.node?.isSome = true) := by
  have htotal : convention.tree.IsTotal := fun condition ↦ isTotal_of_mem_builtin h
  have hworks := worksOut_of_mem_builtin h context
  have hrules := rules_eq_of_mem_builtin h
  have hkeys : convention.tree.keys.Nodup :=
    (examine_eq_ok_iff.mp (isRegistrable_of_mem_builtin h).1).1
  have htrial : ∀ path ∈ convention.tree.paths, ∃ tried,
      Convention.trial context (ruleOf [] path) = .ok tried ∧
        tried.Accords (convention.tree.descend context).ending path.node :=
    fun path ↦ Convention.exists_trial hkeys htotal hworks
  obtain ⟨trials, htrials, hpaths⟩ := Convention.exists_trialsOf htrial
  have haccord : List.Forall₂ (RuleTrial.Accords (convention.tree.descend context).ending)
      trials convention.tree.bids := by
    rw [← map_node_paths, List.forall₂_map_right_iff]
    exact hpaths
  have hmem : ∀ node, (convention.tree.descend context).ending.node? = some node →
      node ∈ convention.tree.bids := by
    intro node hnode
    rw [hworks.node?_eq_reached?] at hnode
    exact mem_bids_of_leafBy (reached?_descendFrom_eq_some_iff.mp hnode)
  refine ⟨?_, hworks.ending_ne_failedBid, Convention.exists_suggest?_of_isTotal htotal context, ?_,
    trials, ?_, haccord, fun place other tried otherTried ↦
      RuleTrial.place_eq_of_matched hkeys haccord, RuleTrial.exists_matched_iff haccord hmem⟩
  · intro step hstep
    rw [verdict_of_mem_steps hstep, Condition.failure?_verdict_eq_none_iff]
    exact Condition.isSettled_of_isTotal (htotal _ (condition_mem_of_mem_steps hstep))
  · intro rule hrule condition hcondition
    rw [hrules] at hrule
    obtain ⟨path, hpath, rfl⟩ := List.mem_map.mp hrule
    exact Condition.exists_report_of_isTotal (htotal.isTotal_of_mem_rule hpath hcondition) context
  · rw [Convention.trials, hrules, htrials]

/-- A raise of partner's one spade on an evaluation that is not that of the hand, in an auction that
two bids of one seat make impossible. -/
theorem Registry.builtin_never_fails_sayc :
    let auction : Auction := { entries := [⟨.north, .of 1 .spades⟩, ⟨.north, .of 1 .clubs⟩] }
    let evaluation : Evaluation :=
      { Hand.strongNotrump.evaluation with points := 10, shape := ⟨9, -2, 0, 0⟩ }
    let context := Context.ofHand .strongNotrump auction .south (some evaluation)
    Sayc.convention ∈ builtin ∧ (Sayc.tree.descend context).ending.call? = some (.of 2 .spades) ∧
      ∃ trials, Sayc.convention.trials context = .ok trials ∧
        ∃ tried ∈ trials, tried.matched = true ∧ tried.call? = some (.of 2 .spades) := by
  intro auction evaluation context
  have hbuiltin : Sayc.convention ∈ builtin := by simp [builtin]
  have hcall : (Sayc.tree.descend context).ending.call? = some (.of 2 .spades) := rfl
  obtain ⟨-, -, -, -, trials, htrials, haccord, -, hmatched⟩ :=
    builtin_never_fails hbuiltin context
  obtain ⟨tried, htried, hmatches⟩ := hmatched.mpr rfl
  obtain ⟨place, hplace⟩ := List.mem_iff_getElem?.mp htried
  obtain ⟨node, -, hfits⟩ := exists_getElem?_of_forall₂ haccord hplace
  exact ⟨hbuiltin, hcall, trials, htrials, tried, htried, hmatches,
    (hfits.call?_eq hmatches).trans hcall⟩

end BridgeBidding
