import BridgeBidding.Proofs.Success
import BridgeBidding.Proofs.Tree.Path
import BridgeBidding.Tree.Structure
import Mathlib.Data.List.Nodup

/-!
# What the examination of a tree accepts

A tree is ordered when no decision about the auction lies below one about the hand.  The
examination accepts exactly the ordered trees whose nodes are all different
(`RuleTree.examine_eq_ok_iff`).  In a tree that is numbered the nodes are all different, so it is
accepted if its outline is ordered (`RuleTree.examine_numbered_iff`).
-/

set_option autoImplicit false
set_option relaxedAutoImplicit false

namespace BridgeBidding

open Success

namespace RuleTree

/-- All decisions of the tree are about the hand. -/
def HandOnly (tree : RuleTree) : Prop := ∀ condition ∈ tree.conditions, condition.isAuction = false

/-- Below a decision about the hand all decisions are about the hand. -/
def Ordered : RuleTree → Prop
  | decision _ _ condition yes no =>
    (condition.isAuction = false → yes.HandOnly ∧ no.HandOnly) ∧ yes.Ordered ∧ no.Ordered
  | _ => True

instance decidableHandOnly (tree : RuleTree) : Decidable tree.HandOnly :=
  inferInstanceAs (Decidable (∀ condition ∈ tree.conditions, condition.isAuction = false))

instance decidableOrdered : (tree : RuleTree) → Decidable tree.Ordered
  | decision _ _ condition yes no =>
    have := decidableOrdered yes
    have := decidableOrdered no
    inferInstanceAs (Decidable
      ((condition.isAuction = false → yes.HandOnly ∧ no.HandOnly) ∧ yes.Ordered ∧ no.Ordered))
  | bid .. => .isTrue trivial
  | deadEnd .. => .isTrue trivial

theorem handOnly_decision_iff {key : Nat} {name : String} {condition : Condition}
    {yes no : RuleTree} :
    (decision key name condition yes no).HandOnly ↔
      condition.isAuction = false ∧ yes.HandOnly ∧ no.HandOnly := by
  simp only [HandOnly, conditions, List.forall_mem_cons, List.forall_mem_append]

theorem handOnly_of_conditions_eq_nil {tree : RuleTree} (h : tree.conditions = []) :
    tree.HandOnly := by
  simp [HandOnly, h]

theorem reverse_keys_decision_append {key : Nat} {name : String} {condition : Condition}
    {yes no : RuleTree} (seen : List Nat) :
    (decision key name condition yes no).keys.reverse ++ seen =
      no.keys.reverse ++ (yes.keys.reverse ++ key :: seen) := by
  simp [keys]

theorem first_sight_eq_ok_iff {key : Nat} {seen result : List Nat} {error : TreeError}
    (hseen : seen.Nodup) :
    (if seen.contains key then .error error else .ok (key :: seen)) = Except.ok result ↔
      result = key :: seen ∧ (key :: seen).Nodup := by
  by_cases hfresh : key ∈ seen
  · simp [hfresh]
  · simp [hfresh, hseen, eq_comm]

/-- An examination succeeds when every node is seen for the first time and the decisions are in
order, also with the decision about the hand above, if there is one. -/
theorem examineFrom_eq_ok_iff {hand? : Option String} {seen result : List Nat} {tree : RuleTree}
    (hseen : seen.Nodup) :
    tree.examineFrom hand? seen = .ok result ↔
      result = tree.keys.reverse ++ seen ∧ (tree.keys.reverse ++ seen).Nodup ∧
        tree.Ordered ∧ (hand?.isSome → tree.HandOnly) := by
  induction tree generalizing hand? seen result with
  | decision key name condition yes no ihyes ihno =>
    rw [reverse_keys_decision_append, examineFrom.eq_def]
    simp only
    by_cases hfresh : key ∈ seen
    · rw [if_pos (List.contains_iff_mem.mpr hfresh)]
      refine ⟨fun h ↦ (by cases h), fun ⟨_, hnodup, _⟩ ↦ ?_⟩
      have hcons := hnodup.of_append_right.of_append_right
      exact absurd hfresh (List.nodup_cons.mp hcons).1
    · rw [if_neg (by simpa using hfresh)]
      have hcons : (key :: seen).Nodup := List.nodup_cons.mpr ⟨hfresh, hseen⟩
      -- both branches are examined below the same decision, if there is one
      have hbranches (below? : Option String) :
          (do let seen ← yes.examineFrom below? (key :: seen); no.examineFrom below? seen) =
              .ok result ↔
            result = no.keys.reverse ++ (yes.keys.reverse ++ key :: seen) ∧
              (no.keys.reverse ++ (yes.keys.reverse ++ key :: seen)).Nodup ∧
              (yes.Ordered ∧ no.Ordered) ∧ (below?.isSome → yes.HandOnly ∧ no.HandOnly) := by
        rw [bind_eq_ok_iff]
        constructor
        · rintro ⟨between, hyes, hno⟩
          obtain ⟨rfl, hnodup, hyesOrdered, hyesHand⟩ := (ihyes hcons).mp hyes
          obtain ⟨rfl, hnodup, hnoOrdered, hnoHand⟩ := (ihno hnodup).mp hno
          exact ⟨rfl, hnodup, ⟨hyesOrdered, hnoOrdered⟩, fun h ↦ ⟨hyesHand h, hnoHand h⟩⟩
        · rintro ⟨rfl, hnodup, ⟨hyesOrdered, hnoOrdered⟩, hhand⟩
          have hyes := hnodup.of_append_right
          exact ⟨_, (ihyes hcons).mpr ⟨rfl, hyes, hyesOrdered, fun h ↦ (hhand h).1⟩,
            (ihno hyes).mpr ⟨rfl, hnodup, hnoOrdered, fun h ↦ (hhand h).2⟩⟩
      rw [Ordered, handOnly_decision_iff]
      cases hauction : condition.isAuction with
      | true =>
        cases hand? with
        | none => simpa using hbranches none
        | some hand => simp
      | false =>
        simp only [hbranches]
        simp only [Option.isSome_or, Option.isSome_some, Bool.or_true, true_imp_iff, true_and]
        constructor
        · rintro ⟨hresult, hnodup, hordered, hhand⟩
          exact ⟨hresult, hnodup, ⟨hhand, hordered⟩, fun _ ↦ hhand⟩
        · rintro ⟨hresult, hnodup, ⟨hhand, hordered⟩, -⟩
          exact ⟨hresult, hnodup, hordered, hhand⟩
  | bid key name call meaning =>
    have hleaf : (bid key name call meaning).HandOnly := handOnly_of_conditions_eq_nil rfl
    rw [examineFrom, first_sight_eq_ok_iff hseen]
    exact ⟨fun ⟨hresult, hnodup⟩ ↦ ⟨hresult, hnodup, trivial, fun _ ↦ hleaf⟩,
      fun ⟨hresult, hnodup, _⟩ ↦ ⟨hresult, hnodup⟩⟩
  | deadEnd key reason =>
    have hleaf : (deadEnd key reason).HandOnly := handOnly_of_conditions_eq_nil rfl
    rw [examineFrom, first_sight_eq_ok_iff hseen]
    exact ⟨fun ⟨hresult, hnodup⟩ ↦ ⟨hresult, hnodup, trivial, fun _ ↦ hleaf⟩,
      fun ⟨hresult, hnodup, _⟩ ↦ ⟨hresult, hnodup⟩⟩

/-- A tree passes the examination when its nodes are all different and in order. -/
theorem examine_eq_ok_iff {tree : RuleTree} :
    tree.examine = .ok () ↔ tree.keys.Nodup ∧ tree.Ordered := by
  have hfrom {result : List Nat} :
      tree.examineFrom none [] = .ok result ↔
        result = tree.keys.reverse ∧ tree.keys.Nodup ∧ tree.Ordered := by
    simpa using @examineFrom_eq_ok_iff none [] result tree List.nodup_nil
  simp [examine, bind_eq_ok_iff, hfrom]

/-! ### Numbered trees -/

theorem conditions_numberedFrom (tree : RuleTree) (first : Nat) :
    (tree.numberedFrom first).conditions = tree.conditions := by
  induction tree generalizing first with
  | decision key name condition yes no ihyes ihno =>
    simp only [numberedFrom, conditions, ihyes, ihno]
  | _ => rfl

theorem ordered_numberedFrom_iff {tree : RuleTree} {first : Nat} :
    (tree.numberedFrom first).Ordered ↔ tree.Ordered := by
  induction tree generalizing first with
  | decision key name condition yes no ihyes ihno =>
    simp only [numberedFrom, Ordered, HandOnly, conditions_numberedFrom, ihyes, ihno]
  | _ => rfl

/-- Of a numbered tree the examination asks no more than that its outline is ordered. -/
theorem examine_numbered_iff {tree : RuleTree} :
    tree.numbered.examine = .ok () ↔ tree.Ordered := by
  rw [examine_eq_ok_iff, and_iff_right (nodup_keys_numbered tree), numbered,
    ordered_numberedFrom_iff]

end RuleTree

end BridgeBidding
