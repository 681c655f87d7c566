import BridgeBidding.Proofs.Auction.Reachable
import BridgeBidding.Proofs.Convention.Suggestion
import BridgeBidding.Proofs.Gerber.Legality

/-!
# The legality of conventional calls

In an auction that can be reached, the calls of the conventions that look for auctions are permitted
to the seat whose turn it is, whatever its hand and its partner's, with one exception: after the
answer about kings Gerber may name a contract of five notrump over five notrump.  So for these
conventions it makes no difference but there whether illegal calls are skipped
(`Convention.patterned_call_legal_iff`).
-/

set_option autoImplicit false
set_option relaxedAutoImplicit false

namespace BridgeBidding.Convention

variable {convention : Convention} {context : Context} {call : Call}

/-- The built-in conventions that look for auctions. -/
def patterned : List Convention :=
  [Stayman.convention, Gerber.convention, Bergen.convention, Landy.convention, Dont.convention]

theorem eq_gerber_of_mem_patterned (hpatterned : convention ∈ patterned)
    (hid : convention.id = "gerber") : convention = Gerber.convention := by
  simp only [patterned, List.mem_cons, List.not_mem_nil, or_false] at hpatterned
  rcases hpatterned with rfl | rfl | rfl | rfl | rfl
  · exact absurd hid (by decide)
  · rfl
  · exact absurd hid (by decide)
  · exact absurd hid (by decide)
  · exact absurd hid (by decide)

/-- The calls of these conventions may be made, except for the contract with which Gerber repeats an
answer. -/
theorem mayCall_iff_of_mem_patterned {dealer : Seat} {name : String}
    (hpatterned : convention ∈ patterned)
    (houtcome : convention.tree.outcome? context = some (name, .ok call)) :
    Auction.mayCall dealer context.auction.calls call = true ↔
      ¬ (convention.id = "gerber" ∧ Gerber.RepeatsAnswer context) := by
  by_cases hid : convention.id = "gerber"
  · obtain rfl := eq_gerber_of_mem_patterned hpatterned hid
    rw [and_iff_right hid]
    exact Gerber.mayCall_iff houtcome
  · refine iff_of_true ?_ fun hgerber ↦ hid hgerber.1
    simp only [patterned, List.mem_cons, List.not_mem_nil, or_false] at hpatterned
    rcases hpatterned with rfl | rfl | rfl | rfl | rfl
    · exact Stayman.isPermitted_tree dealer context name call houtcome
    · exact absurd rfl hid
    · exact Bergen.isPermitted_tree dealer context name call houtcome
    · exact Landy.isPermitted_tree dealer context name call houtcome
    · exact Dont.isPermitted_tree dealer context name call houtcome

/-- In an auction that can be reached, a call that one of these conventions makes for the seat whose
turn it is, is permitted unless Gerber repeats the answer about kings, and in no other case does it
make a difference whether illegal calls are skipped. -/
theorem patterned_call_legal_iff {dealer : Option Seat} (hpatterned : convention ∈ patterned)
    (hreach : Auction.Reachable dealer context.auction)
    (hturn : context.auction.toAct? = some context.seat) :
    (∀ node call, (convention.tree.descend context).ending = .bid node call →
      (context.auction.permits call context.seat = true ↔
        ¬ (convention.id = "gerber" ∧ Gerber.RepeatsAnswer context))) ∧
    (convention.suggest? context true = convention.suggest? context false ↔
      ¬ (convention.id = "gerber" ∧ Gerber.RepeatsAnswer context)) := by
  obtain ⟨first, calls, -, hauction, hseat⟩ := hreach.exists_isLegal_of_toAct? hturn
  have hcalls : context.auction.calls = calls := by rw [hauction, Auction.calls_ofCalls]
  have hlegal : ∀ node call, (convention.tree.descend context).ending = .bid node call →
      (context.auction.permits call context.seat = true ↔
        ¬ (convention.id = "gerber" ∧ Gerber.RepeatsAnswer context)) := by
    intro node call hending
    have hcall : (convention.tree.descend context).ending.call? = some call := by
      rw [hending]
      rfl
    obtain ⟨name, houtcome⟩ := RuleTree.call?_descend_eq_some_iff.mp hcall
    rw [← @mayCall_iff_of_mem_patterned _ _ _ first _ hpatterned houtcome, Auction.mayCall, hcalls,
      ← hauction, ← hseat]
  refine ⟨hlegal, ?_⟩
  cases hending : (convention.tree.descend context).ending with
  | bid node call => exact (suggest?_skip_eq_iff hending).trans (hlegal node call hending)
  | _ =>
    have hcall : (convention.tree.descend context).ending.call? = none := by
      rw [hending]
      rfl
    rw [suggest?_of_no_call hcall, suggest?_of_no_call hcall]
    refine iff_of_true rfl ?_
    rintro ⟨hid, hrepeats⟩
    obtain rfl := eq_gerber_of_mem_patterned hpatterned hid
    have hmade : (Gerber.tree.descend context).ending.call? = some (.of 5 .notrump) :=
      RuleTree.call?_descend_eq_some_iff.mpr ⟨_, hrepeats.outcome?_tree⟩
    cases hcall.symm.trans hmade

/-- The dialogue about aces and kings up to an answer of five notrump. -/
def threeKingsTold : List Call :=
  [.of 1 .notrump, .pass, .of 4 .clubs, .pass, .of 4 .hearts, .pass, .of 5 .clubs, .pass,
    .of 5 .notrump, .pass]

theorem reachable_threeKingsTold :
    Auction.Reachable (some .north) (.ofCalls .north threeKingsTold) :=
  Auction.reachable_ofCalls (by decide)

/-- With two aces opposite the one that was told, the call after an answer of five notrump is
permitted. -/
theorem patterned_call_legal_iff_threeKingsTold :
    let context := Context.ofHand .strongNotrump (.ofCalls .north threeKingsTold) .south
    Gerber.convention ∈ patterned ∧ Auction.Reachable (some .north) context.auction ∧
      context.auction.toAct? = some context.seat ∧
      Gerber.convention.suggest? context true = Gerber.convention.suggest? context false := by
  intro context
  have hpatterned : Gerber.convention ∈ patterned := List.mem_cons_of_mem _ List.mem_cons_self
  have hturn : context.auction.toAct? = some context.seat := rfl
  have haces : ¬ AceAsking.totalAces context < 3 := by decide
  have hsame := (patterned_call_legal_iff hpatterned reachable_threeKingsTold hturn).2.mpr
    fun hrepeats ↦ haces hrepeats.2.2.2
  exact ⟨hpatterned, reachable_threeKingsTold, hturn, hsame⟩

/-- Seventeen points with one ace and one king. -/
def slamTry : Hand :=
  .ofSuits [.ace, .queen, .jack, .two] [.king, .queen, .three] [.queen, .jack, .four]
    [.queen, .three, .two]

/-- With one ace opposite the one that was told, the contract after an answer of five notrump is to
be five notrump, which is illegal, and so it makes a difference whether it is skipped. -/
theorem threeKingsTold_slamTry_illegal :
    let auction := Auction.ofCalls .north threeKingsTold
    let context := Context.ofHand slamTry auction .south
    Gerber.convention ∈ patterned ∧ Auction.Reachable (some .north) auction ∧
      auction.isOver = false ∧ auction.toAct? = some .south ∧
      (∃ node, (Gerber.convention.tree.descend context).ending =
        .bid node (.of 5 .notrump)) ∧
      auction.permits (.of 5 .notrump) .south = false ∧
      Gerber.convention.suggest? context true = .ok none ∧
      Gerber.convention.suggest? context true ≠ Gerber.convention.suggest? context false := by
  intro auction context
  have hending : ∃ node, (Gerber.convention.tree.descend context).ending =
      .bid node (.of 5 .notrump) := ⟨_, rfl⟩
  have hillegal : auction.permits (.of 5 .notrump) .south = false := rfl
  have hdiffers : Gerber.convention.suggest? context true ≠
      Gerber.convention.suggest? context false := by
    obtain ⟨node, hending⟩ := hending
    rw [Ne, suggest?_skip_eq_iff hending]
    exact Bool.eq_false_iff.mp hillegal
  exact ⟨List.mem_cons_of_mem _ List.mem_cons_self, reachable_threeKingsTold, rfl, rfl, hending,
    hillegal, rfl, hdiffers⟩

end BridgeBidding.Convention
