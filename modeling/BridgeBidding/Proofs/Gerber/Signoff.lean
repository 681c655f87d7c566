import BridgeBidding.Proofs.Auction.Dialogue
import BridgeBidding.Proofs.Auction.Reachable
import BridgeBidding.Proofs.Gerber.Legality

/-!
# Signing off after the answer about aces

A responder who knows of fewer than three aces stops in notrump.  Notrump outranks every suit on its
level (`Bid.notrump_outranks_iff`), so four notrump is to be had over every answer that such a
responder can have heard, and it is the lowest contract in notrump.  The responder names it, except
over an answer of four spades, where the contract is five notrump (`Gerber.signoff_lowest_iff`).
-/

set_option autoImplicit false
set_option relaxedAutoImplicit false

namespace BridgeBidding

/-- Notrump outranks the suits up to its level. -/
theorem Bid.notrump_outranks_iff {level other : Level} {strain : Strain}
    (hsuit : strain ≠ .notrump) :
    (⟨level, .notrump⟩ : Bid).outranks ⟨other, strain⟩ = true ↔ other.number ≤ level.number := by
  have hlevel := level.one_le_number
  have hother := other.one_le_number
  have hrank : strain.rank < 4 := by
    cases strain with
    | notrump => exact absurd rfl hsuit
    | _ => decide
  rw [outranks_iff_rank_lt]
  change 5 * (other.number - 1) + strain.rank < 5 * (level.number - 1) + 4 ↔ _
  omega

namespace Gerber

open RuleTree AceAsking Auction

variable {dealer : Option Seat} {context : Context}

/-- The level is the lowest one on which the seat may bid notrump. -/
def IsLowestNotrump (auction : Auction) (seat : Seat) (level : Level) : Prop :=
  auction.permits (.of level .notrump) seat = true ∧
    ∀ other, auction.permits (.of other .notrump) seat = true → level.number ≤ other.number

/-- The auction up to the answer about aces is a notrump opening, the ask and the answer, each of
them passed. -/
theorem exists_exchange_of_mem_afterAceAnswer {calls : List Call} (h : calls ∈ afterAceAnswer) :
    ∃ opening strain, calls = exchange 0 ([opening, ⟨4, .clubs⟩] ++ [⟨4, strain⟩]) := by
  have hall : ∀ calls ∈ afterAceAnswer, ∃ opening ∈ [(⟨1, .notrump⟩ : Bid), ⟨2, .notrump⟩],
      ∃ strain ∈ answerStrains, calls = exchange 0 ([opening, ⟨4, .clubs⟩] ++ [⟨4, strain⟩]) := by
    decide
  obtain ⟨opening, -, strain, -, hcalls⟩ := hall calls h
  exact ⟨opening, strain, hcalls⟩

/-- Over an answer in a suit notrump may be bid from the fourth level on. -/
theorem permits_notrump_iff {strain : Strain} (hreach : Reachable dealer context.auction)
    (hanswer : context.auction.calls ∈ afterAceAnswer)
    (hstrain : context.auction.calls[4]? = some (.of 4 strain)) (hsuit : strain ≠ .notrump)
    {level : Level} :
    context.auction.permits (.of level .notrump) context.seat = true ↔ 4 ≤ level.number := by
  obtain ⟨opening, answer, hcalls⟩ := exists_exchange_of_mem_afterAceAnswer hanswer
  obtain rfl : answer = strain := by
    rw [hcalls] at hstrain
    cases hstrain
    rfl
  rcases hreach.exists_isLegal with hempty | ⟨first, calls, -, hauction⟩
  · rw [hempty] at hcalls
    cases hcalls
  · rw [hauction, calls_ofCalls] at hcalls
    rw [hauction, hcalls, permits_exchange_iff, Bid.notrump_outranks_iff hsuit]
    rfl

/-- With fewer than three aces the responder signs off after every answer.  Four notrump is then the
lowest bid in notrump that is permitted, and it is the call unless the answer was four spades. -/
theorem signoff_lowest_iff (hreach : Reachable dealer context.auction)
    (hanswer : context.auction.calls ∈ afterAceAnswer) (haces : totalAces context < 3) :
    IsLowestNotrump context.auction context.seat 4 ∧
    ∃ node level, (tree.descend context).ending = .bid node (.of level .notrump) ∧
      node.name = "gerber-signoff" ∧
      (IsLowestNotrump context.auction context.seat level ↔
        context.auction.calls[4]? ≠ some (.of 4 .spades)) := by
  obtain ⟨strain, hstrain⟩ : ∃ strain, context.auction.calls[4]? = some (.of 4 strain) := by
    obtain ⟨opening, strain, hcalls⟩ := exists_exchange_of_mem_afterAceAnswer hanswer
    exact ⟨strain, by rw [hcalls]; rfl⟩
  have hpermits {level : Level} :=
    @permits_notrump_iff _ _ _ hreach hanswer hstrain (ne_notrump_of_totalAces_lt hstrain haces)
      level
  have hfour : IsLowestNotrump context.auction context.seat 4 :=
    ⟨hpermits.mpr (Nat.le_refl 4), fun other hother ↦ hpermits.mp hother⟩
  have hfive : ¬ IsLowestNotrump context.auction context.seat 5 :=
    fun hlowest ↦ absurd (hlowest.2 4 hfour.1) (by decide)
  have houtcome : tree.outcome? context =
      some ("gerber-signoff", .ok (if Call.of 4 strain = .of 4 .spades then .of 5 .notrump
        else .of 4 .notrump)) := by
    rw [outcome?_afterAceAnswer hanswer, outcome?_afterAces hanswer, if_neg (Nat.not_le.mpr haces),
      placeAfterAces_eq hstrain haces]
  obtain ⟨node, hending, hname⟩ := exists_ending_of_outcome? houtcome
  refine ⟨hfour, node, ?_⟩
  by_cases hspades : Call.of 4 strain = .of 4 .spades
  · rw [if_pos hspades] at hending
    exact ⟨5, hending, hname,
      iff_of_false hfive fun hother ↦ hother (hstrain.trans (congrArg some hspades))⟩
  · rw [if_neg hspades] at hending
    exact ⟨4, hending, hname,
      iff_of_true hfour fun hother ↦ hspades (Option.some.inj (hstrain.symm.trans hother))⟩

/-- Seventeen points without an ace. -/
def noAces : Hand :=
  .ofSuits [.king, .queen, .jack, .two] [.king, .queen, .three] [.king, .jack, .four]
    [.queen, .three, .two]

/-- The dialogue about aces up to an answer in the strain. -/
def acesTold (strain : Strain) : List Call :=
  [.of 1 .notrump, .pass, .of 4 .clubs, .pass, .of 4 strain, .pass]

/-- Over an answer of four hearts a responder without aces stops in four notrump, the lowest bid in
notrump. -/
theorem signoff_lowest_iff_hearts :
    let context := Context.ofHand noAces (.ofCalls .north (acesTold .hearts)) .south
    Reachable (some .north) context.auction ∧ context.auction.calls ∈ afterAceAnswer ∧
      totalAces context < 3 ∧
      ∃ node level, (tree.descend context).ending = .bid node (.of level .notrump) ∧
        node.name = "gerber-signoff" ∧ IsLowestNotrump context.auction context.seat level := by
  intro context
  have hreach : Reachable (some .north) context.auction := reachable_ofCalls (by decide)
  have hanswer : context.auction.calls ∈ afterAceAnswer := by decide
  have haces : totalAces context < 3 := by decide
  obtain ⟨-, node, level, hending, hname, hlowest⟩ := signoff_lowest_iff hreach hanswer haces
  exact ⟨hreach, hanswer, haces, node, level, hending, hname, hlowest.mpr (by decide)⟩

/-- Over an answer of four spades a responder without aces signs off in five notrump, although four
notrump is permitted. -/
theorem signoff_overbids_spades :
    let context := Context.ofHand noAces (.ofCalls .north (acesTold .spades)) .south
    Reachable (some .north) context.auction ∧ context.auction.calls ∈ afterAceAnswer ∧
      totalAces context < 3 ∧
      (∃ node, (tree.descend context).ending = .bid node (.of 5 .notrump) ∧
        node.name = "gerber-signoff") ∧
      context.auction.permits (.of 4 .notrump) context.seat = true ∧
      ¬ IsLowestNotrump context.auction context.seat 5 := by
  intro context
  have hfour : context.auction.permits (.of 4 .notrump) context.seat = true := by decide
  exact ⟨reachable_ofCalls (by decide), by decide, by decide, ⟨_, rfl, rfl⟩, hfour,
    fun hlowest ↦ absurd (hlowest.2 4 hfour) (by decide)⟩

end Gerber

end BridgeBidding
