import BridgeBidding.Proofs.Convention.Turns
import BridgeBidding.Proofs.Deal.Dealing
import BridgeBidding.Proofs.Settings.Valid
import BridgeBidding.Proofs.Trainer.Turn
import BridgeBidding.Settings.Standard

/-!
# Starting a drill

A trainer that finds a built-in convention and valid settings for it has all that it takes to start
a drill.  The settings state the plan, the cards can be dealt after every shuffle, and every
built-in convention opens an auction on any four hands, for any seat
(`Trainer.exists_openingAuction`).  What remains is that no deal fits the convention within the
number of attempts that the settings allow (`Trainer.start_cases`).
-/

set_option autoImplicit false
set_option relaxedAutoImplicit false

namespace BridgeBidding

open Success

namespace Trainer

variable {σ : Type} {trainer : Trainer} {shuffler : Shuffler σ} {state : σ} {id : String}
  {seat? : Option Seat} {overrides : Value} {convention : Convention} {settings : Settings}

/-! ### The opening auction -/

/-- A built-in convention finds nothing to object to in four hands. -/
theorem exists_opening_of_mem_builtin {deal : Deal} {hands : Seat → Hand}
    (hbuiltin : convention ∈ Registry.builtin) (hdeal : deal.SharesDeck hands) (seat : Seat) :
    ∃ auction?, convention.opening seat (some deal) = .ok auction? := by
  simp only [Registry.builtin, List.mem_cons, List.not_mem_nil, or_false] at hbuiltin
  rcases hbuiltin with rfl | rfl | rfl | rfl | rfl | rfl
  case inr.inr.inl =>
    cases seat with
    | south => exact ⟨_, Bergen.opening_of_hand? (hdeal.hand?_eq .north)⟩
    | _ => exact ⟨none, rfl⟩
  all_goals exact ⟨_, rfl⟩

/-- The built-in conventions open auctions in which somebody is still to call. -/
theorem isOver_openingAuction {dealer seat : Seat} {deal : Deal} {auction : Auction}
    (hbuiltin : convention ∈ Registry.builtin)
    (h : openingAuction convention dealer seat deal = .ok auction) : auction.isOver = false := by
  obtain ⟨auction?, hopening, hauction⟩ := bind_eq_ok_iff.mp h
  obtain rfl := Except.ok.inj hauction
  cases auction? with
  | none => rfl
  | some auction =>
    rcases opening_of_mem_builtin hbuiltin (mapError_eq_ok_iff.mp hopening) with
      rfl | ⟨strain, rfl⟩ | rfl | rfl
    all_goals rfl

/-- On any four hands a built-in convention opens an auction, which can be reached and goes on. -/
theorem exists_openingAuction {deal : Deal} {hands : Seat → Hand}
    (hbuiltin : convention ∈ Registry.builtin) (hdeal : deal.SharesDeck hands)
    (dealer seat : Seat) :
    ∃ auction, openingAuction convention dealer seat deal = .ok auction ∧
      (∃ first, Auction.Reachable (some first) auction) ∧ auction.isOver = false := by
  obtain ⟨auction?, hopening⟩ := exists_opening_of_mem_builtin hbuiltin hdeal seat
  have hauction : openingAuction convention dealer seat deal =
      .ok (auction?.getD (.empty (some dealer))) := by
    rw [openingAuction, hopening, ok_mapError, ok_bind, pure_eq_ok]
  exact ⟨_, hauction, reachable_openingAuction hbuiltin hauction,
    isOver_openingAuction hbuiltin hauction⟩

/-! ### From settings to a drill -/

/-- The state that the shuffler deals from: that of the seed, if the plan has one. -/
def dealingState (shuffler : Shuffler σ) (state : σ) (plan : DrillPlan) : σ :=
  plan.seed.elim state shuffler.start

/-- With a convention and settings, it all depends on the deal. -/
theorem start_eq (hconvention : trainer.convention id = .ok convention)
    (hsettings : trainer.settings id overrides = .ok settings) :
    (trainer.start shuffler state id seat? overrides).1 = (do
      let plan := DrillPlan.ofSettings settings
      let dealt ← (dealFor convention plan shuffler
        (dealingState shuffler state plan)).1.mapError TrainerError.deal
      drillOf convention (seat?.getD plan.seat) settings dealt) := by
  rw [start, hconvention, hsettings]
  unfold dealingState
  cases hseed : (DrillPlan.ofSettings settings).seed with
  | none => simp [hseed]
  | some seed => simp [hseed]

/-- The drill is one of the convention, for the seat that is asked for or else the one of the plan,
with a deal that fits the convention and an auction that can be reached and goes on. -/
structure IsStart (convention : Convention) (settings : Settings) (plan : DrillPlan)
    (seat? : Option Seat) (drill : Drill) : Prop where
  convention_eq : drill.convention = convention.id
  seat_eq : drill.seat = seat?.getD plan.seat
  settings_eq : drill.settings = .record settings
  admits_deal : convention.constraints.admits drill.deal = true
  dealer_eq : drill.deal.dealer = convention.constraints.dealer
  vulnerability_eq : drill.deal.vulnerability = plan.vulnerability
  reachable_auction : ∃ first, Auction.Reachable (some first) drill.auction
  isOver_auction : drill.auction.isOver = false

/-- By a plan with a number of attempts a deal is found that fits the convention, or none within
that number. -/
theorem dealFor_cases (convention : Convention) (shuffler : Shuffler σ) (state : σ)
    {plan : DrillPlan} {number : Int} (hattempts : plan.attempts = some number)
    (hpositive : 0 < number) :
    (∃ dealt, (dealFor convention plan shuffler state).1 = .ok dealt ∧
      (∃ hands, dealt.deal.SharesDeck hands) ∧
      convention.constraints.admits dealt.deal = true ∧
      dealt.deal.dealer = convention.constraints.dealer ∧
      dealt.deal.vulnerability = plan.vulnerability) ∨
    (dealFor convention plan shuffler state).1 =
      .error (.exhausted number (convention.constraints.seats.map SeatConstraint.seat)) := by
  unfold dealFor
  rcases ({ convention.constraints with vulnerability := plan.vulnerability } :
      DealConstraints).generate_cases shuffler state plan.attempts with
    ⟨dealt, hfits, -, -, hdealt⟩ | ⟨-, hexhausted⟩
  · rw [hdealt]
    exact .inl ⟨dealt, rfl, hfits.exists_sharesDeck, hfits.admits, hfits.dealer_eq,
      hfits.vulnerability_eq⟩
  · rw [hexhausted, hattempts, DealConstraints.attempts_some _ hpositive.ne']
    exact .inr rfl

theorem drillOf_eq {seat : Seat} {dealt : Dealt} {auction : Auction}
    (h : openingAuction convention convention.constraints.dealer seat dealt.deal = .ok auction) :
    drillOf convention seat settings dealt =
      .ok ⟨convention.id, dealt.deal, seat, auction, dealt.iterations, .record settings⟩ := by
  rw [drillOf, h, ok_bind, pure_eq_ok]

/-- A trainer with a built-in convention and settings that are accepted reads its whole plan off
them.  It starts a drill by that plan, or no deal fits the convention within the number of attempts
that the settings state, and nothing else goes wrong. -/
theorem start_cases (shuffler : Shuffler σ) (state : σ) (seat? : Option Seat)
    (hbuiltin : convention ∈ Registry.builtin)
    (hconvention : trainer.convention id = .ok convention)
    (hsettings : trainer.settings id overrides = .ok settings) :
    DrillPlan.States settings (DrillPlan.ofSettings settings) ∧
    ((∃ drill, (trainer.start shuffler state id seat? overrides).1 = .ok drill ∧
        IsStart convention settings (DrillPlan.ofSettings settings) seat? drill) ∨
      ∃ number : Int, settings.value? "deal" "max_attempts" = some (.int number) ∧
        (trainer.start shuffler state id seat? overrides).1 = .error (.deal (.exhausted number
          (convention.constraints.seats.map SeatConstraint.seat)))) := by
  have hstates := DrillPlan.states_ofSettings
    (Settings.isValid_of_loadValid (mapError_eq_ok_iff.mp hsettings))
  refine ⟨hstates, ?_⟩
  rw [start_eq hconvention hsettings]
  generalize DrillPlan.ofSettings settings = plan at hstates ⊢
  obtain ⟨number, hpositive, hattempts, hstated⟩ := hstates.attempts
  simp only
  rcases dealFor_cases convention shuffler (dealingState shuffler state plan) hattempts hpositive
    with ⟨dealt, hdealt, ⟨hands, hshares⟩, hadmits, hdealer, hvulnerability⟩ | hexhausted
  · obtain ⟨auction, hauction, hreachable, hopen⟩ := exists_openingAuction hbuiltin hshares
      convention.constraints.dealer (seat?.getD plan.seat)
    rw [hdealt, ok_mapError, ok_bind, drillOf_eq hauction]
    exact .inl ⟨_, rfl, {
      convention_eq := rfl
      seat_eq := rfl
      settings_eq := rfl
      admits_deal := hadmits
      dealer_eq := hdealer
      vulnerability_eq := hvulnerability
      reachable_auction := hreachable
      isOver_auction := hopen }⟩
  · refine .inr ⟨number, hstated, ?_⟩
    rw [hexhausted, error_mapError, error_bind]

/-- What is asked for a session: both sides vulnerable, and a fixed seed. -/
def bothVulnerable : Value :=
  .record [("trainer", .record [("vulnerability", .text "Both")]),
    ("deal", .record [("seed", .int 7)])]

/-- A drill of the natural system by the standard document. -/
theorem start_cases_sayc :
    ∃ settings drill,
      Trainer.settings ⟨.standard, some .standard⟩ "sayc" bothVulnerable = .ok settings ∧
      DrillPlan.ofSettings settings =
        { seat := .south, vulnerability := .both, attempts := some 10000, seed := some 7 } ∧
      (start ⟨.standard, some .standard⟩ .congruential 0 "sayc" none bothVulnerable).1 =
        .ok drill ∧
      IsStart Sayc.convention settings (DrillPlan.ofSettings settings) none drill := by
  have hloaded : (Trainer.settings ⟨.standard, some .standard⟩ "sayc"
      bothVulnerable).toOption.map DrillPlan.ofSettings =
        some { seat := .south, vulnerability := .both, attempts := some 10000, seed := some 7 } :=
    rfl
  have hstarted : (start ⟨.standard, some .standard⟩ .congruential 0 "sayc" none
      bothVulnerable).1.toOption.isSome = true := by decide +kernel
  have hbuiltin : Sayc.convention ∈ Registry.builtin := by simp [Registry.builtin]
  cases hsettings : Trainer.settings ⟨.standard, some .standard⟩ "sayc" bothVulnerable with
  | error error =>
    rw [hsettings] at hloaded
    cases hloaded
  | ok settings =>
    rw [hsettings] at hloaded
    rcases (start_cases .congruential 0 none hbuiltin rfl hsettings).2 with
      ⟨drill, hstart, hdrill⟩ | ⟨number, -, hstart⟩
    · exact ⟨settings, drill, rfl, Option.some.inj hloaded, hstart, hdrill⟩
    · rw [hstart] at hstarted
      cases hstarted

end Trainer

end BridgeBidding
