import BridgeBidding.Proofs.Auction.LegalCalls
import BridgeBidding.Proofs.Auction.Reachable
import BridgeBidding.Proofs.Success
import BridgeBidding.Trainer.Grading

/-!
# Grading and the turn

A call is graded if it is permitted to the seat that practises, whether or not it is its turn
(`Trainer.accepts_iff_permits`).  An auction keeps to the turn.  So a call that is graded can be
added to the auction for the seat that practises if no other seat is to call, and not otherwise
(`Trainer.add_iff_accepts_and_turn`).

`Trainer.Practised` are the drills that a trainer starts and those that come from them by calls.
With the built-in conventions their auctions can be reached from the empty one, so that somebody is
always to call (`Trainer.Practised.reachable`).  In these drills a call that is graded can be added
exactly at the turn of the seat that practises (`Trainer.Practised.adds_iff_isOnBid`).
-/

set_option autoImplicit false
set_option relaxedAutoImplicit false

namespace BridgeBidding

open Success

namespace Trainer

variable {σ : Type} {trainer : Trainer} {shuffler : Shuffler σ} {drill next : Drill} {call : Call}

/-! ### What is graded -/

/-- The trainer does not refuse the call as illegal. -/
def Accepts (trainer : Trainer) (drill : Drill) (call : Call) : Prop :=
  ∀ error, trainer.grade drill call ≠ .error (.play error)

/-- Settings that cannot be read are no illegal call. -/
theorem skipsIllegal_ne_play (drill : Drill) (error : PlayError) :
    drill.skipsIllegal ≠ .error (.play error) := by
  intro hskips
  unfold Drill.skipsIllegal at hskips
  split at hskips
  · split at hskips
    · cases hskips
    · cases hskips
  · cases hskips

/-- The steps towards a grade fail in other ways than as an illegal call. -/
theorem accepts_of_permits (h : drill.auction.permits call drill.seat = true) :
    trainer.Accepts drill call := by
  intro error
  rw [grade, if_pos h]
  refine bind_ne_error (mapError_ne_error nofun) fun convention ↦ ?_
  refine bind_ne_error (mapError_ne_error nofun) fun context ↦ ?_
  refine bind_ne_error ?_ fun expected? ↦ ?_
  · refine bind_ne_error (skipsIllegal_ne_play drill error) fun skipIllegal ↦ ?_
    exact mapError_ne_error nofun
  · exact bind_ne_error (mapError_ne_error nofun) fun siblings ↦ nofun

/-- What is accepted does not depend on whose turn it is. -/
theorem accepts_iff_permits :
    trainer.Accepts drill call ↔ drill.auction.permits call drill.seat = true := by
  refine ⟨fun haccepts ↦ ?_, accepts_of_permits⟩
  by_contra hpermits
  refine haccepts (.illegal drill.auction ⟨drill.seat, call⟩) ?_
  rw [grade, if_neg hpermits]

/-! ### What is graded and what can be added -/

/-- No other seat is to call. -/
theorem caller_eq_seat_iff :
    drill.caller = drill.seat ↔
      drill.auction.toAct? = none ∨ drill.auction.toAct? = some drill.seat := by
  unfold Drill.caller
  cases drill.auction.toAct? with
  | none => exact iff_of_true rfl (Or.inl rfl)
  | some seat => simp

/-- The seat that practises can add a call if the call is accepted from it and no other seat is to
call. -/
theorem exists_add_iff (trainer : Trainer) :
    (∃ next, drill.auction.add ⟨drill.seat, call⟩ = .ok next) ↔
      trainer.Accepts drill call ∧ drill.caller = drill.seat := by
  rw [accepts_iff_permits, caller_eq_seat_iff, and_comm]
  simp only [Auction.add_eq_ok_iff_permits, exists_and_left, exists_eq', and_true]

/-- What is accepted can be added, whatever the call is, if no other seat is to call or nothing is
accepted any more. -/
theorem agree_iff :
    (∀ call, (∃ next, drill.auction.add ⟨drill.seat, call⟩ = .ok next) ↔
        trainer.Accepts drill call) ↔
      drill.caller = drill.seat ∨ drill.auction.isOver = true := by
  constructor
  · intro hagree
    by_contra hneither
    obtain ⟨hturn, hopen⟩ := not_or.mp hneither
    -- a pass is accepted as long as the auction goes on
    have hpass : trainer.Accepts drill .pass :=
      accepts_of_permits (Auction.permits_pass (by simpa using hopen) drill.seat)
    exact hturn ((exists_add_iff trainer).mp ((hagree .pass).mpr hpass)).2
  · rintro (hturn | hover) call
    · rw [exists_add_iff trainer, and_iff_left hturn]
    · have hrefused : ¬ trainer.Accepts drill call := by
        intro haccepts
        rw [Auction.isOver_of_permits (accepts_iff_permits.mp haccepts)] at hover
        cases hover
      exact iff_of_false (fun hadded ↦ hrefused ((exists_add_iff trainer).mp hadded).1) hrefused

/-- The seat that practises can add the calls that are accepted from it if no other seat is to call,
and otherwise none.  So the two agree on all calls if no other seat is to call or the auction is
over, when neither allows any, and in no other drill. -/
theorem add_iff_accepts_and_turn (trainer : Trainer) (drill : Drill) :
    (∀ call, (∃ next, drill.auction.add ⟨drill.seat, call⟩ = .ok next) ↔
      trainer.Accepts drill call ∧ drill.caller = drill.seat) ∧
    ((∀ call, (∃ next, drill.auction.add ⟨drill.seat, call⟩ = .ok next) ↔
        trainer.Accepts drill call) ↔
      drill.caller = drill.seat ∨ drill.auction.isOver = true) :=
  ⟨fun _ ↦ exists_add_iff trainer, agree_iff⟩

/-- East practises Stayman after one notrump by north and a pass of its own, when south is to call.
A pass is accepted from east, but cannot be added for it. -/
theorem accepts_out_of_turn_stayman :
    ∃ drill,
      (start ⟨.standard, none⟩ .congruential 132 "stayman" (some .east) .null).1 = .ok drill ∧
      Accepts ⟨.standard, none⟩ drill .pass ∧
      ¬ ∃ next, drill.auction.add ⟨drill.seat, .pass⟩ = .ok next := by
  have hstarted : (start ⟨.standard, none⟩ .congruential 132 "stayman" (some .east)
      .null).1.toOption.map (fun drill ↦ (drill.seat, drill.auction)) =
        some (.east, .ofCalls .north [.of 1 .notrump, .pass]) := by decide +kernel
  cases hstart : (start ⟨.standard, none⟩ .congruential 132 "stayman" (some .east) .null).1 with
  | error error =>
    rw [hstart] at hstarted
    cases hstarted
  | ok drill =>
    rw [hstart] at hstarted
    obtain ⟨hseat, hauction⟩ := Prod.mk.inj (Option.some.inj hstarted)
    refine ⟨drill, rfl, ?_, ?_⟩
    · rw [accepts_iff_permits, hseat, hauction]
      rfl
    · rw [hseat, hauction]
      rintro ⟨next, hadd⟩
      cases hadd

/-! ### Drills that are started and gone on with -/

/-- The drills that a trainer starts, and those that calls lead to from there. -/
inductive Practised (trainer : Trainer) (shuffler : Shuffler σ) : Drill → Prop
  | start {state : σ} {id : String} {seat? : Option Seat} {overrides : Value} {drill : Drill}
    (hstart : (trainer.start shuffler state id seat? overrides).1 = .ok drill) :
    Practised trainer shuffler drill
  | play {drill next : Drill} {call : Call} (hdrill : Practised trainer shuffler drill)
    (hplay : drill.play call = .ok next) : Practised trainer shuffler next

/-- The auction of a drill that starts is the opening auction of its convention. -/
theorem exists_openingAuction_of_start {state : σ} {id : String} {seat? : Option Seat}
    {overrides : Value} (h : (trainer.start shuffler state id seat? overrides).1 = .ok drill) :
    ∃ convention seat deal, trainer.convention id = .ok convention ∧
      openingAuction convention convention.constraints.dealer seat deal = .ok drill.auction := by
  -- a seed, and whether the deal succeeds, make no difference to what is done with the hands
  have hfinish {convention : Convention} {seat : Seat} {settings : Settings}
      {dealt : Except DealError Dealt} (hdrill : (do
        drillOf convention seat settings (← dealt.mapError TrainerError.deal)) = .ok drill) :
      ∃ seat deal, openingAuction convention convention.constraints.dealer seat deal =
        .ok drill.auction := by
    obtain ⟨dealt, -, hdrill⟩ := bind_eq_ok_iff.mp hdrill
    obtain ⟨auction, hopening, hmade⟩ := bind_eq_ok_iff.mp hdrill
    obtain rfl := Except.ok.inj hmade
    exact ⟨seat, dealt.deal, hopening⟩
  unfold start at h
  simp only at h
  split at h
  · cases h
  · rename_i convention settings hprepared
    obtain ⟨found, hconvention, hprepared⟩ := bind_eq_ok_iff.mp hprepared
    obtain ⟨loaded, -, hprepared⟩ := bind_eq_ok_iff.mp hprepared
    obtain ⟨rfl, rfl⟩ := Prod.mk.inj (Except.ok.inj hprepared)
    split at h
    all_goals
      obtain ⟨seat, deal, hopening⟩ := hfinish h
      exact ⟨found, seat, deal, hconvention, hopening⟩

/-- A bid, passed or not, is a beginning of an auction. -/
theorem reachable_bid (dealer : Seat) (bid : Bid) :
    Auction.Reachable (some dealer) (.ofCalls dealer [.bid bid]) ∧
      Auction.Reachable (some dealer) (.ofCalls dealer [.bid bid, .pass]) := by
  have hbid : Auction.Reachable (some dealer) (.ofCalls dealer [.bid bid]) :=
    Auction.Reachable.empty.add (Auction.add_eq_ok_iff_permits.mpr ⟨.inr rfl, rfl, rfl⟩)
  exact ⟨hbid, hbid.add (Auction.add_eq_ok_iff_permits.mpr ⟨.inr rfl, rfl, rfl⟩)⟩

/-- The auctions that the built-in conventions set up. -/
theorem opening_of_mem_builtin {convention : Convention} {seat : Seat} {deal : Deal}
    {auction : Auction} (hbuiltin : convention ∈ Registry.builtin)
    (h : convention.opening seat (some deal) = .ok (some auction)) :
    auction = .ofCalls .north [.of 1 .notrump, .pass] ∨
      (∃ strain, auction = .ofCalls .north (Bergen.opened strain)) ∨
      auction = .ofCalls .east [.of 1 .notrump] ∨ auction = .empty (some seat) := by
  simp only [Registry.builtin, List.mem_cons, List.not_mem_nil, or_false] at hbuiltin
  rcases hbuiltin with rfl | rfl | rfl | rfl | rfl | rfl
  · cases seat <;> cases h <;> exact .inl rfl
  · cases seat <;> cases h <;> exact .inl rfl
  · refine .inr (.inl ?_)
    cases seat with
    | south =>
      obtain ⟨hand, -, hmade⟩ := bind_eq_ok_iff.mp h
      exact ⟨Bergen.openedBy hand, (Option.some.inj (Except.ok.inj hmade)).symm⟩
    | _ => cases h
  · cases seat <;> cases h
    exact .inr (.inr (.inl rfl))
  · cases seat <;> cases h
    exact .inr (.inr (.inl rfl))
  · cases h
    exact .inr (.inr (.inr rfl))

/-- The built-in conventions open with calls that can be made. -/
theorem reachable_openingAuction {convention : Convention} {dealer seat : Seat} {deal : Deal}
    {auction : Auction} (hbuiltin : convention ∈ Registry.builtin)
    (h : openingAuction convention dealer seat deal = .ok auction) :
    ∃ first, Auction.Reachable (some first) auction := by
  obtain ⟨auction?, hopening, hauction⟩ := bind_eq_ok_iff.mp h
  have hopening := mapError_eq_ok_iff.mp hopening
  obtain rfl := Except.ok.inj hauction
  cases auction? with
  | none => exact ⟨dealer, .empty⟩
  | some auction =>
    rcases opening_of_mem_builtin hbuiltin hopening with rfl | ⟨strain, rfl⟩ | rfl | rfl
    · exact ⟨.north, (reachable_bid .north _).2⟩
    · exact ⟨.north, (reachable_bid .north _).2⟩
    · exact ⟨.east, (reachable_bid .east _).1⟩
    · exact ⟨seat, .empty⟩

theorem mem_builtin_of_convention {id : String} {convention : Convention}
    (hregistry : trainer.registry = .standard) (h : trainer.convention id = .ok convention) :
    convention ∈ Registry.builtin := by
  have hget := mapError_eq_ok_iff.mp h
  rw [hregistry, Registry.get] at hget
  split at hget
  · obtain rfl := Except.ok.inj hget
    exact List.mem_of_find?_eq_some (by assumption)
  · cases hget

/-- With the built-in conventions, the auction of a drill can be reached. -/
theorem Practised.reachable (hregistry : trainer.registry = .standard)
    (h : Practised trainer shuffler drill) :
    ∃ first, Auction.Reachable (some first) drill.auction := by
  induction h with
  | start hstart =>
    obtain ⟨convention, seat, deal, hconvention, hopening⟩ := exists_openingAuction_of_start hstart
    exact reachable_openingAuction (mem_builtin_of_convention hregistry hconvention) hopening
  | @play drill next call _ hplay ih =>
    obtain ⟨first, hreach⟩ := ih
    obtain ⟨auction, hadd, hnext⟩ := bind_eq_ok_iff.mp hplay
    obtain rfl := Except.ok.inj hnext
    exact ⟨first, hreach.add hadd⟩

/-- With the built-in conventions, no other seat is to call exactly if it is the turn of the seat
that practises. -/
theorem Practised.caller_eq_iff (hregistry : trainer.registry = .standard)
    (h : Practised trainer shuffler drill) : drill.caller = drill.seat ↔ drill.isOnBid = true := by
  obtain ⟨first, hreach⟩ := h.reachable hregistry
  obtain ⟨seat, hturn⟩ := hreach.exists_toAct?
  rw [caller_eq_seat_iff, Drill.isOnBid, decide_eq_true_iff, hturn]
  simp only [reduceCtorEq, false_or]

/-- In a drill for a built-in convention, what is accepted from the seat that practises can be added
for it at its turn and at no other time.  The two agree on all calls at its turn and once the
auction is over, and in no other drill. -/
theorem Practised.adds_iff_isOnBid (hregistry : trainer.registry = .standard)
    (h : Practised trainer shuffler drill) :
    (∀ call, (∃ next, drill.auction.add ⟨drill.seat, call⟩ = .ok next) ↔
      trainer.Accepts drill call ∧ drill.isOnBid = true) ∧
    ((∀ call, (∃ next, drill.auction.add ⟨drill.seat, call⟩ = .ok next) ↔
        trainer.Accepts drill call) ↔
      drill.isOnBid = true ∨ drill.auction.isOver = true) := by
  rw [← h.caller_eq_iff hregistry]
  exact ⟨fun _ ↦ exists_add_iff trainer, agree_iff⟩

end Trainer

end BridgeBidding
