import BridgeBidding.Hand.Sample
import BridgeBidding.Proofs.Auction.Length
import BridgeBidding.Proofs.Trainer.Suggesting

/-!
# Bidding out an auction

Bidding out makes one move after another: what is suggested to the seat whose turn it is, or a pass
for want of a suggestion (`Trainer.IsMove`).  As long as it is known for every auction what is
suggested, there is a move after every legal auction that has not ended, and it leads to a legal
auction again (`Trainer.exists_isMove`).  Since a legal auction has room for only so many calls, the
moves come to an end, and bidding out with a limit makes the first of them
(`Trainer.bidOut_eq_take`).

With the built-in conventions it is known what is suggested, so `Trainer.bidOut_ends` says that any
deal can be bid out.
-/

set_option autoImplicit false
set_option relaxedAutoImplicit false

namespace BridgeBidding.Trainer

open Auction Success

variable {trainer : Trainer} {systems : Systems} {deal : Deal} {dealer : Seat}
  {calls : List Call} {moves : List Move}

/-! ### One move -/

/-- The move makes what is suggested to the seat whose turn it is, unchanged, or a pass for want of
a suggestion.  It can be made and leads to the auction `next`. -/
def IsMove (trainer : Trainer) (systems : Systems) (deal : Deal) (auction : Auction) (move : Move)
    (next : Auction) : Prop :=
  ∃ seat suggestion?, auction.toAct? = some seat ∧
    trainer.suggestNext? deal auction systems = .ok suggestion? ∧
    move.toAct? = some seat ∧
    move.call = (suggestion?.map Suggestion.call).getD .pass ∧
    move.bidName? = (suggestion?.map fun suggestion ↦ suggestion.bid.name) ∧
    auction.add ⟨seat, move.call⟩ = .ok next

/-- Bidding once makes the move. -/
theorem bidOnce_of_isMove {drill : Drill} {move : Move} {next : Auction}
    (h : IsMove trainer systems drill.deal drill.auction move next) :
    trainer.bidOnce systems drill = .ok (move, { drill with auction := next }) := by
  obtain ⟨seat, suggestion?, hturn, hsuggestion, hseat, hcall, hname, hadd⟩ := h
  have hcaller : drill.caller = seat := by rw [Drill.caller, hturn, Option.getD_some]
  have hplay : drill.play move.call = .ok { drill with auction := next } := by
    rw [Drill.play, hcaller, hadd, ok_bind]
    rfl
  have hmove : move = ⟨drill.auction.toAct?, (suggestion?.map Suggestion.call).getD .pass,
      suggestion?.map fun suggestion ↦ suggestion.bid.name⟩ := by
    rw [hturn, ← hseat, ← hcall, ← hname]
  rw [hcall] at hplay
  rw [bidOnce, hsuggestion, ok_bind, hmove]
  cases suggestion? with
  | none =>
    have hpass : drill.play .pass = .ok { drill with auction := next } := hplay
    simp only [hpass, ok_mapError, ok_bind]
    rfl
  | some suggestion =>
    have hmade : drill.play suggestion.call = .ok { drill with auction := next } := hplay
    simp only [hmade, ok_mapError, ok_bind]
    rfl

/-- A move cannot be made after the end. -/
theorem IsMove.isOver_eq_false {auction next : Auction} {move : Move}
    (h : IsMove trainer systems deal auction move next) : auction.isOver = false := by
  obtain ⟨seat, -, hturn, -, -, -, -, hadd⟩ := h
  exact isOver_of_permits ((add_eq_ok_iff hturn).mp hadd).2.1

/-- After a legal auction that has not ended there is a move, and the auction stays legal. -/
theorem exists_isMove
    (hsuggests : ∀ auction, ∃ suggestion?, trainer.suggestNext? deal auction systems =
      .ok suggestion?)
    (hlegal : IsLegal dealer calls) (hopen : ¬ Finished calls) :
    ∃ move, IsMove trainer systems deal (ofCalls dealer calls) move
        (ofCalls dealer (calls ++ [move.call])) ∧
      IsLegal dealer (calls ++ [move.call]) := by
  obtain ⟨suggestion?, hsuggestion⟩ := hsuggests (ofCalls dealer calls)
  have hpermits : (ofCalls dealer calls).permits ((suggestion?.map Suggestion.call).getD .pass)
      (dealer.advance calls.length) = true := by
    cases suggestion? with
    | none => exact (hlegal.permits_iff hopen).mpr trivial
    | some suggestion =>
      obtain ⟨seat, hturn, hpermits⟩ := permits_of_suggestNext? hsuggestion
      rw [toAct?_ofCalls] at hturn
      obtain rfl := Option.some.inj hturn
      exact hpermits
  have hcall := isLegal_concat_iff.mpr ⟨hlegal, (hlegal.permits_iff hopen).mp hpermits, hopen⟩
  exact ⟨⟨some (dealer.advance calls.length), _, _⟩,
    ⟨_, suggestion?, toAct?_ofCalls dealer calls, hsuggestion, rfl, rfl, rfl,
      hlegal.add_eq_ok hcall⟩, hcall⟩

/-! ### All moves -/

/-- The moves are made one after another from the dealer on. -/
def Moves (trainer : Trainer) (systems : Systems) (deal : Deal) (dealer : Seat)
    (moves : List Move) : Prop :=
  ∀ before move after, moves = before ++ move :: after →
    IsMove trainer systems deal (ofCalls dealer (before.map Move.call)) move
      (ofCalls dealer ((before ++ [move]).map Move.call))

/-- A further move may be made. -/
theorem Moves.concat {move : Move} (h : Moves trainer systems deal dealer moves)
    (hmove : IsMove trainer systems deal (ofCalls dealer (moves.map Move.call)) move
      (ofCalls dealer ((moves ++ [move]).map Move.call))) :
    Moves trainer systems deal dealer (moves ++ [move]) := by
  intro before made after hsplit
  rcases split_concat hsplit with ⟨rfl, rfl⟩ | ⟨between, hearlier⟩
  · exact hmove
  · exact h before made between hearlier

/-- Moves that make a legal auction can be continued to the end of the auction, since every further
one leaves room for fewer calls. -/
theorem exists_finished
    (hsuggests : ∀ auction, ∃ suggestion?, trainer.suggestNext? deal auction systems =
      .ok suggestion?)
    (hmoves : Moves trainer systems deal dealer moves)
    (hlegal : IsLegal dealer (moves.map Move.call)) :
    ∃ all, Moves trainer systems deal dealer all ∧ IsLegal dealer (all.map Move.call) ∧
      Finished (all.map Move.call) := by
  induction hsize : (room (moves.map Move.call)).size using Nat.strongRecOn generalizing moves with
  | ind size ih =>
    by_cases hfinished : Finished (moves.map Move.call)
    · exact ⟨moves, hmoves, hlegal, hfinished⟩
    · obtain ⟨move, hmove, hnext⟩ := exists_isMove hsuggests hlegal hfinished
      have hdecreases := size_room_concat_lt hnext
      rw [← List.map_singleton, ← List.map_append] at hmove hnext hdecreases
      rw [hsize] at hdecreases
      exact ih _ hdecreases (hmoves.concat hmove) hnext rfl

/-- Of moves up to the end of the auction, bidding out makes those within the limit. -/
theorem bidOut_eq_take {drill : Drill} {before later : List Move}
    (hmoves : Moves trainer systems drill.deal dealer (before ++ later))
    (hover : (ofCalls dealer ((before ++ later).map Move.call)).isOver = true) (limit : Nat) :
    trainer.bidOut systems limit
        { drill with auction := ofCalls dealer (before.map Move.call) } =
      (.ok (later.take limit),
        { drill with auction := ofCalls dealer ((before ++ later.take limit).map Move.call) }) := by
  induction limit generalizing before later with
  | zero => rw [bidOut, List.take_zero, List.append_nil]
  | succ limit ih =>
    cases later with
    | nil =>
      rw [List.append_nil] at hover
      rw [bidOut, if_pos hover, List.take_nil, List.append_nil]
    | cons move rest =>
      have hmove := hmoves before move rest rfl
      have hopen : ¬ (ofCalls dealer (before.map Move.call)).isOver = true := by
        rw [hmove.isOver_eq_false]
        exact Bool.false_ne_true
      rw [List.append_cons] at hmoves hover
      rw [bidOut, if_neg hopen, bidOnce_of_isMove hmove]
      dsimp only
      rw [ih hmoves hover, List.take_succ_cons, List.append_cons before move (rest.take limit)]
      rfl

/-- With the built-in conventions, a hand for every seat and any dealer, bidding out never fails:
there are moves, 319 at most, that end the auction, each of which makes what is suggested to the
seat whose turn it is or a pass, and a limit stops them early and does nothing else.  Whatever the
conventions and the auction, a call that is suggested can be added for the seat whose turn it is. -/
theorem bidOut_ends (hregistry : trainer.registry = .standard)
    (hsystems : ∀ seat, ∀ id ∈ systems seat, id ∈ Registry.standard.ids) {drill : Drill}
    (hhands : ∀ seat, (drill.deal.hand? seat).isSome = true)
    (hstart : drill.auction = .empty (some dealer)) :
    (∃ moves, Moves trainer systems drill.deal dealer moves ∧ moves.length ≤ 319 ∧
      (ofCalls dealer (moves.map Move.call)).isOver = true ∧
      ∀ limit, trainer.bidOut systems limit drill =
        (.ok (moves.take limit),
          { drill with auction := ofCalls dealer ((moves.take limit).map Move.call) })) ∧
    ∀ (trainer : Trainer) (systems : Systems) (deal : Deal) (auction : Auction)
      (suggestion : Suggestion),
      trainer.suggestNext? deal auction systems = .ok (some suggestion) →
        ∃ seat next, auction.toAct? = some seat ∧
          auction.add ⟨seat, suggestion.call⟩ = .ok next := by
  refine ⟨?_, fun _ _ _ _ _ ↦ exists_add_of_suggestNext?⟩
  have hnone : Moves trainer systems drill.deal dealer [] := by
    intro before move after hsplit
    cases before <;> cases hsplit
  obtain ⟨moves, hmoves, hlegal, hfinished⟩ :=
    exists_finished (exists_suggestNext? hregistry hsystems hhands) hnone (isLegal_nil dealer)
  have hover : (ofCalls dealer (moves.map Move.call)).isOver = true :=
    (isFinished_inTurn_iff hlegal).mpr hfinished
  have hlength := hlegal.length_le
  rw [List.length_map] at hlength
  refine ⟨moves, hmoves, hlength, hover, fun limit ↦ ?_⟩
  have hbegin : drill = { drill with auction := ofCalls dealer (List.map Move.call []) } := by
    change drill = { drill with auction := .empty (some dealer) }
    rw [← hstart]
  rw [hbegin]
  exact bidOut_eq_take hmoves hover limit

/-- A notrump opening opposite four spades and four hearts, before the first call. -/
def majorFit : Drill where
  convention := "stayman"
  deal := { hand? := fun
    | .north => some .strongNotrump
    | .east => some <| .ofSuits [.jack, .ten, .nine] [.ace, .ten]
      [.queen, .jack, .ten, .nine] [.king, .queen, .jack, .ten]
    | .south => some <| .ofSuits [.king, .eight, .six, .four] [.queen, .seven, .five, .two]
      [.ace, .four, .three] [.five, .four]
    | .west => some <| .ofSuits [.seven, .three, .two] [.nine, .six, .three]
      [.eight, .six, .five] [.eight, .seven, .six, .two] }
  seat := .south
  auction := .empty (some .north)
  iterations := 1
  settings := .record []

/-- North and south find their hearts, east and west pass, and so does north in the end, for whom
there is no suggestion. -/
theorem bidOut_ends_majorFit :
    let trainer : Trainer := ⟨.standard, none⟩
    let systems : Systems := fun _ ↦ ["stayman", "gerber", "sayc"]
    trainer.registry = .standard ∧
      (∀ seat, ∀ id ∈ systems seat, id ∈ Registry.standard.ids) ∧
      (∀ seat, (majorFit.deal.hand? seat).isSome = true) ∧
      majorFit.auction = .empty (some .north) ∧
      ∃ moves : List Move,
        moves.map Move.call = [.of 1 .notrump, .pass, .of 2 .clubs, .pass, .of 2 .hearts, .pass,
          .of 3 .hearts, .pass, .pass, .pass] ∧
        ∀ limit, (trainer.bidOut systems limit majorFit).1 = .ok (moves.take limit) := by
  intro trainer systems
  have hsystems : ∀ seat, ∀ id ∈ systems seat, id ∈ Registry.standard.ids := by
    intro seat
    decide
  have hhands : ∀ seat, (majorFit.deal.hand? seat).isSome = true := by
    intro seat
    cases seat <;> rfl
  have hregistry : trainer.registry = .standard := rfl
  refine ⟨hregistry, hsystems, hhands, rfl, ?_⟩
  obtain ⟨moves, -, hlength, -, hbidOut⟩ := (bidOut_ends hregistry hsystems hhands rfl).1
  refine ⟨moves, ?_, fun limit ↦ by rw [hbidOut]⟩
  have hall := congrArg (fun result ↦ result.2.auction.calls) (hbidOut 319)
  rw [List.take_of_length_le hlength] at hall
  dsimp only at hall
  rw [calls_ofCalls] at hall
  rw [← hall]
  decide +kernel

end BridgeBidding.Trainer
