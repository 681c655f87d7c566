import BridgeBidding.Trainer

/-!
# Suggesting calls

A seat that plays several conventions asks them one after another and makes the first call that one
of them suggests (`Trainer.suggest?`).  `Trainer.suggestNext?` suggests a call to whichever seat is
to call, from the conventions of its partnership, and `Trainer.bidOut` goes on with an auction by
such calls, passing whenever there is none.
-/

set_option autoImplicit false
set_option relaxedAutoImplicit false

namespace BridgeBidding

/-- The ids of the conventions that each seat plays, in the order in which they are asked. -/
abbrev Systems := Seat → List String

namespace Systems

/-- The conventions of a partnership: those of the seat, else those of its partner. -/
def ofPartnership (systems : Systems) (seat : Seat) : List String :=
  if (systems seat).isEmpty then systems seat.partner else systems seat

end Systems

/-- A call of an auction that is bid out: whose turn it was, and the name of the bid, unless the
call is a pass for want of a suggestion. -/
structure Move where
  toAct? : Option Seat
  call : Call
  bidName? : Option String

namespace Trainer

/-- The first suggestion of the conventions, illegal calls being skipped. -/
def firstSuggestion? (trainer : Trainer) (context : Context) :
    List String → Except TrainerError (Option Suggestion)
  | [] => .ok none
  | id :: rest => do
    let convention ← trainer.convention id
    let found ← (convention.suggest? context true).mapError TrainerError.failure
    match found with
    | some suggestion => return some suggestion
    | none => trainer.firstSuggestion? context rest

/-- The first suggestion of the conventions; none if it is another seat's turn. -/
def suggest? (trainer : Trainer) (context : Context) (ids : List String) :
    Except TrainerError (Option Suggestion) :=
  if context.auction.toAct?.all fun seat ↦ decide (seat = context.seat) then
    trainer.firstSuggestion? context ids
  else
    .ok none

/-- The suggestion for the seat whose turn it is.  There is none after the auction is over, nor for
a partnership without conventions. -/
def suggestNext? (trainer : Trainer) (deal : Deal) (auction : Auction) (systems : Systems) :
    Except TrainerError (Option Suggestion) :=
  match auction.isOver, auction.toAct? with
  | false, some seat =>
    match systems.ofPartnership seat with
    | [] => .ok none
    | ids => do
      let hand ← (deal.hand seat).mapError TrainerError.deal
      trainer.suggest? (.ofHand hand auction seat none deal.vulnerability auction.dealer) ids
  | _, _ => .ok none

/-- The next call of an auction that is bid out, and the drill after it. -/
def bidOnce (trainer : Trainer) (systems : Systems) (drill : Drill) :
    Except TrainerError (Move × Drill) := do
  let suggestion? ← trainer.suggestNext? drill.deal drill.auction systems
  let call := match suggestion? with
    | some suggestion => suggestion.call
    | none => .pass
  let next ← (drill.play call).mapError TrainerError.play
  let name? := suggestion?.map fun suggestion ↦ suggestion.bid.name
  return ({ toAct? := drill.auction.toAct?, call, bidName? := name? }, next)

/-- Bids out an auction with at most `limit` calls.  The drill comes back after all calls that were
made, even if the next one could not be. -/
def bidOut (trainer : Trainer) (systems : Systems) :
    Nat → Drill → Except TrainerError (List Move) × Drill
  | 0, drill => (.ok [], drill)
  | limit + 1, drill =>
    if drill.auction.isOver then
      (.ok [], drill)
    else
      match trainer.bidOnce systems drill with
      | .error error => (.error error, drill)
      | .ok (move, next) =>
        let (moves, last) := trainer.bidOut systems limit next
        (moves.map (move :: ·), last)

end Trainer

end BridgeBidding
