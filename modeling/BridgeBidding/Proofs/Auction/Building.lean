import BridgeBidding.Proofs.Auction.Legality
import Mathlib.Data.List.Forall2

/-!
# Which written auctions can be played

Written calls are played one by one, each read and added before the next is looked at.
`Auction.build_isLegal` says what comes of it: an auction exactly when all of them can be read and
the calls are a legal auction, and otherwise the error of the first element that cannot be read,
comes after the end, or breaks the laws.
-/

set_option autoImplicit false
set_option relaxedAutoImplicit false

namespace BridgeBidding.Auction

/-- The calls are those that the written elements stand for, one for one. -/
def Reads (written : List Value) (calls : List Call) : Prop :=
  List.Forall₂ (fun element call ↦ Call.readValue element = .ok call) written calls

/-- The error of an element that comes after legal calls and does not go on with them. -/
inductive Offence (dealer : Seat) (calls : List Call) (element : Value) : AuctionError → Prop
  | unreadable {error : CallError} (hread : Call.readValue element = .error error) :
    Offence dealer calls element (.call error)
  | finished {call : Call} (hread : Call.readValue element = .ok call)
    (hfinished : Finished calls) :
    Offence dealer calls element
      (.play (.finished (ofCalls dealer calls) ⟨dealer.advance calls.length, call⟩))
  | illegal {call : Call} (hread : Call.readValue element = .ok call)
    (hfinished : ¬ Finished calls) (hlegal : ¬ IsLegal dealer (calls ++ [call])) :
    Offence dealer calls element
      (.play (.illegal (ofCalls dealer calls) ⟨dealer.advance calls.length, call⟩))

variable {dealer : Seat} {calls : List Call}

/-- An element offends only if the calls up to it are not a legal auction. -/
theorem Offence.not_isLegal {element : Value} {error : AuctionError}
    (h : Offence dealer calls element error) {call : Call}
    (hread : Call.readValue element = .ok call) : ¬ IsLegal dealer (calls ++ [call]) := by
  intro hlegal
  cases h with
  | unreadable hunread => exact absurd (hread.symm.trans hunread) (by simp)
  | finished _ hfinished => exact (isLegal_concat_iff.mp hlegal).2.2 hfinished
  | illegal hother _ hillegal =>
    rw [hread, Except.ok.injEq] at hother
    exact hillegal (hother ▸ hlegal)

/-- A call in turn is added if it goes on with the legal auction, and it is refused as too late
or as illegal if it does not. -/
theorem IsLegal.add_eq_ok (h : IsLegal dealer calls) {call : Call}
    (hcall : IsLegal dealer (calls ++ [call])) :
    (ofCalls dealer calls).add ⟨dealer.advance calls.length, call⟩ =
      .ok (ofCalls dealer (calls ++ [call])) := by
  obtain ⟨-, hfollow, hfinished⟩ := isLegal_concat_iff.mp hcall
  have hpermits := (h.permits_iff hfinished).mpr hfollow
  exact (add_eq_ok_iff (toAct?_ofCalls ..)).mpr ⟨rfl, hpermits, append_ofCalls ..⟩

theorem IsLegal.add_eq_finished (h : IsLegal dealer calls) (hfinished : Finished calls)
    (call : Call) :
    (ofCalls dealer calls).add ⟨dealer.advance calls.length, call⟩ =
      .error (.finished (ofCalls dealer calls) ⟨dealer.advance calls.length, call⟩) := by
  have hover : (ofCalls dealer calls).isOver = true := (isFinished_inTurn_iff h).mpr hfinished
  rw [add, if_pos hover]

theorem IsLegal.add_eq_illegal (h : IsLegal dealer calls) (hfinished : ¬ Finished calls)
    {call : Call} (hcall : ¬ IsLegal dealer (calls ++ [call])) :
    (ofCalls dealer calls).add ⟨dealer.advance calls.length, call⟩ =
      .error (.illegal (ofCalls dealer calls) ⟨dealer.advance calls.length, call⟩) := by
  have hopen : ¬ (ofCalls dealer calls).isOver = true :=
    fun hover ↦ hfinished ((isFinished_inTurn_iff h).mp hover)
  have hrefused : ¬ (ofCalls dealer calls).permits call (dealer.advance calls.length) = true :=
    fun hpermits ↦
      hcall (isLegal_concat_iff.mpr ⟨h, (h.permits_iff hfinished).mp hpermits, hfinished⟩)
  rw [add, if_neg hopen, toAct?_ofCalls]
  simp only [ne_eq, not_true_eq_false, if_false]
  rw [if_neg hrefused]

/-- The next element goes on with the legal auction, or it offends and play stops. -/
theorem IsLegal.playFrom_cons (h : IsLegal dealer calls) (element : Value) (rest : List Value) :
    (∃ call, Call.readValue element = .ok call ∧ IsLegal dealer (calls ++ [call]) ∧
      playFrom (ofCalls dealer calls) (dealer.advance calls.length) (element :: rest) =
        playFrom (ofCalls dealer (calls ++ [call])) (dealer.advance (calls ++ [call]).length)
          rest) ∨
    ∃ error, Offence dealer calls element error ∧
      playFrom (ofCalls dealer calls) (dealer.advance calls.length) (element :: rest) =
        .error error := by
  rw [playFrom]
  cases hread : Call.readValue element with
  | error error => exact Or.inr ⟨_, .unreadable hread, rfl⟩
  | ok call =>
    by_cases hfinished : Finished calls
    · refine Or.inr ⟨_, .finished hread hfinished, ?_⟩
      simp only [h.add_eq_finished hfinished]
    · by_cases hcall : IsLegal dealer (calls ++ [call])
      · refine Or.inl ⟨call, rfl, hcall, ?_⟩
        simp only [h.add_eq_ok hcall, List.length_append, List.length_singleton,
          Seat.advance_succ]
      · refine Or.inr ⟨_, .illegal hread hfinished hcall, ?_⟩
        simp only [h.add_eq_illegal hfinished hcall]

/-- Play that reaches an auction has read all elements, and their calls are legal. -/
theorem IsLegal.playFrom_eq_ok_iff (h : IsLegal dealer calls) {written : List Value}
    {auction : Auction} :
    playFrom (ofCalls dealer calls) (dealer.advance calls.length) written = .ok auction ↔
      ∃ further, Reads written further ∧ IsLegal dealer (calls ++ further) ∧
        auction = ofCalls dealer (calls ++ further) := by
  induction written generalizing calls with
  | nil =>
    rw [playFrom, Except.ok.injEq]
    constructor
    · rintro rfl
      exact ⟨[], .nil, by simpa using h, by simp⟩
    · rintro ⟨further, hreads, -, rfl⟩
      cases hreads
      simp
  | cons element rest ih =>
    rcases h.playFrom_cons element rest with ⟨call, hread, hcall, hplay⟩ | ⟨error, hoffence, hplay⟩
    · rw [hplay, ih hcall]
      constructor
      · rintro ⟨further, hreads, hlegal, hauction⟩
        exact ⟨call :: further, .cons hread hreads, by simpa using hlegal, by simpa using hauction⟩
      · rintro ⟨further, hreads, hlegal, hauction⟩
        cases hreads with
        | cons hhead htail =>
          rw [hread, Except.ok.injEq] at hhead
          obtain rfl := hhead
          exact ⟨_, htail, by simpa using hlegal, by simpa using hauction⟩
    · rw [hplay]
      refine iff_of_false (by simp) ?_
      rintro ⟨further, hreads, hlegal, -⟩
      cases hreads with
      | @cons _ call _ others hhead htail =>
        rw [List.append_cons] at hlegal
        exact hoffence.not_isLegal hhead hlegal.of_append

/-- Play that stops has reached an element that offends after legal calls. -/
theorem IsLegal.offence_of_playFrom (h : IsLegal dealer calls) {written : List Value}
    {error : AuctionError}
    (hplay : playFrom (ofCalls dealer calls) (dealer.advance calls.length) written =
      .error error) :
    ∃ before element after further, written = before ++ element :: after ∧
      Reads before further ∧ IsLegal dealer (calls ++ further) ∧
      Offence dealer (calls ++ further) element error := by
  induction written generalizing calls with
  | nil => cases hplay
  | cons element rest ih =>
    rcases h.playFrom_cons element rest with ⟨call, hread, hcall, hnext⟩ | ⟨other, hoffence, hstop⟩
    · obtain ⟨before, stopped, after, further, rfl, hreads, hlegal, hoffence⟩ :=
        ih hcall (hnext ▸ hplay)
      rw [List.append_assoc] at hlegal hoffence
      exact ⟨element :: before, stopped, after, call :: further, rfl, .cons hread hreads, hlegal,
        hoffence⟩
    · rw [hstop, Except.error.injEq] at hplay
      obtain rfl := hplay
      exact ⟨[], element, rest, [], rfl, .nil, by simpa using h, by simpa using hoffence⟩

/-- Written calls can be played when they can be read and are a legal auction; then the auction is
that of the calls. -/
theorem build_eq_ok_iff {written : List Value} {auction : Auction} :
    build dealer written = .ok auction ↔
      ∃ calls, Reads written calls ∧ IsLegal dealer calls ∧ auction = ofCalls dealer calls :=
  (isLegal_nil dealer).playFrom_eq_ok_iff

/-- Written calls make an auction exactly when they can be read and are a legal auction.  It holds
every call at its seat, the dealer, the seat to call next, and the mark whether it has ended.
Otherwise the error is that of the first element that offends. -/
theorem build_isLegal (dealer : Seat) (written : List Value) :
    ((∃ auction, build dealer written = .ok auction) ↔
      ∃ calls, Reads written calls ∧ IsLegal dealer calls) ∧
    (∀ auction, build dealer written = .ok auction → ∃ calls, Reads written calls ∧
      (∀ place, auction.entries[place]? = calls[place]?.map (Entry.mk (dealer.advance place))) ∧
      auction.dealer = some dealer ∧
      auction.toAct? = some (dealer.advance written.length) ∧
      (auction.isOver = true ↔ Finished calls)) ∧
    ∀ error, build dealer written = .error error →
      ∃ before element after calls, written = before ++ element :: after ∧
        Reads before calls ∧ IsLegal dealer calls ∧ Offence dealer calls element error := by
  refine ⟨?_, ?_, ?_⟩
  · constructor
    · rintro ⟨auction, hbuild⟩
      obtain ⟨calls, hreads, hlegal, -⟩ := build_eq_ok_iff.mp hbuild
      exact ⟨calls, hreads, hlegal⟩
    · rintro ⟨calls, hreads, hlegal⟩
      exact ⟨_, build_eq_ok_iff.mpr ⟨calls, hreads, hlegal, rfl⟩⟩
  · intro auction hbuild
    obtain ⟨calls, hreads, hlegal, rfl⟩ := build_eq_ok_iff.mp hbuild
    refine ⟨calls, hreads, getElem?_inTurn dealer calls, rfl, ?_, isFinished_inTurn_iff hlegal⟩
    rw [toAct?_ofCalls, List.Forall₂.length_eq hreads]
  · intro error hbuild
    obtain ⟨before, element, after, calls, hwritten, hreads, hlegal, hoffence⟩ :=
      (isLegal_nil dealer).offence_of_playFrom hbuild
    exact ⟨before, element, after, calls, hwritten, hreads, hlegal, hoffence⟩

end BridgeBidding.Auction
