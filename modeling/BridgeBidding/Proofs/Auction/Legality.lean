import BridgeBidding.Proofs.Auction.Rotation
import Mathlib.Data.List.Induction

/-!
# Legal auctions

The laws of an auction, stated of the list of its calls: `Auction.MayFollow` says which call the
rules allow after others, `Auction.Finished` when an auction has ended, and `Auction.IsLegal` that
every call of a list was allowed and none came too late.

Playing calls one after another keeps only the last bid and the last call other than a pass in view,
and looks only at the last three passes.  `Auction.permits_ofCalls_iff` and
`Auction.isFinished_inTurn_iff` show that after a legal auction this is enough.
-/

set_option autoImplicit false
set_option relaxedAutoImplicit false

namespace BridgeBidding

theorem Strain.rank_lt_five (strain : Strain) : strain.rank < 5 := by
  cases strain <;> decide

namespace Bid

/-- The place of the bid among all bids in rising order. -/
def rank (bid : Bid) : Nat := 5 * (bid.level.number - 1) + bid.strain.rank

theorem outranks_iff_rank_lt {bid other : Bid} :
    bid.outranks other = true ↔ other.rank < bid.rank := by
  have hstrain := bid.strain.rank_lt_five
  have hotherStrain := other.strain.rank_lt_five
  have hlevel := bid.level.one_le_number
  have hotherLevel := other.level.one_le_number
  rw [outranks_iff]
  unfold difference rank
  by_cases hsame : bid.level = other.level
  · rw [if_pos hsame, hsame]
    omega
  · have hnumber : bid.level.number ≠ other.level.number :=
      fun heq ↦ hsame (Level.number_injective heq)
    rw [if_neg hsame]
    omega

end Bid

namespace Auction

/-! ### The laws -/

/-- The call at the place is no pass, and only passes follow it. -/
def LastAction (calls : List Call) (place : Nat) (call : Call) : Prop :=
  ∃ before after, calls = before ++ call :: after ∧ before.length = place ∧ call ≠ .pass ∧
    ∀ later ∈ after, later = .pass

/-- The bid was made at the place, and no bid follows it. -/
def LastBid (calls : List Call) (place : Nat) (bid : Bid) : Prop :=
  ∃ before after, calls = before ++ .bid bid :: after ∧ before.length = place ∧
    ∀ later ∈ after, later.bid? = none

/-- The call is allowed after the calls `before` of an auction that has not ended: a bid above all
earlier bids, a double when the last action is a bid by the other side, a redouble when it is a
double by the other side, of a bid by the own side. -/
def MayFollow (dealer : Seat) (before : List Call) : Call → Prop
  | .pass => True
  | .bid bid => ∀ earlier, .bid earlier ∈ before → earlier.rank < bid.rank
  | .double => ∃ place bid, LastAction before place (.bid bid) ∧
      (dealer.advance place).sameSide (dealer.advance before.length) = false
  | .redouble =>
    (∃ place, LastAction before place .double ∧
      (dealer.advance place).sameSide (dealer.advance before.length) = false) ∧
    ∃ place bid, LastBid before place bid ∧
      (dealer.advance place).sameSide (dealer.advance before.length) = true

/-- The auction has ended: four passes and nothing else, or an action and three passes. -/
def Finished (calls : List Call) : Prop :=
  calls = List.replicate 4 .pass ∨
    ∃ before action, action ≠ .pass ∧ calls = before ++ action :: List.replicate 3 .pass

/-- Every call was allowed after the calls before it, which had not ended the auction. -/
def IsLegal (dealer : Seat) (calls : List Call) : Prop :=
  ∀ before call after, calls = before ++ call :: after →
    MayFollow dealer before call ∧ ¬ Finished before

/-- A list with one more item at its end splits at that item or at an earlier one. -/
theorem split_concat {α : Type} {items before after : List α} {item last : α}
    (h : items ++ [last] = before ++ item :: after) :
    before = items ∧ item = last ∨ ∃ between, items = before ++ item :: between := by
  rcases List.eq_nil_or_concat after with rfl | ⟨between, other, rfl⟩
  · obtain ⟨rfl, hlast⟩ := List.append_inj' h rfl
    exact Or.inl ⟨rfl, (List.singleton_inj.mp hlast).symm⟩
  · rw [List.concat_eq_append, ← List.cons_append, ← List.append_assoc] at h
    exact Or.inr ⟨between, (List.append_inj' h rfl).1⟩

theorem isLegal_nil (dealer : Seat) : IsLegal dealer [] := by
  intro before call after h
  simp at h

theorem isLegal_concat_iff {dealer : Seat} {calls : List Call} {call : Call} :
    IsLegal dealer (calls ++ [call]) ↔
      IsLegal dealer calls ∧ MayFollow dealer calls call ∧ ¬ Finished calls := by
  constructor
  · intro h
    refine ⟨fun before other after hsplit ↦ ?_, h calls call [] rfl⟩
    exact h before other (after ++ [call]) (by rw [hsplit]; simp)
  · rintro ⟨hcalls, hlast⟩ before other after hsplit
    rcases split_concat hsplit with ⟨rfl, rfl⟩ | ⟨between, hcallsSplit⟩
    · exact hlast
    · exact hcalls before other between hcallsSplit

/-- The calls before any point of a legal auction are a legal auction. -/
theorem IsLegal.of_append {dealer : Seat} {first second : List Call}
    (h : IsLegal dealer (first ++ second)) : IsLegal dealer first := by
  intro before call after hsplit
  exact h before call (after ++ second) (by rw [hsplit]; simp)

/-! ### What the entries show of the calls -/

theorem bid?_eq_some_iff {call : Call} {bid : Bid} : call.bid? = some bid ↔ call = .bid bid := by
  cases call <;> simp [Call.bid?]

theorem isPass_iff {call : Call} : call.isPass = true ↔ call = .pass := by
  cases call <;> simp [Call.isPass]

theorem forall_mem_inTurn_iff (seat : Seat) {calls : List Call} {skipped : Call → Prop} :
    (∀ entry ∈ inTurn seat calls, skipped entry.call) ↔ ∀ call ∈ calls, skipped call := by
  rw [← List.forall_mem_map, map_call_inTurn]

/-- A search from the last entry backwards stops at a call after which all calls are skipped. -/
theorem findSome?_reverse_inTurn_eq_some_iff {β : Type} {dealer : Seat} {calls : List Call}
    {found : Entry → Option β} (skipped : Call → Prop)
    (hskipped : ∀ entry, found entry = none ↔ skipped entry.call) {result : β} :
    (inTurn dealer calls).reverse.findSome? found = some result ↔
      ∃ before call after, calls = before ++ call :: after ∧
        found ⟨dealer.advance before.length, call⟩ = some result ∧
        ∀ later ∈ after, skipped later := by
  rw [List.findSome?_eq_some_iff]
  constructor
  · rintro ⟨later, entry, earlier, hsplit, hfound, hnone⟩
    have hturn : inTurn dealer calls = earlier.reverse ++ entry :: later.reverse := by
      rw [List.reverse_eq_iff] at hsplit
      simpa using hsplit
    obtain ⟨before, after, rfl, -, hseat, hlater⟩ := inTurn_eq_append_cons_iff.mp hturn
    refine ⟨before, entry.call, after, rfl, hseat.symm ▸ hfound, ?_⟩
    rw [← forall_mem_inTurn_iff (dealer.advance (before.length + 1)), hlater]
    exact fun made hmade ↦ (hskipped made).mp (hnone made (List.mem_reverse.mp hmade))
  · rintro ⟨before, call, after, rfl, hfound, hafter⟩
    refine ⟨(inTurn (dealer.advance (before.length + 1)) after).reverse, _,
      (inTurn dealer before).reverse, ?_, hfound, ?_⟩
    · simp [inTurn, Seat.advance_succ]
    · intro made hmade
      rw [← forall_mem_inTurn_iff (dealer.advance (before.length + 1))] at hafter
      exact (hskipped made).mpr (hafter made (List.mem_reverse.mp hmade))

theorem lastAction?_ofCalls_eq_some_iff {dealer : Seat} {calls : List Call} {entry : Entry} :
    (ofCalls dealer calls).lastAction? = some entry ↔
      ∃ place, LastAction calls place entry.call ∧ dealer.advance place = entry.seat := by
  have hskipped (made : Entry) :
      (Option.guard (fun entry : Entry ↦ !entry.isPass) made) = none ↔ made.call = .pass := by
    simp [Entry.isPass, isPass_iff]
  rw [lastAction?, List.find?_eq_findSome?_guard, entries_ofCalls,
    findSome?_reverse_inTurn_eq_some_iff (· = .pass) hskipped]
  constructor
  · rintro ⟨before, call, after, hcalls, hentry, hafter⟩
    rw [Option.guard_eq_some_iff] at hentry
    obtain ⟨rfl, haction⟩ := hentry
    refine ⟨before.length, ⟨before, after, hcalls, rfl, ?_, hafter⟩, rfl⟩
    simpa [Entry.isPass, ← isPass_iff] using haction
  · rintro ⟨place, ⟨before, after, hcalls, rfl, haction, hafter⟩, hseat⟩
    refine ⟨before, entry.call, after, hcalls, ?_, hafter⟩
    rw [Option.guard_eq_some_iff]
    exact ⟨by rw [hseat], by simpa [Entry.isPass, ← isPass_iff] using haction⟩

theorem lastBid?_ofCalls_eq_some_iff {dealer : Seat} {calls : List Call} {seat : Seat}
    {bid : Bid} :
    (ofCalls dealer calls).lastBid? = some (seat, bid) ↔
      ∃ place, LastBid calls place bid ∧ dealer.advance place = seat := by
  have hskipped (made : Entry) : made.seatBid? = none ↔ made.call.bid? = none := by
    simp [Entry.seatBid?, Entry.bid?]
  rw [lastBid?, entries_ofCalls,
    findSome?_reverse_inTurn_eq_some_iff (fun call ↦ call.bid? = none) hskipped]
  constructor
  · rintro ⟨before, call, after, hcalls, hentry, hafter⟩
    obtain ⟨made, hmade, hpair⟩ := Option.map_eq_some_iff.mp hentry
    obtain rfl := bid?_eq_some_iff.mp hmade
    obtain ⟨rfl, rfl⟩ := Prod.mk.inj hpair
    exact ⟨before.length, ⟨before, after, hcalls, rfl, hafter⟩, rfl⟩
  · rintro ⟨place, ⟨before, after, hcalls, rfl, hafter⟩, rfl⟩
    exact ⟨before, .bid bid, after, hcalls, rfl, hafter⟩

theorem lastBid?_ofCalls_eq_none_iff {dealer : Seat} {calls : List Call} :
    (ofCalls dealer calls).lastBid? = none ↔ ∀ call ∈ calls, call.bid? = none := by
  rw [lastBid?, entries_ofCalls, List.findSome?_eq_none_iff,
    ← forall_mem_inTurn_iff dealer]
  simp [Entry.seatBid?, Entry.bid?]

/-! ### When an auction is over -/

/-- The entries end the auction when the last three calls are passes and before them there is either
one call alone or an action somewhere. -/
theorem isFinished_iff {entries : List Entry} :
    isFinished entries = true ↔
      ∃ before, entries.map Entry.call = before ++ List.replicate 3 .pass ∧
        (before.length = 1 ∨ ∃ call ∈ before, call ≠ .pass) := by
  have hpasses {latest : List Entry} :
      latest.all Entry.isPass = true ↔ ∀ call ∈ latest.map Entry.call, call = .pass := by
    simp [Entry.isPass, isPass_iff]
  have haction {earlier : List Entry} :
      (earlier.any fun entry ↦ !entry.isPass) = true ↔
        ∃ call ∈ earlier.map Entry.call, call ≠ .pass := by
    simp [Entry.isPass, ← isPass_iff]
  simp only [isFinished, Bool.and_eq_true, Bool.or_eq_true, beq_iff_eq, hpasses, haction]
  constructor
  · rintro ⟨⟨hsome, hlatest⟩, hearlier⟩
    refine ⟨((entries.reverse.drop 3).map Entry.call).reverse, ?_, ?_⟩
    · have hlength : (entries.reverse.take 3).length = 3 := by
        rw [List.length_take]
        have hdrop : (entries.reverse.drop 3) ≠ [] := by simpa using hsome
        have hpositive := List.length_pos_iff.mpr hdrop
        rw [List.length_drop] at hpositive
        omega
      have hreplicate : (entries.reverse.take 3).map Entry.call = List.replicate 3 .pass :=
        List.eq_replicate_iff.mpr ⟨by rw [List.length_map, hlength], hlatest⟩
      calc entries.map Entry.call
          = ((entries.reverse.take 3 ++ entries.reverse.drop 3).map Entry.call).reverse := by
            rw [List.take_append_drop, List.map_reverse, List.reverse_reverse]
        _ = _ := by rw [List.map_append, List.reverse_append, hreplicate, List.reverse_replicate]
    · simpa using hearlier
  · rintro ⟨before, hentries, hbefore⟩
    have hreverse : entries.reverse.map Entry.call = List.replicate 3 .pass ++ before.reverse := by
      rw [List.map_reverse, hentries, List.reverse_append, List.reverse_replicate]
    have htake : (entries.reverse.take 3).map Entry.call = List.replicate 3 .pass := by
      rw [List.map_take, hreverse]
      rfl
    have hdrop : (entries.reverse.drop 3).map Entry.call = before.reverse := by
      rw [List.map_drop, hreverse]
      rfl
    have hlength : (entries.reverse.drop 3).length = before.length := by
      rw [← List.length_map (f := Entry.call), hdrop, List.length_reverse]
    rw [htake, hdrop, hlength]
    refine ⟨⟨?_, fun call hcall ↦ List.eq_of_mem_replicate hcall⟩, by simpa using hbefore⟩
    have hsome : before ≠ [] := by
      rintro rfl
      simp at hbefore
    rw [Bool.not_eq_true', List.isEmpty_eq_false_iff, ← List.length_pos_iff, hlength]
    exact List.length_pos_iff.mpr hsome

theorem exists_lastAction {calls : List Call} (h : ∃ call ∈ calls, call ≠ .pass) :
    ∃ place call, LastAction calls place call := by
  induction calls using List.reverseRecOn with
  | nil => simp at h
  | append_singleton before last ih =>
    by_cases hlast : last = .pass
    · have hbefore : ∃ call ∈ before, call ≠ .pass := by
        obtain ⟨call, hcall, hne⟩ := h
        rcases List.mem_append.mp hcall with hcall | hcall
        · exact ⟨call, hcall, hne⟩
        · exact absurd (List.mem_singleton.mp hcall ▸ hlast) hne
      obtain ⟨place, call, opening, passes, rfl, hplace, hne, hpasses⟩ := ih hbefore
      refine ⟨place, call, opening, passes ++ [last], by simp, hplace, hne, ?_⟩
      intro later hlater
      rcases List.mem_append.mp hlater with hlater | hlater
      · exact hpasses later hlater
      · exact List.mem_singleton.mp hlater ▸ hlast
    · exact ⟨_, last, before, [], rfl, rfl, hlast, by simp⟩

/-- After a legal auction the last three passes tell whether it has ended: further back no three
passes can follow an action. -/
theorem isFinished_inTurn_iff {dealer : Seat} {calls : List Call} (h : IsLegal dealer calls) :
    isFinished (inTurn dealer calls) = true ↔ Finished calls := by
  rw [isFinished_iff, map_call_inTurn]
  constructor
  · rintro ⟨before, rfl, hlength | haction⟩
    · obtain ⟨call, rfl⟩ := List.length_eq_one_iff.mp hlength
      by_cases hcall : call = .pass
      · exact Or.inl (by rw [hcall]; rfl)
      · exact Or.inr ⟨[], call, hcall, rfl⟩
    · obtain ⟨-, action, opening, passes, rfl, -, hne, hpasses⟩ := exists_lastAction haction
      obtain ⟨count, rfl⟩ : ∃ count, passes = List.replicate count .pass :=
        ⟨passes.length, List.eq_replicate_iff.mpr ⟨rfl, hpasses⟩⟩
      cases count with
      | zero => exact Or.inr ⟨opening, action, hne, by simp⟩
      | succ count =>
        -- the action and the three passes after it would have ended the auction earlier
        have hearly : Finished (opening ++ action :: List.replicate 3 .pass) :=
          Or.inr ⟨opening, action, hne, rfl⟩
        refine absurd hearly (h _ .pass (List.replicate count .pass) ?_).2
        simp only [List.append_assoc, List.cons_append, List.replicate_append_replicate,
          ← List.replicate_succ]
        rw [Nat.add_comm]
  · rintro (rfl | ⟨opening, action, hne, rfl⟩)
    · exact ⟨[.pass], rfl, Or.inl rfl⟩
    · exact ⟨opening ++ [action], by simp, Or.inr ⟨action, by simp, hne⟩⟩

/-! ### What may be called next -/

/-- The last bid of a legal auction is its highest. -/
theorem IsLegal.rank_le_of_lastBid {dealer : Seat} {calls : List Call} {place : Nat} {last : Bid}
    (h : IsLegal dealer calls) (hlast : LastBid calls place last) {earlier : Bid}
    (hearlier : .bid earlier ∈ calls) : earlier.rank ≤ last.rank := by
  obtain ⟨before, after, rfl, -, hafter⟩ := hlast
  rcases List.mem_append.mp hearlier with hbefore | hrest
  · exact Nat.le_of_lt ((h before (.bid last) after rfl).1 earlier hbefore)
  · rcases List.mem_cons.mp hrest with heq | hlater
    · exact Nat.le_of_eq (congrArg Bid.rank (Call.bid.inj heq))
    · simpa [Call.bid?] using hafter _ hlater

theorem IsLegal.permitsBid_iff {dealer : Seat} {calls : List Call} (h : IsLegal dealer calls)
    {bid : Bid} : (ofCalls dealer calls).permitsBid bid = true ↔
      MayFollow dealer calls (.bid bid) := by
  rw [permitsBid]
  split
  case h_1 hnone =>
    have hbids := lastBid?_ofCalls_eq_none_iff.mp hnone
    refine iff_of_true rfl fun earlier hearlier ↦ ?_
    simpa [Call.bid?] using hbids _ hearlier
  case h_2 seat last hsome =>
    obtain ⟨place, hlast, -⟩ := lastBid?_ofCalls_eq_some_iff.mp hsome
    have hmade : Call.bid last ∈ calls := by
      obtain ⟨before, after, rfl, -, -⟩ := hlast
      simp
    rw [Bid.outranks_iff_rank_lt]
    exact ⟨fun hlt earlier hearlier ↦ Nat.lt_of_le_of_lt (h.rank_le_of_lastBid hlast hearlier) hlt,
      fun hall ↦ hall last hmade⟩

theorem permitsDouble_eq_true_iff {auction : Auction} {seat : Seat} :
    auction.permitsDouble seat = true ↔
      ∃ bidder bid, auction.lastAction? = some ⟨bidder, .bid bid⟩ ∧
        bidder.sameSide seat = false := by
  rw [permitsDouble]
  split <;> simp_all

theorem permitsRedouble_eq_true_iff {auction : Auction} {seat : Seat} :
    auction.permitsRedouble seat = true ↔
      ∃ doubler, auction.lastAction? = some ⟨doubler, .double⟩ ∧
        doubler.sameSide seat = false := by
  rw [permitsRedouble]
  split <;> simp_all

theorem permitsDouble_iff {dealer : Seat} {calls : List Call} :
    (ofCalls dealer calls).permitsDouble (dealer.advance calls.length) = true ↔
      MayFollow dealer calls .double := by
  rw [permitsDouble_eq_true_iff]
  constructor
  · rintro ⟨bidder, bid, hlast, hside⟩
    obtain ⟨place, haction, rfl⟩ := lastAction?_ofCalls_eq_some_iff.mp hlast
    exact ⟨place, bid, haction, hside⟩
  · rintro ⟨place, bid, haction, hside⟩
    exact ⟨_, bid, lastAction?_ofCalls_eq_some_iff.mpr ⟨place, haction, rfl⟩, hside⟩

/-- A double by the other side was legal, so it doubled a bid by the side that may redouble it. -/
theorem IsLegal.exists_lastBid_of_double {dealer : Seat} {calls : List Call} {place : Nat}
    {seat : Seat} (h : IsLegal dealer calls) (hdouble : LastAction calls place .double)
    (hside : (dealer.advance place).sameSide seat = false) :
    ∃ place bid, LastBid calls place bid ∧ (dealer.advance place).sameSide seat = true := by
  obtain ⟨before, after, rfl, rfl, -, hafter⟩ := hdouble
  obtain ⟨⟨place, bid, ⟨opening, passes, rfl, rfl, -, hpasses⟩, hbidder⟩, -⟩ :=
    h before .double after rfl
  refine ⟨opening.length, bid, ⟨opening, passes ++ .double :: after, by simp, rfl, ?_⟩,
    Seat.sameSide_of_opponents hbidder hside⟩
  intro later hlater
  rcases List.mem_append.mp hlater with hpass | hrest
  · rw [hpasses later hpass]
    rfl
  · rcases List.mem_cons.mp hrest with rfl | hpass
    · rfl
    · rw [hafter later hpass]
      rfl

theorem IsLegal.permitsRedouble_iff {dealer : Seat} {calls : List Call}
    (h : IsLegal dealer calls) :
    (ofCalls dealer calls).permitsRedouble (dealer.advance calls.length) = true ↔
      MayFollow dealer calls .redouble := by
  rw [permitsRedouble_eq_true_iff]
  constructor
  · rintro ⟨doubler, hlast, hside⟩
    obtain ⟨place, haction, rfl⟩ := lastAction?_ofCalls_eq_some_iff.mp hlast
    exact ⟨⟨place, haction, hside⟩, h.exists_lastBid_of_double haction hside⟩
  · rintro ⟨⟨place, haction, hside⟩, -⟩
    exact ⟨_, lastAction?_ofCalls_eq_some_iff.mpr ⟨place, haction, rfl⟩, hside⟩

/-- After a legal auction that has not ended, the permitted calls are those that the laws allow. -/
theorem IsLegal.permits_iff {dealer : Seat} {calls : List Call} (h : IsLegal dealer calls)
    (hfinished : ¬ Finished calls) {call : Call} :
    (ofCalls dealer calls).permits call (dealer.advance calls.length) = true ↔
      MayFollow dealer calls call := by
  have hopen : (ofCalls dealer calls).isOver = false := by
    rw [← Bool.not_eq_true, isOver_ofCalls, isFinished_inTurn_iff h]
    exact hfinished
  rw [permits.eq_def, hopen, Bool.not_false, Bool.true_and]
  cases call with
  | pass => exact iff_of_true rfl trivial
  | bid bid => exact h.permitsBid_iff
  | double => exact permitsDouble_iff
  | redouble => exact h.permitsRedouble_iff

/-! ### Adding a call -/

theorem isOver_of_permits {auction : Auction} {call : Call} {seat : Seat}
    (h : auction.permits call seat = true) : auction.isOver = false := by
  rw [permits.eq_def, Bool.and_eq_true, Bool.not_eq_true'] at h
  exact h.1

/-- A call is added if the seat whose turn it is makes it and it is permitted to that seat. -/
theorem add_eq_ok_iff {auction next : Auction} {entry : Entry} {seat : Seat}
    (hturn : auction.toAct? = some seat) :
    auction.add entry = .ok next ↔
      entry.seat = seat ∧ auction.permits entry.call entry.seat = true ∧
        auction.append entry = next := by
  rw [add, hturn]
  by_cases hseat : entry.seat = seat
  · subst hseat
    simp only [ne_eq, not_true_eq_false, if_false, true_and]
    by_cases hpermits : auction.permits entry.call entry.seat = true
    · rw [isOver_of_permits hpermits, if_neg Bool.false_ne_true, if_pos hpermits,
        Except.ok.injEq, and_iff_right hpermits]
    · rw [if_neg hpermits]
      cases auction.isOver <;> simp [hpermits]
  · cases auction.isOver <;> simp [hseat]

end Auction

end BridgeBidding
