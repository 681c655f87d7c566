import BridgeBidding.Auction.Contract
import BridgeBidding.Proofs.Auction.Reachable

/-!
# What the contract says of the auction

The contract is read off the last bid and the last call other than a pass, and the declarer off the
first bid in the strain.  That this is enough is a matter of the whole history.

Between a bid and the next one there is room for passes, for one double by the other side and after
it for one redouble by the bidder's side (`Auction.Standing`).  A call that is added keeps to this
(`Auction.Standing.concat`), so it holds after every bid of an auction that can be reached
(`Auction.Reachable.standing`), and whether the contract is doubled or redoubled can be told from
the calls since the last bid (`Auction.contract?_reachable`).
-/

set_option autoImplicit false
set_option relaxedAutoImplicit false

namespace BridgeBidding

/-- Partners stand alike to any other seat. -/
theorem Seat.sameSide_congr {first second : Seat} (h : first.sameSide second = true)
    (seat : Seat) : seat.sameSide first = seat.sameSide second := by
  revert h
  cases first <;> cases second <;> cases seat <;> decide

namespace Auction

variable {auction : Auction} {dealer : Option Seat} {bidder : Seat} {bid : Bid}
  {before since : List Entry} {entry : Entry}

/-! ### The last bid and the last action -/

theorem seatBid?_eq_some_iff :
    entry.seatBid? = some (bidder, bid) ↔ entry = ⟨bidder, .bid bid⟩ := by
  obtain ⟨seat, call⟩ := entry
  rw [Entry.seatBid?, Entry.bid?, Option.map_eq_some_iff]
  simp only [bid?_eq_some_iff, Prod.mk.injEq, Entry.mk.injEq]
  constructor
  · rintro ⟨made, rfl, rfl, rfl⟩
    exact ⟨rfl, rfl⟩
  · rintro ⟨rfl, rfl⟩
    exact ⟨bid, rfl, rfl, rfl⟩

theorem seatBid?_eq_none_iff : entry.seatBid? = none ↔ entry.bid? = none := by
  rw [Entry.seatBid?, Option.map_eq_none_iff]

/-- The last bid is the one that no bid follows. -/
theorem lastBid?_eq_some_iff :
    auction.lastBid? = some (bidder, bid) ↔
      ∃ before since, auction.entries = before ++ ⟨bidder, .bid bid⟩ :: since ∧
        ∀ later ∈ since, later.bid? = none := by
  rw [lastBid?, List.findSome?_eq_some_iff]
  constructor
  · rintro ⟨since, made, before, hsplit, hmade, hsince⟩
    obtain rfl := seatBid?_eq_some_iff.mp hmade
    refine ⟨before.reverse, since.reverse, ?_, fun later hlater ↦ ?_⟩
    · simpa using List.reverse_eq_iff.mp hsplit
    · exact seatBid?_eq_none_iff.mp (hsince later (List.mem_reverse.mp hlater))
  · rintro ⟨before, since, hentries, hsince⟩
    refine ⟨since.reverse, ⟨bidder, .bid bid⟩, before.reverse, by simp [hentries],
      seatBid?_eq_some_iff.mpr rfl, fun later hlater ↦ ?_⟩
    exact seatBid?_eq_none_iff.mpr (hsince later (List.mem_reverse.mp hlater))

/-- The entries whose calls are no passes. -/
def actions (entries : List Entry) : List Entry := entries.filter fun entry ↦ !entry.isPass

theorem mem_actions_iff {entries : List Entry} :
    entry ∈ actions entries ↔ entry ∈ entries ∧ entry.call ≠ .pass := by
  rw [actions, List.mem_filter, Bool.not_eq_true', ← Bool.not_eq_true, Entry.isPass, isPass_iff]

theorem lastAction?_eq_getLast? (auction : Auction) :
    auction.lastAction? = (actions auction.entries).getLast? := by
  rw [lastAction?, ← List.head?_filter, List.filter_reverse, List.head?_reverse, actions]

/-- Since a bid the last action is the bid itself, unless another one has followed. -/
theorem lastAction?_since (hentries : auction.entries = before ++ ⟨bidder, .bid bid⟩ :: since) :
    auction.lastAction? = some ((actions since).getLast?.getD ⟨bidder, .bid bid⟩) := by
  have hbid : actions (⟨bidder, .bid bid⟩ :: since) = ⟨bidder, .bid bid⟩ :: actions since := rfl
  rw [lastAction?_eq_getLast?, hentries, actions, List.filter_append, ← actions, ← actions, hbid,
    List.getLast?_append, List.getLast?_cons, Option.some_or]

/-! ### What follows a bid -/

/-- What other actions can follow a bid until the next one: none, a double by the other side, or
such a double and a redouble by the bidder's side. -/
inductive Standing (bidder : Seat) : List Entry → Prop
  | undoubled : Standing bidder []
  | doubled {doubler : Seat} (hdoubler : doubler.sameSide bidder = false) :
    Standing bidder [⟨doubler, .double⟩]
  | redoubled {doubler redoubler : Seat} (hdoubler : doubler.sameSide bidder = false)
    (hredoubler : redoubler.sameSide bidder = true) :
    Standing bidder [⟨doubler, .double⟩, ⟨redoubler, .redouble⟩]

/-- A double that is permitted doubles the bid, which no action has followed. -/
theorem Standing.concat_double {doubler : Seat} (h : Standing bidder (actions since))
    (hentries : auction.entries = before ++ ⟨bidder, .bid bid⟩ :: since)
    (hpermits : auction.permitsDouble doubler = true) :
    Standing bidder (actions since ++ [⟨doubler, .double⟩]) := by
  obtain ⟨doubled, made, hmade, hside⟩ := permitsDouble_eq_true_iff.mp hpermits
  rw [lastAction?_since hentries] at hmade
  generalize actions since = after at h hmade
  cases h with
  | undoubled =>
    cases hmade
    exact .doubled (by rwa [Seat.sameSide_comm])
  | doubled => cases hmade
  | redoubled => cases hmade

/-- A redouble that is permitted redoubles the double that has followed the bid. -/
theorem Standing.concat_redouble {redoubler : Seat} (h : Standing bidder (actions since))
    (hentries : auction.entries = before ++ ⟨bidder, .bid bid⟩ :: since)
    (hpermits : auction.permitsRedouble redoubler = true) :
    Standing bidder (actions since ++ [⟨redoubler, .redouble⟩]) := by
  obtain ⟨redoubled, hmade, hside⟩ := permitsRedouble_eq_true_iff.mp hpermits
  rw [lastAction?_since hentries] at hmade
  generalize actions since = after at h hmade
  cases h with
  | undoubled => cases hmade
  | doubled hdoubler =>
    cases hmade
    exact .redoubled hdoubler
      (Seat.sameSide_of_opponents (by rwa [Seat.sameSide_comm]) hdoubler)
  | redoubled => cases hmade

/-- A call that is added after a bid and is no bid itself keeps to what can follow. -/
theorem Standing.concat (h : Standing bidder (actions since))
    (hentries : auction.entries = before ++ ⟨bidder, .bid bid⟩ :: since)
    (hpermits : auction.permits entry.call entry.seat = true) (hbid : entry.bid? = none) :
    Standing bidder (actions (since ++ [entry])) := by
  obtain ⟨seat, call⟩ := entry
  have hallowed := (Bool.and_eq_true_iff.mp hpermits).2
  rw [actions, List.filter_append, ← actions]
  cases call with
  | pass => exact (List.append_nil _).symm ▸ h
  | bid made => cases hbid
  | double => exact h.concat_double hentries hallowed
  | redouble => exact h.concat_redouble hentries hallowed

/-- In an auction that can be reached, only such actions have followed the last bid. -/
theorem Reachable.standing (h : Reachable dealer auction)
    (hentries : auction.entries = before ++ ⟨bidder, .bid bid⟩ :: since)
    (hsince : ∀ later ∈ since, later.bid? = none) : Standing bidder (actions since) := by
  induction h generalizing since with
  | empty => simp [Auction.empty] at hentries
  | @add auction next entry _ hadd ih =>
    obtain ⟨-, hpermits, rfl⟩ := add_eq_ok_iff_permits.mp hadd
    rw [append] at hentries
    rcases List.eq_nil_or_concat since with rfl | ⟨between, last, rfl⟩
    · exact .undoubled
    · rw [List.concat_eq_append, ← List.cons_append, ← List.append_assoc] at hentries
      obtain ⟨hearlier, hlast⟩ := List.append_inj' hentries rfl
      obtain rfl := List.singleton_inj.mp hlast
      rw [List.concat_eq_append] at hsince ⊢
      have hbetween := ih hearlier fun later hlater ↦ hsince later (List.mem_append_left _ hlater)
      exact hbetween.concat hearlier hpermits (hsince entry (by simp))

/-! ### How the bid stands -/

/-- Of a bid by the side and the entries since then: the bid stands doubled if a double and no
redouble has followed, and redoubled if a redouble has, and doubles have come from the other side
and redoubles from the own. -/
structure Stands (side : Seat) (since : List Entry) (doubled redoubled : Bool) : Prop where
  not_both : ¬ (doubled = true ∧ redoubled = true)
  doubled_iff : doubled = true ↔
    (∃ entry ∈ since, entry.call = .double) ∧ ∀ entry ∈ since, entry.call ≠ .redouble
  redoubled_iff : redoubled = true ↔ ∃ entry ∈ since, entry.call = .redouble
  doubler : ∀ entry ∈ since, entry.call = .double → entry.seat.sameSide side = false
  redoubler : ∀ entry ∈ since, entry.call = .redouble → entry.seat.sameSide side = true

variable {side : Seat} {doubled redoubled : Bool}

/-- Passes make no difference. -/
theorem Stands.of_actions (h : Stands side (actions since) doubled redoubled) :
    Stands side since doubled redoubled := by
  have hmem {entry : Entry} {call : Call} (hcall : entry.call = call) (haction : call ≠ .pass) :
      entry ∈ actions since ↔ entry ∈ since := by
    rw [mem_actions_iff, hcall, and_iff_left haction]
  have hexists {call : Call} (haction : call ≠ .pass) :
      (∃ entry ∈ actions since, entry.call = call) ↔ ∃ entry ∈ since, entry.call = call :=
    exists_congr fun entry ↦ and_congr_left fun hcall ↦ hmem hcall haction
  have hforall : (∀ entry ∈ actions since, entry.call ≠ .redouble) ↔
      ∀ entry ∈ since, entry.call ≠ .redouble := by
    simpa using not_congr (@hexists .redouble (by simp))
  constructor
  · exact h.not_both
  · rw [h.doubled_iff, hexists (by simp), hforall]
  · rw [h.redoubled_iff, hexists (by simp)]
  · exact fun entry hentry hcall ↦ h.doubler entry ((hmem hcall (by simp)).mpr hentry) hcall
  · exact fun entry hentry hcall ↦ h.redoubler entry ((hmem hcall (by simp)).mpr hentry) hcall

/-- Partners have the same side. -/
theorem Stands.congr {other : Seat} (h : Stands side since doubled redoubled)
    (hside : side.sameSide other = true) : Stands other since doubled redoubled := by
  have hsame := Seat.sameSide_congr hside
  exact ⟨h.not_both, h.doubled_iff, h.redoubled_iff,
    fun entry hentry hcall ↦ hsame entry.seat ▸ h.doubler entry hentry hcall,
    fun entry hentry hcall ↦ hsame entry.seat ▸ h.redoubler entry hentry hcall⟩

/-- The last action shows how the bid stands. -/
theorem Standing.stands (h : Standing bidder (actions since))
    (hentries : auction.entries = before ++ ⟨bidder, .bid bid⟩ :: since) :
    Stands bidder since (auction.lastAction?.any fun entry ↦ decide (entry.call = .double))
      (auction.lastAction?.any fun entry ↦ decide (entry.call = .redouble)) := by
  apply Stands.of_actions
  rw [lastAction?_since hentries]
  generalize actions since = after at h
  cases h with
  | undoubled => constructor <;> simp
  | doubled hdoubler => constructor <;> simp [hdoubler]
  | redoubled hdoubler hredoubler => constructor <;> simp [hdoubler, hredoubler]

/-! ### The declarer -/

/-- The seat was the first on its side to name the strain. -/
def NamesFirst (auction : Auction) (seat : Seat) (strain : Strain) : Prop :=
  ∃ before bid after, auction.entries = before ++ ⟨seat, .bid bid⟩ :: after ∧
    bid.strain = strain ∧
    ∀ other earlier, ⟨other, .bid earlier⟩ ∈ before → other.sameSide seat = true →
      earlier.strain ≠ strain

/-- The seat that is found is on the bidder's side, and no entry before it would have been found. -/
theorem namesFirst_of_firstToName? {strain : Strain} {seat : Seat}
    (h : auction.firstToName? strain bidder = some seat) :
    seat.sameSide bidder = true ∧ auction.NamesFirst seat strain := by
  obtain ⟨⟨first, bid⟩, hfound, rfl⟩ := Option.map_eq_some_iff.mp h
  rw [seatBids, List.find?_filterMap, Option.bind_eq_some_iff] at hfound
  obtain ⟨entry, hentry, hmade⟩ := hfound
  obtain rfl := seatBid?_eq_some_iff.mp hmade
  obtain ⟨hnamed, before, after, hentries, hbefore⟩ := List.find?_eq_some_iff_append.mp hentry
  obtain ⟨hstrain, hside⟩ : bid.strain = strain ∧ first.sameSide bidder = true := by
    simpa [Entry.seatBid?, Entry.bid?, Call.bid?] using hnamed
  refine ⟨hside, before, bid, after, hentries, hstrain, fun other earlier hearlier hother ↦ ?_⟩
  have hskipped := hbefore _ hearlier
  rw [Seat.sameSide_congr hside] at hother
  intro hsame
  simp [Entry.seatBid?, Entry.bid?, Call.bid?, hsame, hother] at hskipped

/-- The last bid is itself in its strain, so somebody on the bidder's side named it first. -/
theorem exists_firstToName? (h : auction.lastBid? = some (bidder, bid)) :
    ∃ seat, auction.firstToName? bid.strain bidder = some seat := by
  obtain ⟨before, since, hentries, -⟩ := lastBid?_eq_some_iff.mp h
  have hmade : (bidder, bid) ∈ auction.seatBids :=
    List.mem_filterMap.mpr ⟨⟨bidder, .bid bid⟩, by simp [hentries], rfl⟩
  rw [← Option.isSome_iff_exists, firstToName?, Option.isSome_map, List.find?_isSome]
  exact ⟨(bidder, bid), hmade, by simp [Seat.sameSide]⟩

/-! ### The contract -/

theorem mem_bids_iff : bid ∈ auction.bids ↔ .bid bid ∈ auction.calls := by
  simp [bids, calls, List.mem_filterMap, List.mem_map, Entry.bid?, bid?_eq_some_iff]

/-- No bid of an auction that can be reached outranks the last one. -/
theorem Reachable.outranks_lastBid? (h : Reachable dealer auction)
    (hlast : auction.lastBid? = some (bidder, bid)) {earlier : Bid}
    (hearlier : earlier ∈ auction.bids) : earlier.outranks bid = false := by
  rcases h.exists_isLegal with rfl | ⟨first, calls, hlegal, rfl⟩
  · cases hlast
  · obtain ⟨place, hplace, -⟩ := lastBid?_ofCalls_eq_some_iff.mp hlast
    rw [mem_bids_iff, calls_ofCalls] at hearlier
    rw [← Bool.not_eq_true, Bid.outranks_iff_rank_lt]
    exact Nat.not_lt.mpr (hlegal.rank_le_of_lastBid hplace hearlier)

theorem contract?_eq_none_iff : auction.contract? = none ↔ auction.bids = [] := by
  rw [contract?, Option.map_eq_none_iff, lastBid?, List.findSome?_eq_none_iff, bids,
    List.filterMap_eq_nil_iff]
  simp [seatBid?_eq_none_iff]

/-- In an auction that can be reached there is a contract once a bid is made.  It is the highest
bid; the declarer is the seat that first named its strain on the side that made the last bid; and
whether it is doubled or redoubled is told by the calls since that bid, where doubles come from the
other side and redoubles from the declarer's. -/
theorem contract?_reachable (h : Reachable dealer auction) :
    (auction.contract? = none ↔ auction.bids = []) ∧
    ∀ contract, auction.contract? = some contract →
      contract.bid ∈ auction.bids ∧
      (∀ bid ∈ auction.bids, bid.outranks contract.bid = false) ∧
      ∃ before bidder since, auction.entries = before ++ ⟨bidder, .bid contract.bid⟩ :: since ∧
        (∀ later ∈ since, later.bid? = none) ∧
        contract.declarer.sameSide bidder = true ∧
        auction.NamesFirst contract.declarer contract.bid.strain ∧
        Stands contract.declarer since contract.doubled contract.redoubled := by
  refine ⟨contract?_eq_none_iff, fun contract hcontract ↦ ?_⟩
  obtain ⟨⟨bidder, bid⟩, hlast, rfl⟩ := Option.map_eq_some_iff.mp hcontract
  obtain ⟨before, since, hentries, hsince⟩ := lastBid?_eq_some_iff.mp hlast
  obtain ⟨declarer, hdeclarer⟩ := exists_firstToName? hlast
  obtain ⟨hside, hfirst⟩ := namesFirst_of_firstToName? hdeclarer
  have hstands := (h.standing hentries hsince).stands hentries
  simp only [hdeclarer, Option.getD_some]
  refine ⟨?_, fun earlier hearlier ↦ h.outranks_lastBid? hlast hearlier, before, bidder, since,
    hentries, hsince, hside, hfirst, hstands.congr ?_⟩
  · rw [mem_bids_iff, calls, hentries]
    simp
  · rwa [Seat.sameSide_comm]

/-- East opens a heart, over which south bids hearts all the same; north's raise to game is doubled
and redoubled. -/
def redoubledGame : List Call :=
  [.of 1 .hearts, .of 2 .hearts, .pass, .of 4 .hearts, .double, .redouble, .pass, .pass, .pass]

/-- East named hearts before, and north named them last, but south is the declarer. -/
theorem contract?_reachable_redoubledGame :
    let auction := ofCalls .east redoubledGame
    let contract : Contract := ⟨⟨4, .hearts⟩, false, true, .south⟩
    Reachable (some .east) auction ∧ auction.contract? = some contract ∧
      auction.NamesFirst .south .hearts := by
  intro auction contract
  have hreach : Reachable (some .east) auction := reachable_ofCalls (by decide)
  have hcontract : auction.contract? = some contract := by decide
  obtain ⟨-, -, before, bidder, since, -, -, -, hfirst, -⟩ :=
    (contract?_reachable hreach).2 contract hcontract
  exact ⟨hreach, hcontract, hfirst⟩

end Auction

end BridgeBidding
