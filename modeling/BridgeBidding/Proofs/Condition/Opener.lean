import BridgeBidding.Condition.Position
import BridgeBidding.Proofs.Auction.Contract
import BridgeBidding.Proofs.Auction.Uncontested

/-!
# Who opened

The opening is the first bid of the auction, whoever made it.  Some questions look for it.  Others
look for the first bid of one seat and speak of it as that seat's opening: whether partner opened a
major or a minor, and whether partner raised the major that this seat opened.

For the seat that opened its first bid is the opening.  A seat that makes its first bid after
another seat has opened (`Auction.BidsLaterIn`) has opened nothing, but those questions are answered
as if it had, and in no other case do they say anything else than they ask
(`Position.opening_questions`).
-/

set_option autoImplicit false
set_option relaxedAutoImplicit false

namespace BridgeBidding

/-! ### First and last bids -/

namespace Auction

variable {auction : Auction} {seat opener : Seat} {bid opening : Bid} {kind : Strain → Prop}

/-- The seat made the bid, and it is the first of the auction. -/
def Opens (auction : Auction) (seat : Seat) (bid : Bid) : Prop :=
  ∃ before since, auction.entries = before ++ ⟨seat, .bid bid⟩ :: since ∧
    ∀ earlier ∈ before, earlier.bid? = none

/-- The seat made the bid, and none before it. -/
def BidsFirst (auction : Auction) (seat : Seat) (bid : Bid) : Prop :=
  ∃ before since, auction.entries = before ++ ⟨seat, .bid bid⟩ :: since ∧
    ∀ earlier ∈ before, earlier.seat = seat → earlier.bid? = none

/-- The seat made the bid, and none after it. -/
def BidsLast (auction : Auction) (seat : Seat) (bid : Bid) : Prop :=
  ∃ before since, auction.entries = before ++ ⟨seat, .bid bid⟩ :: since ∧
    ∀ later ∈ since, later.seat = seat → later.bid? = none

/-- The seat opened, in a strain of the kind. -/
def OpensIn (auction : Auction) (seat : Seat) (kind : Strain → Prop) : Prop :=
  ∃ opening, auction.Opens seat opening ∧ kind opening.strain

/-- The seat's first bid is in a strain of the kind, and another seat had opened. -/
def BidsLaterIn (auction : Auction) (seat : Seat) (kind : Strain → Prop) : Prop :=
  ∃ opener opening first, opener ≠ seat ∧ auction.Opens opener opening ∧
    auction.BidsFirst seat first ∧ kind first.strain

theorem openingBid?_eq_some_iff :
    auction.openingBid? = some (seat, bid) ↔ auction.Opens seat bid := by
  rw [openingBid?, List.findSome?_eq_some_iff]
  constructor
  · rintro ⟨before, made, since, hentries, hmade, hbefore⟩
    obtain rfl := seatBid?_eq_some_iff.mp hmade
    exact ⟨before, since, hentries, fun earlier h ↦ seatBid?_eq_none_iff.mp (hbefore earlier h)⟩
  · rintro ⟨before, since, hentries, hbefore⟩
    exact ⟨before, _, since, hentries, seatBid?_eq_some_iff.mpr rfl,
      fun earlier h ↦ seatBid?_eq_none_iff.mpr (hbefore earlier h)⟩

/-- The opener's first bid is the opening. -/
theorem Opens.bidsFirst (h : auction.Opens seat bid) : auction.BidsFirst seat bid := by
  obtain ⟨before, since, hentries, hbefore⟩ := h
  exact ⟨before, since, hentries, fun earlier hearlier _ ↦ hbefore earlier hearlier⟩

/-- An auction has one opening. -/
theorem Opens.unique (h : auction.Opens seat bid) (hother : auction.Opens opener opening) :
    opener = seat ∧ opening = bid := by
  rw [← openingBid?_eq_some_iff] at h hother
  exact Prod.mk.inj (Option.some.inj (hother.symm.trans h))

/-- Where a seat has bid, somebody has opened. -/
theorem BidsFirst.exists_opens (h : auction.BidsFirst seat bid) :
    ∃ opener opening, auction.Opens opener opening := by
  obtain ⟨before, since, hentries, -⟩ := h
  cases hopening : auction.openingBid? with
  | some made => exact ⟨made.1, made.2, openingBid?_eq_some_iff.mp hopening⟩
  | none =>
    rw [openingBid?, List.findSome?_eq_none_iff] at hopening
    have hmade := hopening ⟨seat, .bid bid⟩ (by simp [hentries])
    cases hmade

end Auction

namespace Position

open Auction

variable {position : Position} {seat : Seat} {bid : Bid}

/-- The bid of an entry, if the seat made it. -/
theorem bidBy_eq_some_iff {entry : Entry} :
    (if entry.seat = seat then entry.bid? else none) = some bid ↔ entry = ⟨seat, .bid bid⟩ := by
  obtain ⟨maker, call⟩ := entry
  by_cases hmaker : maker = seat
  · rw [if_pos hmaker, Entry.bid?, bid?_eq_some_iff, hmaker, Entry.mk.injEq, and_iff_right rfl]
  · simp [hmaker]

theorem bidBy_eq_none_iff {entry : Entry} :
    (if entry.seat = seat then entry.bid? else none) = none ↔
      (entry.seat = seat → entry.bid? = none) := by
  by_cases hmaker : entry.seat = seat <;> simp [hmaker]

theorem head?_bidsBy_eq_some_iff :
    (position.bidsBy seat).head? = some bid ↔ position.auction.BidsFirst seat bid := by
  rw [bidsBy, List.head?_filterMap, List.findSome?_eq_some_iff]
  simp only [bidBy_eq_some_iff, bidBy_eq_none_iff]
  constructor
  · rintro ⟨before, made, since, hentries, rfl, hbefore⟩
    exact ⟨before, since, hentries, hbefore⟩
  · rintro ⟨before, since, hentries, hbefore⟩
    exact ⟨before, _, since, hentries, rfl, hbefore⟩

theorem getLast?_bidsBy_eq_some_iff :
    (position.bidsBy seat).getLast? = some bid ↔ position.auction.BidsLast seat bid := by
  rw [bidsBy, List.getLast?_filterMap, List.findSome?_eq_some_iff]
  simp only [bidBy_eq_some_iff, bidBy_eq_none_iff]
  constructor
  · rintro ⟨since, made, before, hsplit, rfl, hsince⟩
    refine ⟨before.reverse, since.reverse, by simpa using List.reverse_eq_iff.mp hsplit, ?_⟩
    exact fun later hlater ↦ hsince later (List.mem_reverse.mp hlater)
  · rintro ⟨before, since, hentries, hsince⟩
    refine ⟨since.reverse, _, before.reverse, by simp [hentries], rfl, ?_⟩
    exact fun later hlater ↦ hsince later (List.mem_reverse.mp hlater)

end Position

/-! ### The first bid of a seat -/

namespace Auction

variable {auction : Auction} {seat : Seat} {first opening : Bid} {kind : Strain → Prop}

/-- A seat makes its first bid once. -/
theorem BidsFirst.unique (h : auction.BidsFirst seat first)
    (hother : auction.BidsFirst seat opening) : first = opening := by
  have hhead {bid : Bid} :
      (Position.bidsBy ⟨auction, seat⟩ seat).head? = some bid ↔ auction.BidsFirst seat bid :=
    Position.head?_bidsBy_eq_some_iff
  rw [← hhead] at h hother
  exact Option.some.inj (h.symm.trans hother)

/-- The first bid of a seat is the opening, or another seat had opened. -/
theorem exists_bidsFirst_iff :
    (∃ first, auction.BidsFirst seat first ∧ kind first.strain) ↔
      auction.OpensIn seat kind ∨ auction.BidsLaterIn seat kind := by
  constructor
  · rintro ⟨first, hfirst, hkind⟩
    obtain ⟨opener, opening, hopens⟩ := hfirst.exists_opens
    by_cases hseat : opener = seat
    · subst hseat
      exact .inl ⟨opening, hopens, hfirst.unique hopens.bidsFirst ▸ hkind⟩
    · exact .inr ⟨opener, opening, first, hseat, hopens, hfirst, hkind⟩
  · rintro (⟨opening, hopens, hkind⟩ | ⟨-, -, first, -, -, hfirst, hkind⟩)
    · exact ⟨opening, hopens.bidsFirst, hkind⟩
    · exact ⟨first, hfirst, hkind⟩

theorem OpensIn.not_bidsLaterIn (h : auction.OpensIn seat kind) :
    ¬ auction.BidsLaterIn seat kind := by
  rintro ⟨opener, later, -, hother, hopens, -, -⟩
  obtain ⟨opening, hopening, -⟩ := h
  exact hother (hopening.unique hopens).1

/-- To look at the first bid of a seat is to ask what it opened, but for a seat that bids later. -/
theorem bidsFirst_agrees_iff :
    ((∃ first, auction.BidsFirst seat first ∧ kind first.strain) ↔ auction.OpensIn seat kind) ↔
      ¬ auction.BidsLaterIn seat kind := by
  rw [exists_bidsFirst_iff, or_iff_left_iff_imp]
  exact ⟨fun h hlater ↦ (h hlater).not_bidsLaterIn hlater, fun h hlater ↦ absurd hlater h⟩

end Auction

/-! ### The questions -/

namespace Position

open Auction PositionTest

variable {position : Position}

theorem partnerFirst_any_iff {kind : Strain → Bool} :
    position.partnerFirstStrain?.any kind = true ↔
      ∃ first, position.auction.BidsFirst position.seat.partner first ∧
        kind first.strain = true := by
  simp only [partnerFirstStrain?, Option.any_map, Option.any_eq_true,
    partnerBids, head?_bidsBy_eq_some_iff]

theorem partnerLastStrain?_eq_some_iff {strain : Strain} :
    position.partnerLastStrain? = some strain ↔
      ∃ last, position.auction.BidsLast position.seat.partner last ∧ last.strain = strain := by
  simp only [partnerLastStrain?, Option.map_eq_some_iff, partnerBids, getLast?_bidsBy_eq_some_iff]

theorem holds_partnerOpenedIn_iff {strain : Strain} :
    (partnerOpenedIn strain).holds position = true ↔
      position.auction.OpensIn position.seat.partner (· = strain) := by
  simp only [PositionTest.holds, Option.any_eq_true, Bool.and_eq_true, decide_eq_true_iff,
    Prod.exists, openingBid?, openingBid?_eq_some_iff, OpensIn]
  constructor
  · rintro ⟨opener, opening, hopens, rfl, hstrain⟩
    exact ⟨opening, hopens, hstrain⟩
  · rintro ⟨opening, hopens, hstrain⟩
    exact ⟨_, opening, hopens, rfl, hstrain⟩

/-- Partner opened in one of the strains of a kind exactly if partner opened in one of them. -/
theorem exists_partnerOpenedIn_iff {kind : Strain → Bool} {strains : List Strain}
    (hkind : ∀ strain, strain ∈ strains ↔ kind strain = true) :
    (∃ strain ∈ strains, (partnerOpenedIn strain).holds position = true) ↔
      position.auction.OpensIn position.seat.partner fun strain ↦ kind strain = true := by
  simp only [holds_partnerOpenedIn_iff, hkind]
  constructor
  · rintro ⟨strain, hstrain, opening, hopens, rfl⟩
    exact ⟨opening, hopens, hstrain⟩
  · rintro ⟨opening, hopens, hstrain⟩
    exact ⟨_, hstrain, opening, hopens, rfl⟩

/-- Whether partner's first bid is of a kind agrees with whether partner opened in one of its
strains unless partner first bid one after another seat had opened. -/
theorem first_agrees_iff {kind : Strain → Bool} {strains : List Strain}
    (hkind : ∀ strain, strain ∈ strains ↔ kind strain = true) (position : Position) :
    ((position.partnerFirstStrain?.any kind = true ↔
      ∃ strain ∈ strains, (partnerOpenedIn strain).holds position = true) ↔
        ¬ position.auction.BidsLaterIn position.seat.partner fun strain ↦ kind strain = true) := by
  rw [partnerFirst_any_iff, exists_partnerOpenedIn_iff hkind]
  exact @bidsFirst_agrees_iff position.auction position.seat.partner fun strain ↦
    kind strain = true

/-- A raise of this seat's first bid, in a major. -/
theorem holds_partnerRaisedMajor_iff :
    partnerRaisedMajor.holds position = true ↔
      ∃ first, position.auction.BidsFirst position.seat first ∧ first.strain.isMajor = true ∧
        ∃ last, position.auction.BidsLast position.seat.partner last ∧
          last.strain = first.strain := by
  simp only [← head?_bidsBy_eq_some_iff, ← partnerLastStrain?_eq_some_iff]
  rw [PositionTest.holds, majorIsRaised, ownFirstStrain?, ownBids]
  cases (position.bidsBy position.seat).head? with
  | none => simp
  | some first => simp

/-- What the questions about openings say of an auction that a seat looks at.  That partner opened
in a strain is told as it is.  Whether partner opened a major, or a minor, agrees with that unless
partner's first bid is in one and another seat had opened; and that partner raised a major agrees
with this seat's having opened it unless this seat's first bid is in it and another seat had
opened. -/
theorem opening_questions (position : Position) :
    let auction := position.auction
    let seat := position.seat
    let raised : Strain → Prop := fun strain ↦
      strain.isMajor = true ∧ ∃ last, auction.BidsLast seat.partner last ∧ last.strain = strain
    (∀ strain, (partnerOpenedIn strain).holds position = true ↔
      auction.OpensIn seat.partner (· = strain)) ∧
    ((partnerFirstMajor.holds position = true ↔
      ∃ strain ∈ [Strain.hearts, .spades], (partnerOpenedIn strain).holds position = true) ↔
        ¬ auction.BidsLaterIn seat.partner fun strain ↦ strain.isMajor = true) ∧
    ((partnerFirstMinor.holds position = true ↔
      ∃ strain ∈ [Strain.clubs, .diamonds], (partnerOpenedIn strain).holds position = true) ↔
        ¬ auction.BidsLaterIn seat.partner fun strain ↦ strain.isMinor = true) ∧
    ((partnerRaisedMajor.holds position = true ↔ auction.OpensIn seat raised) ↔
        ¬ auction.BidsLaterIn seat raised) := by
  intro auction seat raised
  refine ⟨fun strain ↦ holds_partnerOpenedIn_iff, first_agrees_iff ?majors position,
    first_agrees_iff ?minors position, ?raised⟩
  case majors =>
    intro strain
    cases strain <;> decide
  case minors =>
    intro strain
    cases strain <;> decide
  case raised =>
    rw [holds_partnerRaisedMajor_iff]
    exact @bidsFirst_agrees_iff auction seat raised

/-- When west has raised east's overcall in hearts, east takes the overcall for an opening of its
own and the raise for one of partner's.  West takes east's overcall in diamonds for an opening, and
south its own response once north has raised it.  But in each of the auctions north opened. -/
theorem opening_mistaken :
    let majorOvercall := Auction.ofCalls .north [.of 1 .clubs, .of 1 .hearts, .pass, .of 2 .hearts,
      .pass]
    let minorOvercall := Auction.ofCalls .north [.of 1 .clubs, .of 1 .diamonds, .pass]
    let response := Auction.ofCalls .north
      [.of 1 .clubs, .pass, .of 1 .spades, .pass, .of 2 .spades, .pass]
    (Reachable (some .north) majorOvercall ∧
      partnerFirstMajor.holds ⟨majorOvercall, .east⟩ = true ∧
      (∀ strain, (partnerOpenedIn strain).holds ⟨majorOvercall, .east⟩ = false) ∧
      partnerRaisedMajor.holds ⟨majorOvercall, .east⟩ = true ∧
      ¬ ∃ opening, majorOvercall.Opens .east opening) ∧
    (Reachable (some .north) minorOvercall ∧
      partnerFirstMinor.holds ⟨minorOvercall, .west⟩ = true ∧
      ∀ strain, (partnerOpenedIn strain).holds ⟨minorOvercall, .west⟩ = false) ∧
    Reachable (some .north) response ∧
      partnerRaisedMajor.holds ⟨response, .south⟩ = true ∧
      ¬ ∃ opening, response.Opens .south opening := by
  intro majorOvercall minorOvercall response
  have hovercall : majorOvercall.Opens .north ⟨1, .clubs⟩ := openingBid?_eq_some_iff.mp rfl
  have hresponse : response.Opens .north ⟨1, .clubs⟩ := openingBid?_eq_some_iff.mp rfl
  refine ⟨⟨reachable_ofCalls (by decide), by decide, fun strain ↦ rfl, by decide, ?_⟩,
    ⟨reachable_ofCalls (by decide), by decide, fun strain ↦ rfl⟩,
    reachable_ofCalls (by decide), by decide, ?_⟩
  · rintro ⟨opening, heast⟩
    cases (hovercall.unique heast).1
  · rintro ⟨opening, hsouth⟩
    cases (hresponse.unique hsouth).1

end Position

end BridgeBidding
