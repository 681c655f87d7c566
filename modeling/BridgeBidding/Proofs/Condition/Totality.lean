import BridgeBidding.Convention.Registry
import BridgeBidding.Proofs.Condition.Report
import BridgeBidding.Proofs.Tree.Path

/-!
# Conditions that never fail

A question about the hand fails only if what it asks for cannot be compared with what is held, or if
it asks for a bid at a level that does not exist.  `HandTest.isTotal` looks for this, and
`Condition.isTotal` for a condition in which there is no such question and none that is written out
by hand.  A total condition can be answered, described and reported on in every context
(`Condition.isSettled_of_isTotal`, `Condition.exists_branches_of_isTotal`), and the built-in
conventions ask no others (`Registry.isTotal_of_mem_builtin`).
-/

set_option autoImplicit false
set_option relaxedAutoImplicit false

namespace BridgeBidding

open Success

/-! ### Comparisons that succeed -/

/-- The value is an amount. -/
def Value.isAmount (value : Value) : Bool := value.amount?.isSome

/-- The value is no text, so that it can be said whether a number is among its parts. -/
def Value.hasParts : Value → Bool
  | text _ => false
  | _ => true

namespace Comparison

variable (held : Int)

theorem exists_atLeast {minimum : Value} (h : minimum.isAmount = true) :
    ∃ answer, atLeast held minimum = .ok answer := by
  obtain ⟨amount, hamount⟩ := Option.isSome_iff_exists.mp h
  exact ⟨_, by rw [atLeast, hamount]⟩

theorem exists_atMost {maximum : Value} (h : maximum.isAmount = true) :
    ∃ answer, atMost held maximum = .ok answer := by
  obtain ⟨amount, hamount⟩ := Option.isSome_iff_exists.mp h
  exact ⟨_, by rw [atMost, hamount]⟩

theorem exists_below {threshold : Value} (h : threshold.isAmount = true) :
    ∃ answer, below held threshold = .ok answer := by
  obtain ⟨amount, hamount⟩ := Option.isSome_iff_exists.mp h
  exact ⟨_, by rw [below, hamount]⟩

theorem exists_within {minimum maximum : Value} (hminimum : minimum.isAmount = true)
    (hmaximum : maximum.isAmount = true) :
    ∃ answer, within held minimum maximum = .ok answer := by
  obtain ⟨amount, hamount⟩ := Option.isSome_iff_exists.mp hminimum
  rw [within, hamount]
  dsimp only
  by_cases hreached : amount.isAtMost held = true
  · rw [if_pos hreached]
    exact exists_atMost held hmaximum
  · rw [if_neg hreached]
    exact ⟨false, rfl⟩

theorem exists_among {counts : Value} (h : counts.hasParts = true) :
    ∃ answer, among held counts = .ok answer := by
  cases counts with
  | text content => cases h
  | _ => exact ⟨_, rfl⟩

end Comparison

/-! ### Questions about the hand -/

namespace HandTest

/-- What the question asks for can be compared with any hand in any auction. -/
def isTotal : HandTest → Bool
  | pointsMin bound | pointsMax bound | suitMin _ bound | suitBelow _ bound | anySuitMin _ bound
  | majorSupport bound _ | partnerSuitSupport bound | partnerMajorSupport bound
  | openedSuitMin bound | supportAfter _ _ bound | lackAfter _ _ bound => bound.isAmount
  | pointsRange first second | twoSuited first second => first.isAmount && second.isAmount
  | aceCountAny counts | kingCountAny counts => counts.hasParts
  | biddableSuit level minimum => (Bid.levelOf? level).isSome && minimum.isAmount
  | _ => true

theorem exists_firstLong? (context : Context) {minimum : Value} (h : minimum.isAmount = true)
    (suits : List Suit) :
    ∃ suit?, firstLong? context minimum suits = .ok suit? := by
  induction suits with
  | nil => exact ⟨none, rfl⟩
  | cons suit rest ih =>
    obtain ⟨answer, hanswer⟩ := Comparison.exists_atLeast (context.length suit) h
    rw [firstLong?, hanswer, ok_bind]
    cases answer with
    | true => exact ⟨some suit, rfl⟩
    | false => exact ih

theorem exists_isTwoSuited {shape : Shape} {longest second : Value}
    (hlongest : longest.isAmount = true) (hsecond : second.isAmount = true) :
    ∃ answer, isTwoSuited shape longest second = .ok answer := by
  obtain ⟨answer, hanswer⟩ := Comparison.exists_atLeast (shape.length shape.longest) hlongest
  rw [isTwoSuited, hanswer, ok_bind]
  cases answer with
  | true => exact Comparison.exists_atLeast _ hsecond
  | false => exact ⟨false, rfl⟩

theorem exists_isSupport (length : Int) {count : Value} (h : count.isAmount = true)
    (orMore : Bool) : ∃ answer, isSupport length count orMore = .ok answer := by
  cases orMore with
  | true => exact Comparison.exists_atLeast _ h
  | false => exact ⟨_, rfl⟩

end HandTest

namespace Context

variable (context : Context) {level minimum : Value}

theorem exists_isBiddable (hlevel : (Bid.levelOf? level).isSome = true)
    (hminimum : minimum.isAmount = true) (suit : Suit) :
    ∃ answer, context.isBiddable level minimum suit = .ok answer := by
  obtain ⟨number, hnumber⟩ := Option.isSome_iff_exists.mp hlevel
  obtain ⟨answer, hanswer⟩ := Comparison.exists_below (context.length suit) hminimum
  rw [isBiddable, hanswer, ok_bind]
  cases answer with
  | true => exact ⟨false, rfl⟩
  | false =>
    cases context.auction.lastBid? with
    | none => exact ⟨true, rfl⟩
    | some last =>
      exact ⟨Bid.outranks ⟨number, suit.strain⟩ last.2, by simp [Bid.ofLevel, hnumber]⟩

theorem exists_biddableAmong (hlevel : (Bid.levelOf? level).isSome = true)
    (hminimum : minimum.isAmount = true) (suits : List Suit) :
    ∃ biddable, context.biddableAmong level minimum suits = .ok biddable := by
  induction suits with
  | nil => exact ⟨[], rfl⟩
  | cons suit rest ih =>
    obtain ⟨answer, hanswer⟩ := exists_isBiddable context hlevel hminimum suit
    obtain ⟨others, hothers⟩ := ih
    exact ⟨_, by rw [biddableAmong, hanswer, ok_bind, hothers, ok_bind]; rfl⟩

theorem exists_longestBiddable? (hlevel : (Bid.levelOf? level).isSome = true)
    (hminimum : minimum.isAmount = true) :
    ∃ suit?, context.longestBiddable? level minimum = .ok suit? := by
  obtain ⟨biddable, hbiddable⟩ := exists_biddableAmong context hlevel hminimum Suit.all
  exact ⟨_, by rw [longestBiddable?, hbiddable, ok_bind]; rfl⟩

end Context

namespace Condition

variable {context : Context} {condition : Condition} {parts : List Condition}

/-- A question that is answered and described by one comparison is settled if that succeeds. -/
theorem isSettled_compared {compared : Except Failure Bool} {met unmet : String}
    (hcompared : ∃ answer, compared = .ok answer) (hholds : condition.holds context = compared)
    (hdescribe : condition.describe context = do
      if ← compared then return met else return unmet) :
    condition.IsSettled context := by
  obtain ⟨answer, rfl⟩ := hcompared
  refine ⟨⟨answer, hholds⟩, ?_⟩
  cases answer with
  | true => exact ⟨met, hdescribe⟩
  | false => exact ⟨unmet, hdescribe⟩

/-- A question about the length of a suit that the auction picks, if it picks one. -/
theorem isSettled_fits {test : HandTest} {suit? : Option Suit} {minimum : Value} {missing : String}
    (hminimum : minimum.isAmount = true)
    (hholds : test.holds context = HandTest.fits context suit? minimum)
    (hdescribe : test.describe context = HandTest.describeFit context suit? minimum missing) :
    (holding test).IsSettled context := by
  cases suit? with
  | none => exact ⟨⟨false, hholds⟩, missing, hdescribe⟩
  | some suit => exact isSettled_compared (Comparison.exists_atLeast _ hminimum) hholds hdescribe

/-- A question that is asked only after a pattern. -/
theorem isSettled_after {test : HandTest} {pattern : Pattern} {compared : Except Failure Bool}
    {met unmet missed : String} (hcompared : ∃ answer, compared = .ok answer)
    (hholds : test.holds context =
      if pattern.fits context.auction then compared else .ok false)
    (hdescribe : test.describe context =
      if pattern.fits context.auction then do
        if ← compared then return met else return unmet
      else
        .ok missed) :
    (holding test).IsSettled context := by
  by_cases hfits : pattern.fits context.auction = true
  · rw [if_pos hfits] at hholds hdescribe
    exact isSettled_compared hcompared hholds hdescribe
  · rw [if_neg hfits] at hholds hdescribe
    exact ⟨⟨false, hholds⟩, missed, hdescribe⟩

/-- A total question about the hand can be answered and described. -/
theorem isSettled_holding {test : HandTest} (h : test.isTotal = true) :
    (holding test).IsSettled context := by
  cases test with
  | pointsMin minimum => exact isSettled_compared (Comparison.exists_atLeast _ h) rfl rfl
  | pointsMax maximum => exact isSettled_compared (Comparison.exists_atMost _ h) rfl rfl
  | suitMin suit minimum => exact isSettled_compared (Comparison.exists_atLeast _ h) rfl rfl
  | suitBelow suit threshold => exact isSettled_compared (Comparison.exists_below _ h) rfl rfl
  | pointsRange minimum maximum =>
    obtain ⟨hminimum, hmaximum⟩ := Bool.and_eq_true_iff.mp h
    exact isSettled_compared (Comparison.exists_within _ hminimum hmaximum) rfl rfl
  | twoSuited longest second =>
    obtain ⟨hlongest, hsecond⟩ := Bool.and_eq_true_iff.mp h
    exact isSettled_compared (HandTest.exists_isTwoSuited hlongest hsecond) rfl rfl
  | aceCountAny counts => exact isSettled_compared (Comparison.exists_among _ h) rfl rfl
  | kingCountAny counts => exact isSettled_compared (Comparison.exists_among _ h) rfl rfl
  | partnerSuitSupport minimum => exact isSettled_fits h rfl rfl
  | partnerMajorSupport minimum => exact isSettled_fits h rfl rfl
  | openedSuitMin minimum => exact isSettled_fits h rfl rfl
  | supportAfter pattern suit minimum =>
    exact isSettled_after (Comparison.exists_atLeast _ h) rfl rfl
  | lackAfter pattern suit threshold =>
    exact isSettled_after (Comparison.exists_below _ h) rfl rfl
  | anySuitMin suits minimum =>
    obtain ⟨suit?, hsuit⟩ := HandTest.exists_firstLong? context h suits
    refine ⟨⟨suit?.isSome, ?_⟩, ?_⟩
    · rw [holds, HandTest.holds, hsuit]
      rfl
    · rw [describe, HandTest.describe, HandTest.describeAnySuit, hsuit, ok_bind]
      cases suit? with
      | none => exact ⟨_, rfl⟩
      | some suit => exact ⟨_, rfl⟩
  | majorSupport count orMore =>
    rw [IsSettled, holds, HandTest.holds, describe, HandTest.describe,
      HandTest.describeMajorSupport]
    cases context.raisableMajor? with
    | none => exact ⟨⟨false, rfl⟩, _, rfl⟩
    | some major =>
      obtain ⟨answer, hanswer⟩ := HandTest.exists_isSupport (context.length major) h orMore
      refine ⟨⟨answer, hanswer⟩, ?_⟩
      dsimp only
      rw [hanswer, ok_bind]
      cases answer with
      | true => exact ⟨_, rfl⟩
      | false => exact ⟨_, rfl⟩
  | biddableSuit level minimum =>
    obtain ⟨hlevel, hminimum⟩ := Bool.and_eq_true_iff.mp h
    obtain ⟨suit?, hsuit⟩ := Context.exists_longestBiddable? context hlevel hminimum
    rw [IsSettled, holds, HandTest.holds, describe, HandTest.describe, hsuit]
    exact ⟨⟨_, rfl⟩, _, rfl⟩
  | _ => exact ⟨⟨_, rfl⟩, _, rfl⟩

/-! ### Conditions -/

mutual

/-- No question of the condition is written out by hand, and all about the hand are total. -/
def isTotal : Condition → Bool
  | position _ => true
  | holding test => test.isTotal
  | custom _ => false
  | negation condition => condition.isTotal
  | conjunction parts | disjunction parts => areTotal parts

/-- All of the conditions are total. -/
def areTotal : List Condition → Bool
  | [] => true
  | condition :: rest => condition.isTotal && areTotal rest

end

theorem areTotal_eq_true_iff : areTotal parts = true ↔ ∀ part ∈ parts, part.isTotal = true := by
  induction parts with
  | nil => simp [areTotal]
  | cons part rest ih => rw [areTotal, Bool.and_eq_true, List.forall_mem_cons, ih]

/-- The opposite of a settled condition is settled. -/
theorem isSettled_negation (h : condition.IsSettled context) :
    (negation condition).IsSettled context := by
  obtain ⟨⟨answer, hanswer⟩, description, hdescription⟩ := h
  exact ⟨⟨!answer, by rw [holds, hanswer]; rfl⟩, _, by rw [describe, hdescription]; rfl⟩

/-- A total condition can be answered and described in every context. -/
theorem isSettled_of_isTotal (h : condition.isTotal = true) : condition.IsSettled context := by
  induction condition using induct with
  | position test => exact isSettled_position test
  | holding test => exact isSettled_holding h
  | custom test => cases h
  | negation condition ih => exact isSettled_negation (ih h)
  | conjunction parts ih =>
    have hparts := areTotal_eq_true_iff.mp h
    exact isSettled_conjunction fun part hpart ↦ ih part hpart (hparts part hpart)
  | disjunction parts ih =>
    have hparts := areTotal_eq_true_iff.mp h
    exact isSettled_disjunction_iff.mpr fun part hpart ↦ ih part hpart (hparts part hpart)

/-- The report on a total condition asks total conditions only. -/
theorem isTotal_of_mem_reported {asked : Condition} (h : condition.isTotal = true)
    (hasked : asked ∈ condition.reported) : asked.isTotal = true := by
  induction condition using induct with
  | conjunction parts ih | disjunction parts ih =>
    have hparts := areTotal_eq_true_iff.mp h
    obtain ⟨part, hpart, hmem⟩ := mem_reportedAmong_iff.mp hasked
    rcases List.mem_cons.mp hmem with rfl | hinner
    · exact hparts _ hpart
    · exact ih part hpart (hparts part hpart) hinner
  | _ => cases hasked

/-- A total condition has its branches in every context. -/
theorem exists_branches_of_isTotal (context : Context) (h : condition.isTotal = true) :
    ∃ branches, condition.branches context = .ok branches :=
  (exists_branches_iff context condition).mpr fun _ hasked ↦
    isSettled_of_isTotal (isTotal_of_mem_reported h hasked)

end Condition

theorem Registry.isTotal_of_mem_builtin {convention : Convention} {condition : Condition}
    (h : convention ∈ builtin) (hcondition : condition ∈ convention.tree.conditions) :
    condition.isTotal = true := by
  have hall : (builtin.all fun convention ↦
      convention.tree.conditions.all Condition.isTotal) = true := by decide
  exact List.all_eq_true.mp (List.all_eq_true.mp hall convention h) condition hcondition

end BridgeBidding
