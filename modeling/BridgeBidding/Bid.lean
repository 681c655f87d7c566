import BridgeBidding.Value

/-!
# Strains and bids

A bid names a level from one to seven and a strain.  Bids rank by level first and by strain second
(`Bid.difference`, `Bid.outranks`), and `Bid.all` lists all thirty-five in rising order.

A level or a strain that comes from outside is a plain value.  `Bid.given` reads such a pair; the
level may also be given as a truth value, which counts as its number but keeps its own spelling.
-/

set_option autoImplicit false
set_option relaxedAutoImplicit false

namespace BridgeBidding

/-- A denomination, from the lowest to the highest. -/
inductive Strain where
  | clubs
  | diamonds
  | hearts
  | spades
  | notrump
  deriving DecidableEq, Repr

namespace Strain

/-- The strains in rising order. -/
def all : List Strain := [clubs, diamonds, hearts, spades, notrump]

/-- The place of the strain in rising order. -/
def rank : Strain → Nat
  | clubs => 0
  | diamonds => 1
  | hearts => 2
  | spades => 3
  | notrump => 4

def isMajor : Strain → Bool
  | hearts | spades => true
  | _ => false

def isMinor : Strain → Bool
  | clubs | diamonds => true
  | _ => false

/-- The text that stands for the strain. -/
def text : Strain → String
  | clubs => "C"
  | diamonds => "D"
  | hearts => "H"
  | spades => "S"
  | notrump => "NT"

/-- The strain that a text stands for. -/
def ofText? (text : String) : Option Strain :=
  all.find? (·.text == text)

end Strain

/-- Why a level and a strain make no bid. -/
inductive BidError where
  | levelOutOfRange (level : Value)
  | notAStrain (strain : Value)

namespace BidError

/-- The message of the error. -/
def message : BidError → String
  | levelOutOfRange level => "Bid level must be 1-7, got " ++ level.written
  | notAStrain strain => strain.written ++ " is not a valid Strain"

end BidError

/-- How many tricks beyond six a bid promises. -/
inductive Level where
  | one
  | two
  | three
  | four
  | five
  | six
  | seven
  deriving DecidableEq, Repr

namespace Level

/-- The levels in rising order. -/
def all : List Level := [one, two, three, four, five, six, seven]

/-- The number of the level. -/
def number : Level → Nat
  | one => 1
  | two => 2
  | three => 3
  | four => 4
  | five => 5
  | six => 6
  | seven => 7

/-- The level that a number stands for. -/
def ofNumber? (number : Int) : Option Level :=
  all.find? fun level ↦ (level.number : Int) == number

instance : OfNat Level 1 where ofNat := one

instance : OfNat Level 2 where ofNat := two

instance : OfNat Level 3 where ofNat := three

instance : OfNat Level 4 where ofNat := four

instance : OfNat Level 5 where ofNat := five

instance : OfNat Level 6 where ofNat := six

instance : OfNat Level 7 where ofNat := seven

theorem one_le_number (level : Level) : 1 ≤ level.number := by
  cases level <;> decide

theorem number_le_seven (level : Level) : level.number ≤ 7 := by
  cases level <;> decide

@[simp] theorem ofNumber?_number (level : Level) : ofNumber? level.number = some level := by
  cases level <;> rfl

theorem number_injective {level other : Level} (h : level.number = other.number) :
    level = other := by
  have hsome : some level = some other := by
    rw [← ofNumber?_number level, ← ofNumber?_number other, h]
  exact Option.some.inj hsome

end Level

/-- A bid of a level in a strain. -/
structure Bid where
  level : Level
  strain : Strain
  deriving DecidableEq, Repr

namespace Bid

/-- The text that stands for the bid. -/
def text (bid : Bid) : String :=
  toString bid.level.number ++ bid.strain.text

/-- How far one bid lies above another: in levels, or in strains on one level. -/
def difference (bid other : Bid) : Int :=
  if bid.level = other.level then
    (bid.strain.rank : Int) - other.strain.rank
  else
    (bid.level.number : Int) - other.level.number

/-- The bid ranks above the other. -/
def outranks (bid other : Bid) : Bool :=
  decide (0 < bid.difference other)

/-- All bids in rising order. -/
def all : List Bid :=
  Level.all.flatMap fun level ↦ Strain.all.map fun strain ↦ { level, strain }

/-- The number that a value gives as a level: a truth value counts as zero or one. -/
def levelNumber? : Value → Option Int
  | .int number => some number
  | .bool truth => some (if truth then 1 else 0)
  | _ => none

/-- The strain that a value gives. -/
def strainOf? : Value → Option Strain
  | .text content => Strain.ofText? content
  | _ => none

/-- A bid together with the value that its level was given as. -/
structure Given where
  bid : Bid
  level : Value

/-- The text of a bid as it was given, which spells its level as the value did. -/
def Given.text (given : Given) : String :=
  given.level.written ++ given.bid.strain.text

/-- The bid with its level given as a number. -/
def plain (bid : Bid) : Given := { bid, level := .int bid.level.number }

/-- The level that a value gives. -/
def levelOf? (value : Value) : Option Level :=
  (levelNumber? value).bind Level.ofNumber?

/-- The bid in a strain of a level given as a value, if there is such a level. -/
def ofLevel (level : Value) (strain : Strain) : Except BidError Bid :=
  match levelOf? level with
  | some level => .ok { level, strain }
  | none => .error (.levelOutOfRange level)

/-- The bid of a level and a strain given as values.  The level is examined first. -/
def given (level strain : Value) : Except BidError Given :=
  match levelOf? level, strainOf? strain with
  | none, _ => .error (.levelOutOfRange level)
  | some _, none => .error (.notAStrain strain)
  | some number, some denomination =>
    .ok { bid := { level := number, strain := denomination }, level }

@[simp] theorem ofLevel_number (level : Level) (strain : Strain) :
    ofLevel (.int level.number) strain = .ok { level, strain } := by
  simp [ofLevel, levelOf?, levelNumber?]

theorem outranks_iff {bid other : Bid} :
    bid.outranks other = true ↔ 0 < bid.difference other :=
  decide_eq_true_iff

theorem outranks_irrefl (bid : Bid) : bid.outranks bid = false := by
  simp [outranks, difference]

end Bid

end BridgeBidding
