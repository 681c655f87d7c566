/-!
# Seats and vulnerability

The four seats of the table in clockwise order.  `Seat.next` is the seat that calls next,
`Seat.partner` the seat opposite; two seats are on the same side (`Seat.sameSide`) when they are
equal or partners.
-/

set_option autoImplicit false
set_option relaxedAutoImplicit false

namespace BridgeBidding

/-- A seat at the table. -/
inductive Seat where
  | north
  | east
  | south
  | west
  deriving DecidableEq, Repr

namespace Seat

/-- The seats in clockwise order from north. -/
def all : List Seat := [north, east, south, west]

/-- The seat to the left. -/
def next : Seat → Seat
  | north => east
  | east => south
  | south => west
  | west => north

/-- The seat opposite. -/
def partner (seat : Seat) : Seat := seat.next.next

/-- The two seats belong to one partnership. -/
def sameSide (seat other : Seat) : Bool :=
  decide (other = seat) || decide (other = seat.partner)

/-- The letter that stands for the seat. -/
def letter : Seat → String
  | north => "N"
  | east => "E"
  | south => "S"
  | west => "W"

/-- The seat that a letter stands for. -/
def ofLetter? (text : String) : Option Seat :=
  all.find? (·.letter == text)

@[simp] theorem next_next_next_next (seat : Seat) : seat.next.next.next.next = seat := by
  cases seat <;> rfl

@[simp] theorem partner_partner (seat : Seat) : seat.partner.partner = seat := by
  cases seat <;> rfl

theorem sameSide_comm (seat other : Seat) : seat.sameSide other = other.sameSide seat := by
  cases seat <;> cases other <;> rfl

end Seat

/-- Which sides are vulnerable. -/
inductive Vulnerability where
  | neither
  | northSouth
  | eastWest
  | both
  deriving DecidableEq, Repr

namespace Vulnerability

def all : List Vulnerability := [neither, northSouth, eastWest, both]

/-- The text that stands for the vulnerability. -/
def text : Vulnerability → String
  | neither => "None"
  | northSouth => "NS"
  | eastWest => "EW"
  | both => "Both"

/-- The vulnerability that a text stands for. -/
def ofText? (text : String) : Option Vulnerability :=
  all.find? (·.text == text)

end Vulnerability

end BridgeBidding
