import BridgeBidding.Hand

/-!
# Sample hands

Hands that several conventions show among their examples.
-/

set_option autoImplicit false
set_option relaxedAutoImplicit false

namespace BridgeBidding.Hand

/-- A balanced hand of seventeen points, a notrump opening, with four hearts and two aces. -/
def strongNotrump : Hand :=
  .ofSuits [.ace, .queen, .five] [.king, .jack, .eight, .four] [.king, .seven, .two]
    [.ace, .nine, .three]

/-- Five spades and four hearts in a hand of twelve points, for overcalls that show both majors. -/
def bothMajors : Hand :=
  .ofSuits [.king, .queen, .eight, .five, .two] [.ace, .jack, .seven, .four] [.five]
    [.queen, .nine, .three]

end BridgeBidding.Hand
