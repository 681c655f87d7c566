import BridgeBidding.Call
import BridgeBidding.Text.Blank
import BridgeBidding.Text.Capital

/-!
# Reading calls

A call is written as a level and a strain, or by a letter or word: `P` or `PASS`, `X` or `DOUBLE`,
`XX` or `REDOUBLE`; notrump is `NT` or `N`.  Blanks around the call and the case of its letters do
not matter.  `Call.read` reads a text and `Call.readValue` any plain value, of which only texts are
calls.
-/

set_option autoImplicit false
set_option relaxedAutoImplicit false

namespace BridgeBidding

/-- Why a notation is no call. -/
inductive CallError where
  | notText (given : Value)
  | unreadable (given : String)

namespace CallError

/-- The message of the error. -/
def message : CallError → String
  | notText given => "Call notation must be a string, got " ++ given.kind
  | unreadable given => "Invalid call notation: \"" ++ given ++ "\""

/-- The notation that was given, as messages repeat it. -/
def raw : CallError → String
  | notText given => given.written
  | unreadable given => given

end CallError

namespace Call

/-- The level that a digit stands for. -/
def levelOf? : Char → Option Level
  | '1' => some 1
  | '2' => some 2
  | '3' => some 3
  | '4' => some 4
  | '5' => some 5
  | '6' => some 6
  | '7' => some 7
  | _ => none

/-- The strain that the capitals after a level stand for. -/
def strainOf? : List Char → Option Strain
  | ['C'] => some .clubs
  | ['D'] => some .diamonds
  | ['H'] => some .hearts
  | ['S'] => some .spades
  | ['N'] => some .notrump
  | ['N', 'T'] => some .notrump
  | _ => none

/-- The bid that capitals stand for. -/
def bidOf? : List Char → Option Bid
  | [] => none
  | digit :: rest => do
    let level ← levelOf? digit
    let strain ← strainOf? rest
    return { level, strain }

/-- The call that capitals stand for. -/
def ofCapitals? (characters : List Char) : Option Call :=
  if characters = ['P'] ∨ characters = ['P', 'A', 'S', 'S'] then
    some pass
  else if characters = ['X'] ∨ characters = ['D', 'O', 'U', 'B', 'L', 'E'] then
    some double
  else if characters = ['X', 'X'] ∨
      characters = ['R', 'E', 'D', 'O', 'U', 'B', 'L', 'E'] then
    some redouble
  else
    (bidOf? characters).map bid

/-- The call that a text stands for, whatever its case and the blanks around it. -/
def read (written : String) : Except CallError Call :=
  match ofCapitals? (Text.capitals (Text.trim written.toList)) with
  | some call => .ok call
  | none => .error (.unreadable written)

/-- The call that a plain value stands for. -/
def readValue : Value → Except CallError Call
  | .text content => read content
  | value => .error (.notText value)

end Call

end BridgeBidding
