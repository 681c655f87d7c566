/-!
# Blank characters

Which characters count as blank when a notation is read, and `trim`, which drops them at both ends
of a text.  Zero-width characters and the byte order mark are not blank.
-/

set_option autoImplicit false
set_option relaxedAutoImplicit false

namespace BridgeBidding.Text

/-- Inclusive ranges of the codes of blank characters: the spaces, line ends and information
separators of the Unicode standard. -/
def blankRanges : List (Nat × Nat) :=
  [(0x9, 0xd), (0x1c, 0x20), (0x85, 0x85), (0xa0, 0xa0), (0x1680, 0x1680), (0x2000, 0x200a),
    (0x2028, 0x2029), (0x202f, 0x202f), (0x205f, 0x205f), (0x3000, 0x3000)]

/-- The character is a space, a line end or an information separator. -/
def isBlank (character : Char) : Bool :=
  blankRanges.any fun range ↦
    decide (range.1 ≤ character.toNat) && decide (character.toNat ≤ range.2)

/-- The text without blanks at its start. -/
def trimStart (characters : List Char) : List Char :=
  characters.dropWhile isBlank

/-- The text without blanks at its end. -/
def trimEnd (characters : List Char) : List Char :=
  (trimStart characters.reverse).reverse

/-- The text without blanks at either end. -/
def trim (characters : List Char) : List Char :=
  trimEnd (trimStart characters)

end BridgeBidding.Text
