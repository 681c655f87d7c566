/-!
# Cutting at a separator

`splitOn` cuts a list of characters at every occurrence of a separator, and `splitOn_ne_nil` says
that there is always a piece.
-/

set_option autoImplicit false
set_option relaxedAutoImplicit false

namespace BridgeBidding.Text

/-- The pieces between the occurrences of `separator`: one more than there are occurrences. -/
def splitOn (separator : Char) : List Char → List (List Char)
  | [] => [[]]
  | character :: rest =>
    if character = separator then
      [] :: splitOn separator rest
    else
      match splitOn separator rest with
      | [] => [[character]]
      | piece :: pieces => (character :: piece) :: pieces

theorem splitOn_ne_nil (separator : Char) (characters : List Char) :
    splitOn separator characters ≠ [] := by
  cases characters with
  | nil => simp [splitOn]
  | cons character rest =>
    simp only [splitOn]
    split
    · simp
    · split <;> simp

end BridgeBidding.Text
