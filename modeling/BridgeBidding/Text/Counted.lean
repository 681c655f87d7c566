import BridgeBidding.Value.Amount

/-!
# Counted nouns
-/

set_option autoImplicit false
set_option relaxedAutoImplicit false

namespace BridgeBidding.Text

/-- A number with its noun, which takes an s unless the number is one. -/
def counted (number : Value) (noun : String) : String :=
  number.shown ++ " " ++ noun ++ (if number.whole? = some 1 then "" else "s")

end BridgeBidding.Text
