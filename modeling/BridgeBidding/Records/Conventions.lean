import BridgeBidding.Convention
import BridgeBidding.Records.Results

/-!
# Conventions as records

A convention written out: what is asked of its deals, its tree, its flattened rules and its
examples.  A question that is not asked of a seat is null, and a call that is still to be worked out
is not shown.
-/

set_option autoImplicit false
set_option relaxedAutoImplicit false

namespace BridgeBidding

/-- The name of the condition, its label, its category, and what it says about a hand. -/
def Condition.fields (condition : Condition) : Fields :=
  [("name", .text condition.name),
    ("label", .text condition.label),
    ("category", .text condition.category.text),
    ("inference", .ofOption Inference.record condition.inference?)]

/-- The decisions of the tree with both their branches, its bids and its dead ends. -/
def RuleTree.record : RuleTree → Value
  | .decision _ name condition yes no =>
    .record [
      ("decision", .text name),
      ("condition", .record condition.fields),
      ("yes", yes.record),
      ("no", no.record)]
  | .bid _ name _ meaning => .record [("bid", .text name), ("meaning", .text meaning)]
  | .deadEnd _ reason => .record [("fallback", .ofOption .text reason)]

/-- The conditions of the rule, those about the hand with what they say about it. -/
def Rule.record (rule : Rule) : Value :=
  .record [
    ("name", .text rule.name),
    ("explanation", .text rule.explanation),
    ("auction", .texts (rule.auctionConditions.map Condition.label)),
    ("hand", .list (rule.handConditions.map fun condition ↦
      .list [.text condition.label, .ofOption Inference.record condition.inference?]))]

/-- The bounds by the letters of their suits. -/
def SeatConstraint.boundsRecord (bounds : List (Suit × Int)) : Value :=
  .record (bounds.map fun (suit, bound) ↦ (suit.letter.toString, .int bound))

/-- What is asked of the seat; of a further demand only that there is one. -/
def SeatConstraint.record (constraint : SeatConstraint) : Value :=
  .record [
    ("seat", constraint.seat.value),
    ("min_hcp", .ofOption .int constraint.minimumPoints),
    ("max_hcp", .ofOption .int constraint.maximumPoints),
    ("balanced", .ofOption .bool constraint.balanced),
    ("min_length", boundsRecord constraint.minimumLength),
    ("max_length", boundsRecord constraint.maximumLength),
    ("min_length_any", boundsRecord constraint.minimumLengthAny),
    ("custom", .bool constraint.extra.isSome)]

/-- What is asked of the deal. -/
def DealConstraints.record (constraints : DealConstraints) : Value :=
  .record [
    ("dealer", constraints.dealer.value),
    ("vulnerability", .text constraints.vulnerability.text),
    ("max_attempts", .ofOption .int constraints.maximumAttempts),
    ("seats", .list (constraints.seats.map SeatConstraint.record))]

/-- The example with the bid that makes its call. -/
def Example.record (shown : Example) : Value :=
  .record [
    ("description", .text shown.description),
    ("hand", .text shown.hand.text),
    ("auction", shown.auction.record),
    ("call", shown.call.value),
    ("rule", .text shown.bidName)]

/-- The convention in full. -/
def Convention.fields (convention : Convention) : Fields :=
  [("id", .text convention.id),
    ("name", .text convention.name),
    ("description", .text convention.description),
    ("category", .text convention.kind.text),
    ("constraints", convention.constraints.record),
    ("tree", convention.tree.record),
    ("rules", .list (convention.rules.map Rule.record)),
    ("examples", .list (convention.examples.map Example.record))]

end BridgeBidding
