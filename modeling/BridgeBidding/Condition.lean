import BridgeBidding.Condition.Holding
import BridgeBidding.Condition.Position

/-!
# Conditions

A condition is a question about the auction or the hand, a question written out by hand
(`CustomTest`), or a combination of conditions: the opposite of one, all of several, or any of
several.  `Condition.holds` answers it, `Condition.describe` explains the answer, and either can
fail.

Three constructors check what they combine: `Condition.negate`, `Condition.all` and
`Condition.any`.  At most four conditions may be combined by `any`, and inside a condition combined
by `any` there may be another one, but no third.
-/

set_option autoImplicit false
set_option relaxedAutoImplicit false

namespace BridgeBidding

/-- What a condition looks at. -/
inductive Category where
  | auction
  | hand
  deriving DecidableEq, Repr

namespace Category

/-- The word for the category. -/
def text : Category → String
  | auction => "auction"
  | hand => "hand"

end Category

/-- A question with its answer and description written out, either of which may fail. -/
structure CustomTest where
  name : String
  label : String
  category : Category
  holds : Context → Except Failure Bool
  describe : Context → Except Failure String
  inference? : Option Inference

namespace CustomTest

/-- The question whose answer is always the same. -/
def fixed (name : String) (category : Category) (truth : Bool) (inference? : Option Inference) :
    CustomTest where
  name
  label := name
  category
  holds _ := .ok truth
  describe _ := .ok (name ++ if truth then " is true" else " is false")
  inference?

/-- The question that always fails to be answered. -/
def failing (name : String) (category : Category) (message : String) : CustomTest where
  name
  label := name
  category
  holds _ := .error (.stated message)
  describe _ := .ok name
  inference? := none

end CustomTest

/-- A question or a combination of questions. -/
inductive Condition where
  | position (test : PositionTest)
  | holding (test : HandTest)
  | custom (test : CustomTest)
  | negation (condition : Condition)
  | conjunction (parts : List Condition)
  | disjunction (parts : List Condition)

/-- Why conditions cannot be combined or used as asked. -/
inductive ConditionError where
  | emptyConjunction
  | emptyDisjunction
  | tooManyParts (count : Nat)
  | tooDeep (depth : Nat)
  | notMajor (suit : Suit)
  | inference (error : InferenceError)
  | auctionInference (condition rule : String) (inference : Inference)

namespace Condition

/-- How many conditions `any` combines at most. -/
def maximumParts : Nat := 4

/-- How many conditions combined by `any` may lie inside one another. -/
def maximumDepth : Nat := 2

end Condition

namespace ConditionError

/-- The message of the error. -/
def message : ConditionError → String
  | emptyConjunction => "and_() needs at least one condition"
  | emptyDisjunction => "or_() needs at least one condition"
  | tooManyParts count =>
    s!"or_() supports at most {Condition.maximumParts} branches, got {count}"
  | tooDeep depth => s!"or_() nesting depth {depth} exceeds {Condition.maximumDepth}"
  | notMajor suit => "longer_major() needs a major suit, got " ++ suit.name
  | inference _ => "The inference cannot be inverted"
  | auctionInference condition rule _ =>
    "Auction condition '" ++ condition ++ "' in rule '" ++ rule ++ "' must not carry inference"

/-- The name of the condition at fault. -/
def conditionName? : ConditionError → Option String
  | emptyConjunction => some "and"
  | emptyDisjunction | tooManyParts _ | tooDeep _ => some "or"
  | auctionInference condition _ _ => some condition
  | notMajor _ | inference _ => none

end ConditionError

namespace Condition

/-- The short name of the condition. -/
def name : Condition → String
  | position test => test.name
  | holding test => test.name
  | custom test => test.name
  | negation condition => "not-" ++ condition.name
  | conjunction _ => "and"
  | disjunction _ => "or"

mutual

/-- What the condition asks, whatever the context. -/
def label : Condition → String
  | position test => test.label
  | holding test => test.label
  | custom test => test.label
  | negation condition => "Not: " ++ condition.label
  | conjunction parts => String.intercalate "; " (labels parts)
  | disjunction parts => String.intercalate " or " (labels parts)

/-- The labels of conditions in order. -/
def labels : List Condition → List String
  | [] => []
  | condition :: rest => condition.label :: labels rest

end

mutual

/-- The condition looks at the auction alone. -/
def isAuction : Condition → Bool
  | position _ => true
  | holding _ => false
  | custom test => decide (test.category = .auction)
  | negation condition => condition.isAuction
  | conjunction parts | disjunction parts => areAuction parts

/-- All of the conditions look at the auction alone. -/
def areAuction : List Condition → Bool
  | [] => true
  | condition :: rest => condition.isAuction && areAuction rest

end

/-- What the condition looks at. -/
def category (condition : Condition) : Category :=
  if condition.isAuction then .auction else .hand

/-- What the condition says about a hand for which it holds.  The opposite of a condition says the
inverse, and a combination says nothing. -/
def inference? : Condition → Option Inference
  | holding test => test.inference?
  | custom test => test.inference?
  | negation condition => ((Inference.inverse? condition.inference?).toOption).join
  | _ => none

mutual

/-- How many conditions combined by `any` lie inside one another, this one included. -/
def depth : Condition → Nat
  | position _ => 0
  | holding _ => 0
  | custom test => if test.name = "or" then 1 else 0
  | negation condition => condition.depth
  | conjunction parts => depths parts
  | disjunction parts => depths parts + 1

/-- The greatest depth of the conditions. -/
def depths : List Condition → Nat
  | [] => 0
  | condition :: rest => max condition.depth (depths rest)

end

/-! ### Combining -/

/-- The opposite of the condition. -/
def negate (condition : Condition) : Except ConditionError Condition :=
  match Inference.inverse? condition.inference? with
  | .ok _ => .ok (negation condition)
  | .error error => .error (.inference error)

/-- The condition that all of the parts hold. -/
def all (parts : List Condition) : Except ConditionError Condition :=
  if parts.isEmpty then .error .emptyConjunction else .ok (conjunction parts)

/-- The condition that one of the parts holds. -/
def any (parts : List Condition) : Except ConditionError Condition :=
  if parts.isEmpty then
    .error .emptyDisjunction
  else if maximumParts < parts.length then
    .error (.tooManyParts parts.length)
  else if maximumDepth < depths parts + 1 then
    .error (.tooDeep (depths parts + 1))
  else
    .ok (disjunction parts)

/-- The condition that a major is long and no shorter than the other. -/
def longerMajor (suit : Suit) : Except ConditionError Condition :=
  match Major.ofSuit? suit with
  | some major => .ok (holding (.longerMajor major))
  | none => .error (.notMajor suit)

/-! ### Answers and descriptions -/

mutual

/-- The answer to the condition.  Of all parts the first that does not hold settles it; of any parts
every one is asked. -/
def holds (context : Context) : Condition → Except Failure Bool
  | position test => .ok (test.holds context.toPosition)
  | holding test => test.holds context
  | custom test => test.holds context
  | negation condition => do return !(← condition.holds context)
  | conjunction parts => holdAll context parts
  | disjunction parts => do return (← answers context parts).any id

/-- All of the conditions hold; those after the first that does not are not asked. -/
def holdAll (context : Context) : List Condition → Except Failure Bool
  | [] => .ok true
  | condition :: rest => do
    if ← condition.holds context then holdAll context rest else return false

/-- The answers to the conditions in order. -/
def answers (context : Context) : List Condition → Except Failure (List Bool)
  | [] => .ok []
  | condition :: rest => do
    let answer ← condition.holds context
    let others ← answers context rest
    return answer :: others

end

mutual

/-- The description of the answer.  Of any parts the first that holds is described, or all of them
if none does. -/
def describe (context : Context) : Condition → Except Failure String
  | position test => .ok (test.describe context.toPosition)
  | holding test => test.describe context
  | custom test => test.describe context
  | negation condition => do return "Not: " ++ (← condition.describe context)
  | conjunction parts => do return String.intercalate "; " (← descriptions context parts)
  | disjunction parts => do
    let described ← answersDescribed context parts
    match described.find? Prod.fst with
    | some (_, description) => return description
    | none => return String.intercalate " or " (described.map Prod.snd)

/-- The descriptions of the conditions in order. -/
def descriptions (context : Context) : List Condition → Except Failure (List String)
  | [] => .ok []
  | condition :: rest => do
    let description ← condition.describe context
    let others ← descriptions context rest
    return description :: others

/-- The answers to the conditions in order, each with its description. -/
def answersDescribed (context : Context) :
    List Condition → Except Failure (List (Bool × String))
  | [] => .ok []
  | condition :: rest => do
    let answer ← condition.holds context
    let description ← condition.describe context
    let others ← answersDescribed context rest
    return (answer, description) :: others

end

end Condition

/-- Whether a condition passed, how that is described, and the failure, if it failed. -/
structure Verdict where
  passed : Bool
  description : String
  failure? : Option Failure

namespace Condition

/-- The description of a condition that failed. -/
def describeFailure (condition : Condition) (failure : Failure) : String :=
  "Condition '" ++ condition.name ++ "' failed: " ++ failure.message

/-- The verdict on the condition, which has not passed if its answer or its description fails. -/
def verdict (context : Context) (condition : Condition) : Verdict :=
  let described : Except Failure (Bool × String) := do
    let passed ← condition.holds context
    let description ← condition.describe context
    return (passed, description)
  match described with
  | .ok (passed, description) => { passed, description, failure? := none }
  | .error failure =>
    { passed := false
      description := condition.describeFailure failure
      failure? := some failure }

end Condition

end BridgeBidding
