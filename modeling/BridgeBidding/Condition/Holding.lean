import BridgeBidding.Condition.Inference
import BridgeBidding.Context.AceAsking
import BridgeBidding.Text.Counted

/-!
# Questions about the hand

A `HandTest` is a yes or no question about a hand in its context.  Most ask for points, lengths or
honours; some look at the auction to find the suit to count or to recognise a position.  A question
has a name, a label, an answer (`HandTest.holds`), a description of the answer
(`HandTest.describe`), and sometimes an inference: what a positive answer says about the hand.

What is asked for is a plain value, most often a whole number.  A question fails if what is held
cannot be compared with it, or if it asks for a suit to bid at a level that does not exist.
-/

set_option autoImplicit false
set_option relaxedAutoImplicit false

namespace BridgeBidding

/-- A major suit. -/
inductive Major where
  | spades
  | hearts
  deriving DecidableEq, Repr

namespace Major

/-- The major as a suit. -/
def suit : Major → Suit
  | spades => .spades
  | hearts => .hearts

/-- The other major. -/
def other : Major → Major
  | spades => hearts
  | hearts => spades

/-- The major that a suit is. -/
def ofSuit? : Suit → Option Major
  | .spades => some spades
  | .hearts => some hearts
  | _ => none

end Major

/-- A question about a hand in its context. -/
inductive HandTest where
  /-- At least so many high card points. -/
  | pointsMin (minimum : Value)
  /-- At most so many high card points. -/
  | pointsMax (maximum : Value)
  /-- High card points within bounds, both included. -/
  | pointsRange (minimum maximum : Value)
  /-- At least so many cards in the suit. -/
  | suitMin (suit : Suit) (minimum : Value)
  /-- Fewer cards than the threshold in the suit. -/
  | suitBelow (suit : Suit) (threshold : Value)
  /-- At least so many cards in one of the suits. -/
  | anySuitMin (suits : List Suit) (minimum : Value)
  /-- Exactly so many aces. -/
  | aceCount (count : Value)
  /-- One of the numbers of aces. -/
  | aceCountAny (counts : Value)
  /-- Exactly so many kings. -/
  | kingCount (count : Value)
  /-- One of the numbers of kings. -/
  | kingCountAny (counts : Value)
  /-- No void, no singleton, at most one doubleton. -/
  | balanced
  /-- No void. -/
  | noVoid
  /-- A singleton or a void. -/
  | shortage
  /-- Fewer than five cards in either major. -/
  | noFiveCardMajor
  /-- Five or more cards in the major, and no fewer than in the other. -/
  | longerMajor (major : Major)
  /-- Four or more cards in a major. -/
  | fourCardMajor
  /-- Exactly so many cards, or at least so many, in the major that partner opened at the one
  level. -/
  | majorSupport (count : Value) (orMore : Bool)
  /-- Six or more cards in a suit other than spades, and no second suit of four. -/
  | singleLongSuit
  /-- A longest and a second suit of at least the given lengths. -/
  | twoSuited (longest second : Value)
  /-- At least so many cards in the suit that partner bid first. -/
  | partnerSuitSupport (minimum : Value)
  /-- At least so many cards in the major that partner bid last. -/
  | partnerMajorSupport (minimum : Value)
  /-- At least so many cards in the suit that this seat bid first. -/
  | openedSuitMin (minimum : Value)
  /-- A suit of at least so many cards that can be bid at the level. -/
  | biddableSuit (level minimum : Value)
  /-- The answer about aces leaves the partnership with three or more. -/
  | askForKings
  /-- The answer about aces or kings has been heard. -/
  | answerHeard
  /-- After the pattern, at least so many cards in the suit. -/
  | supportAfter (pattern : Pattern) (suit : Suit) (minimum : Value)
  /-- After the pattern, fewer cards than the threshold in the suit. -/
  | lackAfter (pattern : Pattern) (suit : Suit) (threshold : Value)

namespace HandTest

/-- The names of suits with strokes between them. -/
def suitNames (suits : List Suit) : String :=
  String.intercalate "/" (suits.map Suit.name)

/-- The parts of a value as alternatives. -/
def alternatives (counts : Value) : String :=
  String.intercalate " or " ((counts.parts?.getD []).map Value.shown)

/-- The short name of the question. -/
def name : HandTest → String
  | pointsMin _ => "hcp-min"
  | pointsMax _ => "hcp-max"
  | pointsRange _ _ => "hcp-range"
  | suitMin suit _ => suit.name ++ "-min"
  | suitBelow suit _ => suit.name ++ "-below"
  | anySuitMin suits _ => "any-" ++ suitNames suits ++ "-min"
  | aceCount _ => "ace-count"
  | aceCountAny _ => "ace-count-any"
  | kingCount _ => "king-count"
  | kingCountAny _ => "king-count-any"
  | balanced => "balanced"
  | noVoid => "no-void"
  | shortage => "has-shortage"
  | noFiveCardMajor => "no-5-card-major"
  | longerMajor major => "longer-major-" ++ major.suit.name
  | fourCardMajor => "has-4-card-major"
  | majorSupport _ _ => "major-support"
  | singleLongSuit => "single-long-suit"
  | twoSuited _ _ => "two-suited"
  | partnerSuitSupport _ => "partner-suit-support"
  | partnerMajorSupport _ => "partner-major-support"
  | openedSuitMin _ => "opened-suit-min"
  | biddableSuit level _ => s!"biddable-suit-level-{level}"
  | askForKings => "gerber-king-ask"
  | answerHeard => "gerber-signoff"
  | supportAfter _ suit _ => "advance-support-" ++ suit.name
  | lackAfter _ suit _ => "advance-lack-" ++ suit.name

/-- What the question asks, whatever the context. -/
def label : HandTest → String
  | pointsMin minimum => s!"{minimum}+ HCP"
  | pointsMax maximum => s!"{maximum} max HCP"
  | pointsRange minimum maximum => s!"{minimum}-{maximum} HCP"
  | suitMin suit minimum => s!"{minimum}+ " ++ suit.name
  | suitBelow suit threshold => s!"Fewer than {threshold} " ++ suit.name
  | anySuitMin suits minimum => s!"{minimum}+ in " ++ suitNames suits
  | aceCount count => "Exactly " ++ Text.counted count "ace"
  | aceCountAny counts => alternatives counts ++ " aces"
  | kingCount count => "Exactly " ++ Text.counted count "king"
  | kingCountAny counts => alternatives counts ++ " kings"
  | balanced => "Balanced hand"
  | noVoid => "No void suit"
  | shortage => "Has singleton or void"
  | noFiveCardMajor => "No 5-card major"
  | longerMajor major => "5+ " ++ major.suit.name ++ " (longer/equal major)"
  | fourCardMajor => "Has 4+ card major"
  | majorSupport count orMore =>
    if orMore then
      s!"{count}+ cards in opened major"
    else
      s!"Exactly {count} cards in opened major"
  | singleLongSuit => "Single long suit (6+, non-spades)"
  | twoSuited longest second => s!"Two-suited ({longest}-{second}+)"
  | partnerSuitSupport minimum => s!"{minimum}+ cards in partner's suit"
  | partnerMajorSupport minimum => s!"{minimum}+ cards in partner's major"
  | openedSuitMin minimum => s!"{minimum}+ cards in own opened suit"
  | biddableSuit level minimum => s!"{minimum}+ card suit biddable at the {level}-level"
  | askForKings => "In Gerber king-ask position (3+ total aces after ace response)"
  | answerHeard => "In Gerber signoff position (after ace or king response)"
  | supportAfter pattern suit minimum =>
    s!"{minimum}+ " ++ suit.name ++ " support after " ++ pattern.label
  | lackAfter pattern suit threshold =>
    s!"Fewer than {threshold} " ++ suit.name ++ " after " ++ pattern.label

/-- What a positive answer says about the hand. -/
def inference? : HandTest → Option Inference
  | pointsMin minimum => some (.pointsMin minimum)
  | pointsMax maximum => some (.pointsMax maximum)
  | pointsRange minimum maximum => some (.pointsRange minimum maximum)
  | suitMin suit minimum => some (.suitMin suit.parameter minimum)
  | suitBelow suit threshold => (threshold.plus? (-1)).map (.suitMax suit.parameter)
  | aceCount count => some (.aceCount count)
  | kingCount count => some (.kingCount count)
  | balanced => some (.balanced true)
  | shortage => some (.balanced false)
  | longerMajor major => some (.suitMin major.suit.parameter 5)
  | twoSuited longest second => some (.twoSuited longest second)
  | _ => none

/-- The suit that partner bid first. -/
def partnerSuit? (context : Context) : Option Suit :=
  context.partnerFirstStrain?.bind Strain.suit?

/-- The major that partner bid last. -/
def partnerMajor? (context : Context) : Option Suit :=
  match context.partnerLastStrain? with
  | some strain => if strain.isMajor then strain.suit? else none
  | none => none

/-- The suit that this seat bid first. -/
def ownSuit? (context : Context) : Option Suit :=
  context.ownFirstStrain?.bind Strain.suit?

/-- The suit is there and has at least so many cards. -/
def fits (context : Context) (suit? : Option Suit) (minimum : Value) : Except Failure Bool :=
  match suit? with
  | some suit => Comparison.atLeast (context.length suit) minimum
  | none => .ok false

/-- The length has as many cards as asked, or more if more will do. -/
def isSupport (length : Int) (count : Value) (orMore : Bool) : Except Failure Bool :=
  if orMore then Comparison.atLeast length count else .ok (Comparison.exactly length count)

/-- The first of the suits that has at least so many cards. -/
def firstLong? (context : Context) (minimum : Value) :
    List Suit → Except Failure (Option Suit)
  | [] => .ok none
  | suit :: rest => do
    if ← Comparison.atLeast (context.length suit) minimum then
      return some suit
    else
      firstLong? context minimum rest

/-- A suit other than spades has six cards or more and no other has four. -/
def isSingleSuited (shape : Shape) : Bool :=
  !decide (6 ≤ shape.spades) &&
    (decide (6 ≤ shape.hearts) || decide (6 ≤ shape.diamonds) || decide (6 ≤ shape.clubs)) &&
    decide (shape.fourCardSuits ≤ 1)

/-- The two longest suits have at least the given lengths. -/
def isTwoSuited (shape : Shape) (longest second : Value) : Except Failure Bool := do
  if ← Comparison.atLeast (shape.length shape.longest) longest then
    Comparison.atLeast (shape.length shape.second) second
  else
    return false

/-- The answer to the question. -/
def holds (context : Context) : HandTest → Except Failure Bool
  | pointsMin minimum => Comparison.atLeast context.evaluation.points minimum
  | pointsMax maximum => Comparison.atMost context.evaluation.points maximum
  | pointsRange minimum maximum =>
    Comparison.within context.evaluation.points minimum maximum
  | suitMin suit minimum => Comparison.atLeast (context.length suit) minimum
  | suitBelow suit threshold => Comparison.below (context.length suit) threshold
  | anySuitMin suits minimum => do return (← firstLong? context minimum suits).isSome
  | aceCount count => .ok (Comparison.exactly context.hand.aces count)
  | aceCountAny counts => Comparison.among context.hand.aces counts
  | kingCount count => .ok (Comparison.exactly context.hand.kings count)
  | kingCountAny counts => Comparison.among context.hand.kings counts
  | balanced => .ok context.evaluation.isBalanced
  | noVoid => .ok !context.evaluation.shape.lengths.contains 0
  | shortage => .ok (context.evaluation.shape.lengths.any fun length ↦ decide (length ≤ 1))
  | noFiveCardMajor =>
    .ok (decide (context.length .spades < 5) && decide (context.length .hearts < 5))
  | longerMajor major =>
    .ok (decide (5 ≤ context.length major.suit) &&
      decide (context.length major.other.suit ≤ context.length major.suit))
  | fourCardMajor =>
    .ok (decide (4 ≤ context.length .spades) || decide (4 ≤ context.length .hearts))
  | majorSupport count orMore =>
    match context.raisableMajor? with
    | some major => isSupport (context.length major) count orMore
    | none => .ok false
  | singleLongSuit => .ok (isSingleSuited context.evaluation.shape)
  | twoSuited longest second => isTwoSuited context.evaluation.shape longest second
  | partnerSuitSupport minimum => fits context (partnerSuit? context) minimum
  | partnerMajorSupport minimum => fits context (partnerMajor? context) minimum
  | openedSuitMin minimum => fits context (ownSuit? context) minimum
  | biddableSuit level minimum => do
    return (← context.longestBiddable? level minimum).isSome
  | askForKings =>
    .ok (AceAsking.isAt AceAsking.afterAceAnswer context.auction &&
      decide (3 ≤ AceAsking.totalAces context))
  | answerHeard =>
    .ok (AceAsking.isAt AceAsking.afterAceAnswer context.auction ||
      AceAsking.isAt AceAsking.afterKingAnswer context.auction)
  | supportAfter pattern suit minimum =>
    if pattern.fits context.auction then
      Comparison.atLeast (context.length suit) minimum
    else
      .ok false
  | lackAfter pattern suit threshold =>
    if pattern.fits context.auction then
      Comparison.below (context.length suit) threshold
    else
      .ok false

/-- The description of a length against a minimum. -/
def describeLength (length : Int) (name : String) (minimum : Value) : Except Failure String := do
  if ← Comparison.atLeast length minimum then
    return s!"{length} {name} ({minimum}+ required)"
  else
    return s!"Only {length} {name} (need {minimum}+)"

/-- The description of the length of a suit that the auction picks, or of there being none. -/
def describeFit (context : Context) (suit? : Option Suit) (minimum : Value) (missing : String) :
    Except Failure String :=
  match suit? with
  | some suit => describeLength (context.length suit) suit.name minimum
  | none => .ok missing

/-- The description of a number of honours against the one asked for. -/
def describeCount (held : Int) (noun : String) (count : Value) : String :=
  if Comparison.exactly held count then
    Text.counted held noun
  else
    Text.counted held noun ++ s!" (need exactly {count})"

/-- The description of a number of honours against those asked for. -/
def describeCountAny (held : Int) (noun : String) (counts : Value) : Except Failure String := do
  if ← Comparison.among held counts then
    return Text.counted held noun ++ " (" ++ alternatives counts ++ ")"
  else
    return Text.counted held noun ++ " (need " ++ alternatives counts ++ ")"

/-- The length of a suit with its name. -/
def lengthText (context : Context) (suit : Suit) : String :=
  toString (context.length suit) ++ " " ++ suit.name

/-- The description of a shape as balanced, or of what makes it unbalanced. -/
def describeBalance (shape : Shape) : String :=
  let lengths := shape.lengths
  let text := shape.text
  let doubletons := lengths.count 2
  if balancedLengths lengths then
    s!"Balanced hand ({text})"
  else if lengths.contains 0 then
    s!"Unbalanced, has void ({text})"
  else if lengths.contains 1 then
    s!"Unbalanced, has singleton ({text})"
  else
    s!"Unbalanced, {doubletons} doubletons ({text})"

/-- The description of the short suits. -/
def describeShortage (context : Context) : String :=
  let text := context.evaluation.shape.text
  let short := Suit.all.filter fun suit ↦ decide (context.length suit ≤ 1)
  if short.isEmpty then
    s!"No shortage ({text})"
  else
    "Has shortage: " ++ String.intercalate ", " (short.map (lengthText context)) ++ s!" ({text})"

/-- The description of the lengths of both majors against five. -/
def describeFiveCardMajor (spades hearts : Int) : String :=
  if spades < 5 ∧ hearts < 5 then
    s!"No 5-card major ({spades} spades, {hearts} hearts)"
  else if 5 ≤ spades then
    s!"Has 5+ spades ({spades})"
  else
    s!"Has 5+ hearts ({hearts})"

/-- The description of a major against the other one. -/
def describeLongerMajor (length otherLength : Int) (name otherName : String) : String :=
  if 5 ≤ length ∧ otherLength ≤ length then
    s!"{length} {name} (longer/equal major vs {otherLength} {otherName})"
  else if length < 5 then
    s!"Only {length} {name} (need 5+)"
  else
    s!"{length} {name} shorter than {otherLength} {otherName}"

/-- The description of both majors against four. -/
def describeFourCardMajor (spades hearts : Int) : String :=
  let start := if 4 ≤ spades ∨ 4 ≤ hearts then "Has" else "No"
  s!"{start} 4-card major ({spades}S, {hearts}H)"

/-- The description of support for the major that partner opened. -/
def describeMajorSupport (context : Context) (count : Value) (orMore : Bool) :
    Except Failure String := do
  let wanted := if orMore then s!"{count}+ support" else s!"exactly {count}"
  match context.raisableMajor? with
  | none => return "No major opening detected"
  | some major =>
    let held := lengthText context major
    if ← isSupport (context.length major) count orMore then
      return s!"{held} ({wanted})"
    else
      return s!"{held} (need {wanted})"

/-- The description of a shape as one-suited or not. -/
def describeSingleSuit (shape : Shape) : String :=
  let longest := shape.length shape.longest
  let spades := shape.spades
  if isSingleSuited shape then
    s!"{longest} " ++ shape.longest.name ++ ", single-suited"
  else if 6 ≤ spades then
    s!"{spades} spades (use 2S natural instead)"
  else if 1 < shape.fourCardSuits then
    "Two suits with 4+ cards (not single-suited)"
  else
    s!"Longest suit only {longest} (need 6+ single-suited)"

/-- The description of a shape as two-suited or not. -/
def describeTwoSuits (shape : Shape) (minimumLongest minimumSecond : Value) :
    Except Failure String := do
  let longest := shape.length shape.longest
  let second := shape.length shape.second
  let longestName := shape.longest.name
  let secondName := shape.second.name
  if ← isTwoSuited shape minimumLongest minimumSecond then
    return s!"{longest} {longestName} + {second} {secondName} " ++
      s!"({minimumLongest}-{minimumSecond}+ two-suited)"
  else
    return s!"Not {minimumLongest}-{minimumSecond}+ two-suited " ++
      s!"(longest: {longest}, second: {second})"

/-- The description of the suit to bid at a level. -/
def describeBiddable (context : Context) (level minimum : Value) (suit? : Option Suit) : String :=
  match suit? with
  | some suit => lengthText context suit ++ s!" biddable at the {level}-level"
  | none => s!"No {minimum}+ card suit biddable at the {level}-level"

/-- The description of the partnership's aces when kings may be asked for. -/
def describeAskForKings (context : Context) : String :=
  let total := AceAsking.totalAces context
  if AceAsking.isAt AceAsking.afterAceAnswer context.auction then
    if 3 ≤ total then
      s!"{total} total aces (3+ needed), ask for kings"
    else
      s!"Only {total} total aces (need 3+ to ask for kings)"
  else
    "Not in Gerber king-ask position"

/-- The description of what has been heard about aces and kings. -/
def describeAnswerHeard (context : Context) : String :=
  let own := context.hand.aces
  let opener := AceAsking.openerAces context
  let total := AceAsking.totalAces context
  let kings := AceAsking.totalKings context
  if AceAsking.isAt AceAsking.afterKingAnswer context.auction then
    s!"Total {total} aces, {kings} kings (after king response)"
  else if AceAsking.isAt AceAsking.afterAceAnswer context.auction then
    s!"Total {total} aces ({own} yours + {opener} opener's)"
  else
    "Not in Gerber signoff position"

/-- The description of support after a pattern. -/
def describeSupportAfter (context : Context) (pattern : Pattern) (suit : Suit)
    (minimum : Value) : Except Failure String := do
  let held := lengthText context suit
  if pattern.fits context.auction then
    if ← Comparison.atLeast (context.length suit) minimum then
      return s!"{held} ({minimum}+ support)"
    else
      return s!"Only {held} (need {minimum}+ support)"
  else
    return "Not after " ++ pattern.label

/-- The description of lacking support after a pattern. -/
def describeLackAfter (context : Context) (pattern : Pattern) (suit : Suit)
    (threshold : Value) : Except Failure String := do
  let held := lengthText context suit
  if pattern.fits context.auction then
    if ← Comparison.below (context.length suit) threshold then
      return s!"Only {held} (under {threshold}, ask for other suit)"
    else
      return s!"{held} ({threshold}+ support, no need to ask)"
  else
    return "Not after " ++ pattern.label

/-- The description of points against a minimum. -/
def describePointsMin (points : Int) (minimum : Value) : Except Failure String := do
  if ← Comparison.atLeast points minimum then
    return s!"{points} HCP ({minimum}+ required)"
  else
    return s!"Only {points} HCP (need {minimum}+)"

/-- The description of points against a maximum. -/
def describePointsMax (points : Int) (maximum : Value) : Except Failure String := do
  if ← Comparison.atMost points maximum then
    return s!"{points} HCP ({maximum} max)"
  else
    return s!"{points} HCP ({maximum} max exceeded)"

/-- The description of points against both bounds. -/
def describePointsRange (points : Int) (minimum maximum : Value) : Except Failure String := do
  if ← Comparison.within points minimum maximum then
    return s!"{points} HCP ({minimum}-{maximum} range)"
  else
    return s!"{points} HCP (need {minimum}-{maximum})"

/-- The description of a length against a threshold to stay below. -/
def describeBelow (length : Int) (name : String) (threshold : Value) : Except Failure String := do
  if ← Comparison.below length threshold then
    return s!"{length} {name} (fewer than {threshold})"
  else
    return s!"{length} {name} (need fewer than {threshold})"

/-- The description of the first of the suits that is long enough, or of them all. -/
def describeAnySuit (context : Context) (suits : List Suit) (minimum : Value) :
    Except Failure String := do
  let names := suitNames suits
  match ← firstLong? context minimum suits with
  | some suit => return lengthText context suit ++ s!" ({minimum}+ in {names})"
  | none =>
    return "Only " ++ String.intercalate ", " (suits.map (lengthText context)) ++
      s!" (need {minimum}+ in {names})"

/-- The description of voids. -/
def describeVoids (shape : Shape) : String :=
  let text := shape.text
  if shape.lengths.contains 0 then s!"Has void ({text})" else s!"No void suit ({text})"

/-- The description of the answer. -/
def describe (context : Context) : HandTest → Except Failure String
  | pointsMin minimum => describePointsMin context.evaluation.points minimum
  | pointsMax maximum => describePointsMax context.evaluation.points maximum
  | pointsRange minimum maximum =>
    describePointsRange context.evaluation.points minimum maximum
  | suitMin suit minimum => describeLength (context.length suit) suit.name minimum
  | suitBelow suit threshold => describeBelow (context.length suit) suit.name threshold
  | anySuitMin suits minimum => describeAnySuit context suits minimum
  | aceCount count => .ok (describeCount context.hand.aces "ace" count)
  | aceCountAny counts => describeCountAny context.hand.aces "ace" counts
  | kingCount count => .ok (describeCount context.hand.kings "king" count)
  | kingCountAny counts => describeCountAny context.hand.kings "king" counts
  | balanced => .ok (describeBalance context.evaluation.shape)
  | noVoid => .ok (describeVoids context.evaluation.shape)
  | shortage => .ok (describeShortage context)
  | noFiveCardMajor =>
    .ok (describeFiveCardMajor (context.length .spades) (context.length .hearts))
  | longerMajor major =>
    .ok (describeLongerMajor (context.length major.suit) (context.length major.other.suit)
      major.suit.name major.other.suit.name)
  | fourCardMajor =>
    .ok (describeFourCardMajor (context.length .spades) (context.length .hearts))
  | majorSupport count orMore => describeMajorSupport context count orMore
  | singleLongSuit => .ok (describeSingleSuit context.evaluation.shape)
  | twoSuited longest second => describeTwoSuits context.evaluation.shape longest second
  | partnerSuitSupport minimum =>
    describeFit context (partnerSuit? context) minimum "Partner has not opened a suit"
  | partnerMajorSupport minimum =>
    describeFit context (partnerMajor? context) minimum "Partner's last bid is not a major"
  | openedSuitMin minimum =>
    describeFit context (ownSuit? context) minimum "This seat did not open a suit"
  | biddableSuit level minimum => do
    return describeBiddable context level minimum (← context.longestBiddable? level minimum)
  | askForKings => .ok (describeAskForKings context)
  | answerHeard => .ok (describeAnswerHeard context)
  | supportAfter pattern suit minimum => describeSupportAfter context pattern suit minimum
  | lackAfter pattern suit threshold => describeLackAfter context pattern suit threshold

end HandTest

end BridgeBidding
