import BridgeBidding.Condition.Named

/-!
# Written conditions

A condition is written as a list: a word and its arguments.  The words `not`, `and` and `or` combine
conditions that are written in the same way; `const` gives a name, a category, the answer and
perhaps an inference, and `raise` a name, a category and the message with which the answer fails.
Every other word stands for a question, or for a named combination of some, and `vocabulary` lists
these words with the arguments that they take: suits and strains by their letters, patterns as lists
of calls, and amounts, which are taken as they are.

Conditions are read from left to right.  Of the arguments of a word the suits and strains are read
before anything else.
-/

set_option autoImplicit false
set_option relaxedAutoImplicit false

namespace BridgeBidding

/-- Why a value is no written condition. -/
inductive ReadingError where
  /-- It has no parts. -/
  | noParts (given : Value)
  /-- It ends where more is needed. -/
  | tooShort
  /-- It starts with a list or a record. -/
  | notAWord (given : Value)
  /-- It starts with something else that is no known word. -/
  | unknownWord (given : Value)
  /-- The word does not take these arguments. -/
  | wrongArguments (word : String)
  /-- An argument is not the letter of a suit. -/
  | notASuit (given : Value)
  /-- An argument makes no strain or no bid. -/
  | bid (error : BidError)
  /-- An argument makes no call. -/
  | call (error : CallError)
  /-- The conditions cannot be combined. -/
  | condition (error : ConditionError)

namespace ReadingError

/-- The message of the error. -/
def message : ReadingError → String
  | noParts given => "A condition is a list, got " ++ given.kind
  | tooShort => "The condition is too short"
  | notAWord given => "A condition starts with a word, got " ++ given.kind
  | unknownWord given => "Unknown condition: " ++ given.shown
  | wrongArguments word => "Wrong arguments for " ++ word
  | notASuit given => given.written ++ " is not a valid Suit"
  | bid error => error.message
  | call error => error.message
  | condition error => error.message

end ReadingError

namespace Condition

/-! ### Arguments -/

/-- The parts of an argument of a word. -/
def readParts (word : String) (given : Value) : Except ReadingError (List Value) :=
  match given.parts? with
  | some parts => .ok parts
  | none => .error (.wrongArguments word)

/-- The suit that an argument gives. -/
def readSuit (given : Value) : Except ReadingError Suit :=
  match Suit.ofValue? given with
  | some suit => .ok suit
  | none => .error (.notASuit given)

/-- The strain that an argument gives. -/
def readStrain (given : Value) : Except ReadingError Strain :=
  match Bid.strainOf? given with
  | some strain => .ok strain
  | none => .error (.bid (.notAStrain given))

/-- The bid that two arguments give, of which the strain is read first. -/
def readBid (level strain : Value) : Except ReadingError Bid.Given := do
  let _ ← readStrain strain
  (Bid.given level strain).mapError ReadingError.bid

/-- The pattern that an argument of a word gives. -/
def readPattern (word : String) (given : Value) : Except ReadingError Pattern := do
  (Pattern.read (← readParts word given)).mapError ReadingError.call

/-! ### Words -/

/-- How the arguments of a word are read. -/
abbrev ArgumentReader := String → List Value → Except ReadingError Condition

/-- The word takes no arguments. -/
def bare (condition : Condition) : ArgumentReader
  | _, [] => .ok condition
  | word, _ => .error (.wrongArguments word)

/-- The word takes an amount. -/
def withAmount (test : Value → HandTest) : ArgumentReader
  | _, [amount] => .ok (holding (test amount))
  | word, _ => .error (.wrongArguments word)

/-- The word takes two amounts. -/
def withAmounts (test : Value → Value → HandTest) : ArgumentReader
  | _, [first, second] => .ok (holding (test first second))
  | word, _ => .error (.wrongArguments word)

/-- The word takes a value that has parts. -/
def withParts (test : Value → HandTest) : ArgumentReader
  | word, [amounts] => do
    let _ ← readParts word amounts
    return holding (test amounts)
  | word, _ => .error (.wrongArguments word)

/-- The word takes a suit and an amount. -/
def withSuit (test : Suit → Value → HandTest) : ArgumentReader
  | _, [suit, amount] => do return holding (test (← readSuit suit) amount)
  | word, _ => .error (.wrongArguments word)

/-- The word takes a pattern, a suit and an amount. -/
def withPattern (test : Pattern → Suit → Value → HandTest) : ArgumentReader
  | word, [pattern, suit, amount] => do
    let suit ← readSuit suit
    return holding (test (← readPattern word pattern) suit amount)
  | word, _ => .error (.wrongArguments word)

/-- The word takes a level and a strain. -/
def withBid (test : Bid.Given → PositionTest) : ArgumentReader
  | _, [level, strain] => do return position (test (← readBid level strain))
  | word, _ => .error (.wrongArguments word)

/-- The arguments of `auction_matches`: a pattern. -/
def readAuctionIs : ArgumentReader
  | word, [pattern] => do return position (.auctionIs (← readPattern word pattern))
  | word, _ => .error (.wrongArguments word)

/-- The arguments of `auction_matches_any`: a list of patterns. -/
def readAuctionIsAny : ArgumentReader
  | word, [patterns] => do
    return position (.auctionIsAny (← (← readParts word patterns).mapM (readPattern word)))
  | word, _ => .error (.wrongArguments word)

/-- The arguments of `partner_opened`: a strain, unless any will do. -/
def readPartnerOpened : ArgumentReader
  | _, [] | _, [.null] => .ok (position .partnerOpened)
  | _, [strain] => do return position (.partnerOpenedIn (← readStrain strain))
  | word, _ => .error (.wrongArguments word)

/-- The arguments of `partner_bid_suit`: a strain. -/
def readPartnerBidIn : ArgumentReader
  | _, [strain] => do return position (.partnerBidIn (← readStrain strain))
  | word, _ => .error (.wrongArguments word)

/-- The arguments of `bidding_round`: an amount. -/
def readBiddingRound : ArgumentReader
  | _, [round] => .ok (position (.biddingRound round))
  | word, _ => .error (.wrongArguments word)

/-- The arguments of `suit_below`: a suit and an amount, of which one less has to be known. -/
def readSuitBelow : ArgumentReader
  | word, [suit, threshold] => do
    let suit ← readSuit suit
    if (threshold.plus? (-1)).isNone then
      throw (.wrongArguments word)
    return holding (.suitBelow suit threshold)
  | word, _ => .error (.wrongArguments word)

/-- The arguments of `any_suit_min`: a list of suits and an amount. -/
def readAnySuitMin : ArgumentReader
  | word, [suits, amount] => do
    return holding (.anySuitMin (← (← readParts word suits).mapM readSuit) amount)
  | word, _ => .error (.wrongArguments word)

/-- The arguments of `longer_major`: a suit, which has to be a major. -/
def readLongerMajor : ArgumentReader
  | _, [suit] => do (longerMajor (← readSuit suit)).mapError ReadingError.condition
  | word, _ => .error (.wrongArguments word)

/-- The arguments of `major_support`: an amount, four unless given, and whether more will do. -/
def readMajorSupport : ArgumentReader
  | _, [] => .ok (holding (.majorSupport 4 false))
  | _, [count] => .ok (holding (.majorSupport count false))
  | _, [count, orMore] => .ok (holding (.majorSupport count !orMore.isVoid))
  | word, _ => .error (.wrongArguments word)

/-- The arguments of `biddable_suit`: a level, and a number of cards, five unless given. -/
def readBiddableSuit : ArgumentReader
  | _, [level] => .ok (holding (.biddableSuit level 5))
  | _, [level, minimum] => .ok (holding (.biddableSuit level minimum))
  | word, _ => .error (.wrongArguments word)

/-- The words that stand for questions, and how their arguments are read. -/
def vocabulary : List (String × ArgumentReader) :=
  [ ("auction_matches", readAuctionIs),
    ("auction_matches_any", readAuctionIsAny),
    ("is_opener", bare (position .isOpener)),
    ("is_responder", bare (position .isResponder)),
    ("partner_opened", readPartnerOpened),
    ("partner_opened_at", withBid .partnerOpenedAt),
    ("partner_bid_at", withBid .partnerBidAt),
    ("partner_bid_suit", readPartnerBidIn),
    ("opponent_bid", bare (position .opponentBid)),
    ("opponent_acted", bare (position .opponentActed)),
    ("seat_has_bid", bare (position .seatHasBid)),
    ("no_prior_bid", bare (position .noPriorBid)),
    ("bidding_round", readBiddingRound),
    ("partner_opened_major", bare (position .partnerFirstMajor)),
    ("partner_opened_minor", bare (position .partnerFirstMinor)),
    ("partner_raised_opening", bare (position .partnerRaisedMajor)),
    ("hcp_min", withAmount .pointsMin),
    ("hcp_max", withAmount .pointsMax),
    ("hcp_range", withAmounts .pointsRange),
    ("suit_min", withSuit .suitMin),
    ("suit_below", readSuitBelow),
    ("any_suit_min", readAnySuitMin),
    ("ace_count", withAmount .aceCount),
    ("ace_count_any", withParts .aceCountAny),
    ("king_count", withAmount .kingCount),
    ("king_count_any", withParts .kingCountAny),
    ("balanced", bare (holding .balanced)),
    ("no_void", bare (holding .noVoid)),
    ("has_shortage", bare (holding .shortage)),
    ("no_five_card_major", bare (holding .noFiveCardMajor)),
    ("longer_major", readLongerMajor),
    ("has_four_card_major", bare (holding .fourCardMajor)),
    ("major_support", readMajorSupport),
    ("has_single_long_suit", bare (holding .singleLongSuit)),
    ("is_two_suited", withAmounts .twoSuited),
    ("partner_suit_support", withAmount .partnerSuitSupport),
    ("partner_major_support", withAmount .partnerMajorSupport),
    ("opened_suit_min", withAmount .openedSuitMin),
    ("biddable_suit", readBiddableSuit),
    ("gerber_king_ask", bare (holding .askForKings)),
    ("gerber_signoff", bare (holding .answerHeard)),
    ("both_majors", bare bothMajors),
    ("diamonds_plus_major", bare diamondsAndMajor),
    ("clubs_plus_higher", bare clubsAndHigher),
    ("advance_support_for", withPattern .supportAfter),
    ("advance_lack_support", withPattern .lackAfter) ]

/-- The question that a word asks with its arguments. -/
def readQuestion (word : String) (arguments : List Value) : Except ReadingError Condition :=
  match Fields.get? vocabulary word with
  | some reader => reader word arguments
  | none => .error (.unknownWord (.text word))

/-! ### Conditions -/

/-- The category that a value names: the auction, or else the hand. -/
def readCategory (given : Value) : Category :=
  if given.shown = Category.auction.text then .auction else .hand

/-- The inference that a value gives, unless it is void. -/
def readInference (given : Value) : Option Inference :=
  if given.isVoid then none else some (Inference.ofValue given)

/-- The question with a fixed answer that arguments give. -/
def readFixed : List Value → Except ReadingError Condition
  | name :: category :: answer :: rest =>
    .ok (custom (.fixed name.shown (readCategory category) (!answer.isVoid)
      (rest.head?.bind readInference)))
  | _ => .error .tooShort

/-- The question that fails, as arguments give it. -/
def readFailing : List Value → Except ReadingError Condition
  | name :: category :: message :: _ =>
    .ok (custom (.failing name.shown (readCategory category) message.shown))
  | _ => .error .tooShort

mutual

/-- The condition that a value writes. -/
def read : Value → Except ReadingError Condition
  | .list [] | .text "" => .error .tooShort
  | .list (.text word :: arguments) =>
    if word = "not" then
      readOpposite arguments
    else if word = "and" then do
      (all (← readAll arguments)).mapError ReadingError.condition
    else if word = "or" then do
      (any (← readAll arguments)).mapError ReadingError.condition
    else if word = "const" then
      readFixed arguments
    else if word = "raise" then
      readFailing arguments
    else
      readQuestion word arguments
  | .list (.list parts :: _) => .error (.notAWord (.list parts))
  | .list (.record fields :: _) => .error (.notAWord (.record fields))
  | .list (other :: _) => .error (.unknownWord other)
  | .text written => .error (.unknownWord (.text written))
  | .record fields => .error (.unknownWord (.record fields))
  | given => .error (.noParts given)

/-- The opposite of the first condition that values write. -/
def readOpposite : List Value → Except ReadingError Condition
  | [] => .error .tooShort
  | inner :: _ => do (← read inner).negate.mapError ReadingError.condition

/-- The conditions that values write. -/
def readAll : List Value → Except ReadingError (List Condition)
  | [] => .ok []
  | given :: rest => do
    let condition ← read given
    let conditions ← readAll rest
    return condition :: conditions

end

end Condition

end BridgeBidding
