import BridgeBidding.Settings
import BridgeBidding.Text.Capital

/-!
# Validating settings

Every setting that the defaults have comes with a demand on its value.  `Settings.offences` lists
the settings that are given and do not meet theirs, in the order of the demands, and
`Settings.loadValid` puts the layers of settings together and accepts no offence.

A truth value is never a whole number here, and neither is a number with a fraction, were it zero.
-/

set_option autoImplicit false
set_option relaxedAutoImplicit false

namespace BridgeBidding

/-- What is demanded of a setting. -/
inductive Demand where
  | oneOf (choices : List String)
  | oneOfInAnyCase (choices : List String)
  | positive
  | atLeast (bound : Int)
  | wholeOrNull
  | truthValue

namespace Demand

/-- The demand in words. -/
def message : Demand → String
  | oneOf choices | oneOfInAnyCase choices => "Must be one of " ++ String.intercalate ", " choices
  | positive => "Must be a positive integer"
  | atLeast bound => s!"Must be an integer of at least {bound}"
  | wholeOrNull => "Must be an integer or null"
  | truthValue => "Must be a boolean"

/-- The value meets the demand. -/
def admits : Demand → Value → Bool
  | oneOf choices, .text content => choices.contains content
  | oneOfInAnyCase choices, .text content =>
    choices.contains (String.ofList (Text.capitals content.toList))
  | positive, .int number => decide (0 < number)
  | atLeast bound, .int number => decide (bound ≤ number)
  | wholeOrNull, .int _ => true
  | wholeOrNull, .null => true
  | truthValue, .bool _ => true
  | _, _ => false

end Demand

/-- A setting whose value does not meet the demand on it. -/
structure Offence where
  setting : String
  demand : Demand
  value : Value

namespace Offence

/-- The offence in words. -/
def text (offence : Offence) : String :=
  offence.setting ++ ": " ++ offence.demand.message ++ " (got: " ++ offence.value.shown ++ ")"

/-- The offences in words, one after another. -/
def texts (offences : List Offence) : String :=
  String.intercalate "; " (offences.map text)

end Offence

/-- Why settings cannot be used. -/
inductive ValidationError where
  | loading (error : SettingsError)
  | notNamed (given : Value)
  | invalid (convention : String) (offences : List Offence)

namespace ValidationError

/-- The message of the error. -/
def message : ValidationError → String
  | loading error => error.message
  | notNamed given => "Expected named values, got " ++ given.kind
  | invalid convention offences =>
    "Invalid configuration for " ++ convention ++ ": " ++ Offence.texts offences

end ValidationError

namespace Settings

/-! ### Looking a name up

Settings that are read from elsewhere may hold anything in the place of a record.  A list or a text
in which the name does not occur just does not have it; anything else that is no record is an
error. -/

/-- The characters occur one after another in the others. -/
def occursIn (part : List Char) : List Char → Bool
  | [] => part.isEmpty
  | first :: rest => part.isPrefixOf (first :: rest) || occursIn part rest

/-- The value is the text. -/
def isText (name : String) : Value → Bool
  | .text content => content == name
  | _ => false

/-- The value under a name, if there is one. -/
def valueUnder? (name : String) : Value → Except ValidationError (Option Value)
  | .record fields => .ok (Fields.get? fields name)
  | .text content =>
    if occursIn name.toList content.toList then .error (.notNamed (.text content)) else .ok none
  | .list items =>
    if items.any (isText name) then .error (.notNamed (.list items)) else .ok none
  | value => .error (.notNamed value)

/-! ### The demands -/

/-- The demands on the settings of every section. -/
def demands : List (String × List (String × Demand)) :=
  [("trainer",
      [("trainee_seat", .oneOf (Seat.all.map Seat.letter)),
        ("vulnerability", .oneOf (Vulnerability.all.map Vulnerability.text))]),
    ("deal", [("max_attempts", .positive), ("seed", .wholeOrNull)]),
    ("evaluation",
      [("max_or_branches", .atLeast 2), ("max_or_depth", .positive),
        ("skip_illegal_calls", .truthValue)]),
    ("logging",
      [("level", .oneOfInAnyCase ["DEBUG", "INFO", "WARNING", "ERROR", "CRITICAL"]),
        ("format_json", .truthValue)])]

/-- The settings of a section that are given and do not meet the demand on them. -/
def offencesIn (values : Value) :
    List (String × Demand) → Except ValidationError (List Offence)
  | [] => .ok []
  | (setting, demand) :: rest => do
    let found ← valueUnder? setting values
    let others ← offencesIn values rest
    return (found.filter fun value ↦ !demand.admits value).toList.map
      (fun value ↦ { setting, demand, value }) ++ others

/-- The offences in those of the sections that are given. -/
def offencesAmong (settings : Value) :
    List (String × List (String × Demand)) → Except ValidationError (List Offence)
  | [] => .ok []
  | (name, wanted) :: rest => do
    let first ← match ← valueUnder? name settings with
      | some values => offencesIn values wanted
      | none => .ok []
    let others ← offencesAmong settings rest
    return first ++ others

/-- The settings that are given and do not meet the demand on them. -/
def offences (settings : Value) : Except ValidationError (List Offence) :=
  offencesAmong settings demands

/-- The settings of a convention, if none of them is an offence. -/
def loadValid (document : Option SettingsDocument) (convention : String) (overrides : Value) :
    Except ValidationError Settings := do
  let settings ← (load document convention overrides).mapError ValidationError.loading
  let found ← offences (.record settings)
  if found.isEmpty then return settings else .error (.invalid convention found)

end Settings

end BridgeBidding
