import BridgeBidding.Condition
import BridgeBidding.Value.Amount

/-!
# Settings

Settings are sections of named values, made of three layers: the defaults, what the conventions
document says about the convention, and what is asked for one session.  A later layer overrides the
earlier ones value by value; a section that the defaults do not have is taken as it is.

`Settings.load` puts the layers together.  A document that does not exist says nothing; one that
exists has to be a record with a record of conventions in it.
-/

set_option autoImplicit false
set_option relaxedAutoImplicit false

namespace BridgeBidding

/-- Sections with their values, in order. -/
abbrev Settings := Fields

/-- Why settings cannot be put together. -/
inductive SettingsError where
  | noConventions (file : String)
  | entryNotRecord (file convention : String)
  | sectionNotRecord (convention : String) (name : String) (given : Value)
  | notFields (given : Value)
  | pairNotSequence (place : Nat)
  | pairLength (place length : Nat)
  | keyNotScalar (place : Nat)
  | overridesNotRecord (given : Value)

namespace SettingsError

/-- The message of the error. -/
def message : SettingsError → String
  | noConventions file => file ++ ": expected a 'conventions' mapping at the top level"
  | entryNotRecord file convention =>
    file ++ ": entry for '" ++ convention ++ "' must be a mapping"
  | sectionNotRecord _ name given =>
    "Settings section '" ++ name ++ "' must be a mapping, got " ++ given.kind
  | notFields given => "'" ++ given.kind ++ "' object is not iterable"
  | pairNotSequence place =>
    s!"cannot convert dictionary update sequence element #{place} to a sequence"
  | pairLength place length =>
    s!"dictionary update sequence element #{place} has length {length}; 2 is required"
  | keyNotScalar place => s!"The name in element #{place} is a list or a record"
  | overridesNotRecord given => "Overrides must be a record, got " ++ given.kind

end SettingsError

/-- The conventions document: the name of its file and its content. -/
structure SettingsDocument where
  file : String
  content : Value

namespace Settings

/-- The settings that hold unless they are overridden. -/
def defaults : Settings :=
  [("trainer", .record [("trainee_seat", .text "S"), ("vulnerability", .text "None")]),
    ("deal", .record [("max_attempts", .int 10000), ("seed", .null)]),
    ("evaluation", .record [("max_or_branches", .int Condition.maximumParts),
      ("max_or_depth", .int Condition.maximumDepth), ("skip_illegal_calls", .bool true)]),
    ("logging", .record [("level", .text "INFO"), ("format_json", .bool false)])]

/-! ### Sections as fields

A section that is written as a list of pairs counts as the record of these pairs, a text of two
characters or a record of two names being a pair as well.  Pairs with the same name are one, with
the first one's name and the last one's value, and numbers are the same name if they are equal, a
truth value counting as zero or one. -/

/-- The two members of a pair. -/
def pairOf (place : Nat) : Value → Except SettingsError (Value × Value)
  | .list [name, value] => .ok (name, value)
  | .list items => .error (.pairLength place items.length)
  | .text content =>
    match content.toList with
    | [name, value] => .ok (.text name.toString, .text value.toString)
    | characters => .error (.pairLength place characters.length)
  | .record [(name, _), (value, _)] => .ok (.text name, .text value)
  | .record fields => .error (.pairLength place fields.length)
  | _ => .error (.pairNotSequence place)

/-- What the name of a pair is compared by. -/
inductive NameKey where
  | null
  | whole (number : Int)
  | fraction (bits : UInt64)
  | text (content : String)
  deriving DecidableEq

/-- What a floating point number is compared by. -/
def NameKey.ofReal (number : Float) : NameKey :=
  match (Value.real number).whole? with
  | some number => whole number
  | none => fraction number.toBits

/-- The name of a pair, and what it is compared by. -/
structure PairName where
  text : String
  key : NameKey

/-- The name that a value makes: a text is the name itself. -/
def nameOf? : Value → Option PairName
  | .text content => some ⟨content, .text content⟩
  | .null => some ⟨"null", .null⟩
  | .bool truth => some ⟨if truth then "true" else "false", .whole (if truth then 1 else 0)⟩
  | .int number => some ⟨toString number, .whole number⟩
  | .real number => some ⟨shortestText "NaN" "Infinity" number, .ofReal number⟩
  | .list _ | .record _ => none

/-- The pairs with `value` under a name: in the place of the old value, or else at the end. -/
def putPair : List (PairName × Value) → PairName → Value → List (PairName × Value)
  | [], name, value => [(name, value)]
  | (other, old) :: rest, name, value =>
    if other.key = name.key then
      (other, value) :: rest
    else
      (other, old) :: putPair rest name value

/-- The pairs that are numbered from `place` on, put one after another into `pairs`. -/
def pairsFrom (pairs : List (PairName × Value)) (place : Nat) :
    List Value → Except SettingsError (List (PairName × Value))
  | [] => .ok pairs
  | item :: rest => do
    let (name, value) ← pairOf place item
    match nameOf? name with
    | some name => pairsFrom (putPair pairs name value) (place + 1) rest
    | none => .error (.keyNotScalar place)

/-- The fields of a list of pairs. -/
def fieldsOfPairs (items : List Value) : Except SettingsError Fields := do
  let pairs ← pairsFrom [] 0 items
  return Fields.overlay [] (pairs.map fun (name, value) ↦ (name.text, value))

/-- The fields of a section. -/
def fieldsOf : Value → Except SettingsError Fields
  | .record fields => .ok fields
  | .list items => fieldsOfPairs items
  | .text content => fieldsOfPairs (content.toList.map fun character ↦ .text character.toString)
  | value => .error (.notFields value)

/-- The settings with every section made a record. -/
def normalized : Settings → Except SettingsError Settings
  | [] => .ok []
  | (name, values) :: rest => do
    let fields ← fieldsOf values
    let others ← normalized rest
    return (name, .record fields) :: others

/-! ### Layers -/

/-- The settings with a section overridden: value by value if there is such a section, which must
then be a record, or else taken as it is. -/
def overrideSection (convention : String) (settings : Settings) (name : String) (values : Value) :
    Except SettingsError Settings :=
  match Fields.get? settings name with
  | none => .ok (Fields.put settings name values)
  | some old =>
    match values with
    | .record changes => do
      let fields ← fieldsOf old
      return Fields.put settings name (.record (Fields.overlay fields changes))
    | _ => .error (.sectionNotRecord convention name values)

/-- The settings with sections overridden one after another. -/
def overrideSections (convention : String) (settings : Settings) :
    Fields → Except SettingsError Settings
  | [] => .ok settings
  | (name, values) :: rest => do
    let next ← overrideSection convention settings name values
    overrideSections convention next rest

/-- The settings with a layer of overrides laid over them. -/
def override (convention : String) (settings : Settings) (overrides : Value) :
    Except SettingsError Settings := do
  let sections ← normalized settings
  match overrides with
  | .record changes => overrideSections convention sections changes
  | _ => .error (.overridesNotRecord overrides)

/-- What the document says about a convention.  A void document has no conventions, and a void entry
says nothing. -/
def entryFor (convention : String) (document : SettingsDocument) : Except SettingsError Fields :=
  match document.content with
  | .record fields =>
    match Fields.get? fields "conventions" with
    | some (.record entries) =>
      match (Fields.get? entries convention).filter fun entry ↦ !entry.isVoid with
      | none => .ok []
      | some (.record entry) => .ok entry
      | some _ => .error (.entryNotRecord document.file convention)
    | _ => .error (.noConventions document.file)
  | _ => .error (.noConventions document.file)

/-- What a document that may not exist says about a convention. -/
def entryOf (convention : String) : Option SettingsDocument → Except SettingsError Fields
  | none => .ok []
  | some document => entryFor convention document

/-- The settings of a convention: the defaults, then the document, then the overrides of a session
unless they are void. -/
def load (document : Option SettingsDocument) (convention : String) (overrides : Value) :
    Except SettingsError Settings := do
  let entry ← entryOf convention document
  let settings ← override convention defaults (.record entry)
  if overrides.isVoid then return settings else override convention settings overrides

end Settings

end BridgeBidding
