import BridgeBidding.Number.Shortest
import BridgeBidding.Text.Quoted

/-!
# Plain values

A settings document, a setting, a parameter of an inference and a notation that may not even be a
text are all plain values: null, truth values, whole numbers without bound, floating point numbers,
texts, lists, and records whose fields keep their order.  A whole number may stand where a plain
value is expected.

`Value.kind` names the kind of a value, `Value.written` writes it so that its kind can be seen, and
`Value.shown` writes it as it stands in a message, a text without its quotes.
-/

set_option autoImplicit false
set_option relaxedAutoImplicit false

namespace BridgeBidding

/-- A plain value. -/
inductive Value where
  | null
  | bool (truth : Bool)
  | int (number : Int)
  | real (number : Float)
  | text (content : String)
  | list (items : List Value)
  | record (fields : List (String × Value))
  deriving Inhabited

/-- The fields of a record in order, each name once. -/
abbrev Fields := List (String × Value)

namespace Fields

/-- The value under a name. -/
def get? {α : Type} : List (String × α) → String → Option α
  | [], _ => none
  | (key, value) :: rest, name => if key = name then some value else get? rest name

/-- The fields with `value` under `name`: in the place of the old value, or else at the end. -/
def put {α : Type} : List (String × α) → String → α → List (String × α)
  | [], name, value => [(name, value)]
  | (key, old) :: rest, name, value =>
    if key = name then (key, value) :: rest else (key, old) :: put rest name value

/-- The fields overlaid with those of `changes`, one after another. -/
def overlay {α : Type} (fields changes : List (String × α)) : List (String × α) :=
  changes.foldl (fun merged change ↦ put merged change.1 change.2) fields

@[simp] theorem get?_nil {α : Type} (name : String) :
    get? ([] : List (String × α)) name = none := rfl

theorem get?_put {α : Type} (fields : List (String × α)) (name other : String) (value : α) :
    get? (put fields name value) other =
      if other = name then some value else get? fields other := by
  induction fields with
  | nil => by_cases h : name = other <;> simp [put, get?, h, eq_comm]
  | cons field rest ih =>
    obtain ⟨key, old⟩ := field
    by_cases hkey : key = name
    · subst hkey
      by_cases h : other = key
      · simp [put, get?, h]
      · have hreverse : ¬key = other := fun heq ↦ h heq.symm
        simp [put, get?, h, hreverse]
    · by_cases h : key = other
      · subst h
        simp [put, get?, hkey]
      · simp [put, get?, hkey, h, ih]

/-- What is found in fields is smaller than they are. -/
theorem sizeOf_get?_lt {fields : Fields} {name : String} {value : Value}
    (h : get? fields name = some value) : sizeOf value < sizeOf fields := by
  induction fields with
  | nil => simp at h
  | cons field rest ih =>
    obtain ⟨key, old⟩ := field
    simp only [List.cons.sizeOf_spec, Prod.mk.sizeOf_spec]
    simp only [get?] at h
    split at h
    · cases h
      omega
    · have := ih h
      omega

end Fields

namespace Value

/-- What is found in the fields of a record is smaller than the record. -/
theorem sizeOf_lt_record {fields : Fields} {name : String} {value : Value}
    (h : Fields.get? fields name = some value) : sizeOf value < sizeOf (record fields) := by
  have hfields := Fields.sizeOf_get?_lt h
  rw [record.sizeOf_spec]
  omega

/-- The name of a value's kind, as messages give it. -/
def kind : Value → String
  | null => "NoneType"
  | bool _ => "bool"
  | int _ => "int"
  | real _ => "float"
  | text _ => "str"
  | list _ => "list"
  | record _ => "dict"

/-- Null, false, zero and whatever is empty are void; a setting that is void counts as not
given. -/
def isVoid : Value → Bool
  | null => true
  | bool truth => !truth
  | int number => number == 0
  | real number => number == 0
  | text content => content.isEmpty
  | list items => items.isEmpty
  | record fields => fields.isEmpty

/-- The fields of a record; no other value has any. -/
def fields : Value → Fields
  | record fields => fields
  | _ => []

/-- The field of a record under a name. -/
def field? (value : Value) (name : String) : Option Value := Fields.get? value.fields name

/-- The parts of a value that has any: the items of a list, the characters of a text, and the names
in a record. -/
def parts? : Value → Option (List Value)
  | list items => some items
  | text content => some (content.toList.map fun character ↦ text character.toString)
  | record fields => some (fields.map fun field ↦ text field.1)
  | _ => none

mutual

/-- The value written so that its kind can be seen. -/
def written : Value → String
  | null => "None"
  | bool true => "True"
  | bool false => "False"
  | int number => toString number
  | real number => shortestText "nan" "inf" number
  | text content => Text.quoted content
  | list items => "[" ++ String.intercalate ", " (writtenItems items) ++ "]"
  | record fields => "\x7b" ++ String.intercalate ", " (writtenFields fields) ++ "\x7d"

/-- The items of a list, each written. -/
def writtenItems : List Value → List String
  | [] => []
  | item :: rest => written item :: writtenItems rest

/-- The fields of a record, each name quoted before its value. -/
def writtenFields : List (String × Value) → List String
  | [] => []
  | (name, value) :: rest => (Text.quoted name ++ ": " ++ written value) :: writtenFields rest

end

/-- The value as it stands in a message. -/
def shown : Value → String
  | text content => content
  | value => written value

instance : ToString Value := ⟨shown⟩

instance : Coe Int Value := ⟨int⟩

instance (number : Nat) : OfNat Value number := ⟨int number⟩

end Value

end BridgeBidding
