import BridgeBidding.Number.Numeral
import BridgeBidding.Value

/-!
# Plain values as JSON

`Json.read` reads a plain value from a JSON text and `Json.write` writes one.  Whole numbers have no
bound, a numeral with a point or a power is a floating point number, as are the words for one that
is undefined or infinite, and the fields of a record keep their order; of two fields with one name
the later value counts.

A character that is escaped by two surrogates is one character, and a surrogate that stands alone is
read as the replacement character.
-/

set_option autoImplicit false
set_option relaxedAutoImplicit false

namespace BridgeBidding.Json

/-! ### Texts -/

/-- The value of a hexadecimal digit. -/
def hexValue? (digit : Char) : Option Nat :=
  if '0' ≤ digit ∧ digit ≤ '9' then some (digit.toNat - '0'.toNat)
  else if 'a' ≤ digit ∧ digit ≤ 'f' then some (digit.toNat - 'a'.toNat + 10)
  else if 'A' ≤ digit ∧ digit ≤ 'F' then some (digit.toNat - 'A'.toNat + 10)
  else none

/-- The value of hexadecimal digits, most significant first. -/
def hexNumber? (digits : List Char) : Option Nat :=
  digits.foldlM (fun number digit ↦ do return number * 16 + (← hexValue? digit)) 0

/-- The character that a letter stands for after a backslash. -/
def unescaped : Char → Char
  | 'n' => '\n'
  | 't' => '\t'
  | 'r' => '\r'
  | 'b' => '\x08'
  | 'f' => '\x0c'
  | character => character

/-- The codes of a text up to its closing quote, and the rest after that. -/
def readCodes : List Char → Option (List Nat × List Char)
  | '"' :: rest => some ([], rest)
  | '\\' :: 'u' :: a :: b :: c :: d :: rest => do
    let code ← hexNumber? [a, b, c, d]
    let (codes, rest) ← readCodes rest
    return (code :: codes, rest)
  | '\\' :: letter :: rest => do
    let (codes, rest) ← readCodes rest
    return ((unescaped letter).toNat :: codes, rest)
  | character :: rest => do
    let (codes, rest) ← readCodes rest
    return (character.toNat :: codes, rest)
  | [] => none

/-- The code is the first half of a pair of surrogates. -/
def isHighSurrogate (code : Nat) : Bool := decide (0xD800 ≤ code) && decide (code < 0xDC00)

/-- The code is the second half of a pair of surrogates. -/
def isLowSurrogate (code : Nat) : Bool := decide (0xDC00 ≤ code) && decide (code < 0xE000)

/-- The character of a code that belongs to no pair. -/
def single (code : Nat) : Char :=
  if isHighSurrogate code || isLowSurrogate code then '\ufffd' else Char.ofNat code

/-- The characters of codes. -/
def charactersOf : List Nat → List Char
  | high :: low :: rest =>
    if isHighSurrogate high && isLowSurrogate low then
      Char.ofNat (0x10000 + (high - 0xD800) * 0x400 + (low - 0xDC00)) :: charactersOf rest
    else
      single high :: charactersOf (low :: rest)
  | [code] => [single code]
  | [] => []

/-- The text up to its closing quote, and the rest after that. -/
def readText (characters : List Char) : Option (String × List Char) := do
  let (codes, rest) ← readCodes characters
  return (String.ofList (charactersOf codes), rest)

/-! ### Numbers -/

/-- The character is a decimal digit. -/
def isDigit (character : Char) : Bool := decide ('0' ≤ character) && decide (character ≤ '9')

/-- The character can stand in a numeral. -/
def isNumeral (character : Char) : Bool :=
  isDigit character || ['-', '+', '.', 'e', 'E'].contains character

/-- The number that a numeral stands for. -/
def numberOf? (numeral : List Char) : Option Value :=
  let digits := if numeral.head? = some '-' then numeral.tail else numeral
  if digits.isEmpty then
    none
  else if digits.all isDigit then
    some (.int (Numeral.integer numeral))
  else
    some (.real (Numeral.real numeral))

/-! ### Values -/

/-- The characters after blanks. -/
def skipBlanks (characters : List Char) : List Char :=
  characters.dropWhile fun character ↦ [' ', '\n', '\t', '\r'].contains character

mutual

/-- The value that characters begin with, and the rest after it, reading at most `fuel` levels and
members. -/
def readValue (fuel : Nat) (characters : List Char) : Option (Value × List Char) :=
  match fuel with
  | 0 => none
  | fuel + 1 =>
    match skipBlanks characters with
    | '"' :: rest => do
      let (content, rest) ← readText rest
      return (.text content, rest)
    | '[' :: rest =>
      match skipBlanks rest with
      | ']' :: rest => some (.list [], rest)
      | rest => do
        let (items, rest) ← readItems fuel rest
        return (.list items, rest)
    | '{' :: rest =>
      match skipBlanks rest with
      | '}' :: rest => some (.record [], rest)
      | rest => do
        let (fields, rest) ← readFields fuel [] rest
        return (.record fields, rest)
    | 't' :: 'r' :: 'u' :: 'e' :: rest => some (.bool true, rest)
    | 'f' :: 'a' :: 'l' :: 's' :: 'e' :: rest => some (.bool false, rest)
    | 'n' :: 'u' :: 'l' :: 'l' :: rest => some (.null, rest)
    | 'N' :: 'a' :: 'N' :: rest => some (.real (0 / 0), rest)
    | 'I' :: 'n' :: 'f' :: 'i' :: 'n' :: 'i' :: 't' :: 'y' :: rest => some (.real (1 / 0), rest)
    | '-' :: 'I' :: 'n' :: 'f' :: 'i' :: 'n' :: 'i' :: 't' :: 'y' :: rest =>
      some (.real (-1 / 0), rest)
    | characters => do
      let value ← numberOf? (characters.takeWhile isNumeral)
      return (value, characters.dropWhile isNumeral)

/-- The items of a list up to its closing bracket, and the rest after that. -/
def readItems (fuel : Nat) (characters : List Char) : Option (List Value × List Char) :=
  match fuel with
  | 0 => none
  | fuel + 1 => do
    let (item, rest) ← readValue fuel characters
    match skipBlanks rest with
    | ',' :: rest =>
      let (items, rest) ← readItems fuel rest
      return (item :: items, rest)
    | ']' :: rest => return ([item], rest)
    | _ => none

/-- The fields of a record up to its closing brace, put after `fields`, and the rest after that. -/
def readFields (fuel : Nat) (fields : Fields) (characters : List Char) :
    Option (Fields × List Char) :=
  match fuel with
  | 0 => none
  | fuel + 1 =>
    match skipBlanks characters with
    | '"' :: rest => do
      let (name, rest) ← readText rest
      match skipBlanks rest with
      | ':' :: rest =>
        let (value, rest) ← readValue fuel rest
        let fields := Fields.put fields name value
        match skipBlanks rest with
        | ',' :: rest => readFields fuel fields rest
        | '}' :: rest => return (fields, rest)
        | _ => none
      | _ => none
    | _ => none

end

/-- The value that a text stands for; what follows the value does not matter. -/
def read (text : String) : Option Value := do
  let characters := text.toList
  let (value, _) ← readValue (2 * characters.length + 1) characters
  return value

/-! ### Writing -/

/-- A character as it stands between quotes. -/
def escaped (character : Char) : List Char :=
  if character = '"' ∨ character = '\\' then
    ['\\', character]
  else if character.toNat < 0x20 then
    ['\\', 'u'] ++ Text.hexDigits 4 character.toNat
  else
    [character]

/-- The text between quotes. -/
def quoted (text : String) : String :=
  String.ofList ('"' :: text.toList.flatMap escaped ++ ['"'])

mutual

/-- The value as a JSON text. -/
def write : Value → String
  | .null => "null"
  | .bool true => "true"
  | .bool false => "false"
  | .int number => toString number
  | .real number => shortestText "NaN" "Infinity" number
  | .text content => quoted content
  | .list items => "[" ++ String.intercalate "," (writeItems items) ++ "]"
  | .record fields => "\x7b" ++ String.intercalate "," (writeFields fields) ++ "\x7d"

/-- The items of a list, each written. -/
def writeItems : List Value → List String
  | [] => []
  | item :: rest => write item :: writeItems rest

/-- The fields of a record, each written. -/
def writeFields : List (String × Value) → List String
  | [] => []
  | (name, value) :: rest => (quoted name ++ ":" ++ write value) :: writeFields rest

end

end BridgeBidding.Json
