import BridgeBidding.Text.Printable

/-!
# Quoted texts

`quoted` writes a text between quotes so that it shows on one line.  The quotes are single unless
the text holds a single quote and no double one.  A backslash and the chosen quote are escaped, line
ends and tabs have short escapes, and any other character that is not printable is written by its
code with two, four or eight hexadecimal digits.
-/

set_option autoImplicit false
set_option relaxedAutoImplicit false

namespace BridgeBidding.Text

/-- The lowest `width` hexadecimal digits of a number, most significant first. -/
def hexDigits (width number : Nat) : List Char :=
  match width with
  | 0 => []
  | width + 1 => hexDigits width (number / 16) ++ [Nat.digitChar (number % 16)]

/-- The escape of a character by its code. -/
def codeEscape (code : Nat) : List Char :=
  if code < 0x100 then
    ['\\', 'x'] ++ hexDigits 2 code
  else if code < 0x10000 then
    ['\\', 'u'] ++ hexDigits 4 code
  else
    ['\\', 'U'] ++ hexDigits 8 code

/-- A character as it stands between quotes. -/
def escaped (quote character : Char) : List Char :=
  if character = quote ∨ character = '\\' then
    ['\\', character]
  else if character = '\n' then
    ['\\', 'n']
  else if character = '\r' then
    ['\\', 'r']
  else if character = '\t' then
    ['\\', 't']
  else if isPrintable character then
    [character]
  else
    codeEscape character.toNat

/-- The quote that a text is written with. -/
def quoteFor (characters : List Char) : Char :=
  if characters.contains '\'' && !characters.contains '"' then '"' else '\''

/-- The text between quotes, on one line. -/
def quoted (text : String) : String :=
  let quote := quoteFor text.toList
  String.ofList (quote :: text.toList.flatMap (escaped quote) ++ [quote])

end BridgeBidding.Text
