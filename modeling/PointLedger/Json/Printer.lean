import PointLedger.Text.Chars
import PointLedger.Json.Basic
/-!
JSON text of a value, without blanks. Writers differ in which characters of a string they escape:
`text` escapes what has to be escaped, and `render` gives ASCII whatever the value holds.
-/

namespace PointLedger.Json

/-- One UTF-16 unit as an escape. -/
def unitEscape (unit : Nat) : List Char := '\\' :: 'u' :: Text.digits 16 4 unit

/-- One character inside a string, escaped if it is a quote, a backslash or below the blank. -/
def escapeNeeded (c : Char) : List Char :=
  if c = '"' then ['\\', '"']
  else if c = '\\' then ['\\', '\\']
  else if 0x20 ≤ c.toNat then [c]
  else if c = Char.ofNat 8 then ['\\', 'b']
  else if c = Char.ofNat 12 then ['\\', 'f']
  else if c = '\n' then ['\\', 'n']
  else if c = '\r' then ['\\', 'r']
  else if c = '\t' then ['\\', 't']
  else unitEscape c.toNat

/-- One character inside a string, escaped by its UTF-16 units outside printable ASCII. -/
def escapeForeign (c : Char) : List Char :=
  if c = '"' then ['\\', '"']
  else if c = '\\' then ['\\', '\\']
  else if 0x20 ≤ c.toNat ∧ c.toNat < 0x7F then [c]
  else if c.toNat < 0x10000 then unitEscape c.toNat
  else
    let offset := c.toNat - 0x10000
    unitEscape (0xD800 + offset / 0x400) ++ unitEscape (0xDC00 + offset % 0x400)

/-- The characters of a number. -/
def Number.chars : Number → List Char
  | .integer value => (toString value).toList
  | .decimal value => value.chars

section
variable (escape : Char → List Char)

/-- The characters of a string with its quotes. -/
def quoted (s : String) : List Char := '"' :: (s.toList.flatMap escape ++ ['"'])

mutual

/-- The characters of a value. -/
def chars : Json → List Char
  | .null => "null".toList
  | .bool true => "true".toList
  | .bool false => "false".toList
  | .number value => value.chars
  | .string value => quoted escape value
  | .array items => '[' :: (itemChars items ++ [']'])
  | .object members => '{' :: (memberChars members ++ ['}'])

/-- The items of an array, with commas between them. -/
def itemChars : List Json → List Char
  | [] => []
  | [item] => chars item
  | item :: next :: rest => chars item ++ ',' :: itemChars (next :: rest)

/-- The members of an object, with commas between them. -/
def memberChars : List (String × Json) → List Char
  | [] => []
  | [(key, value)] => quoted escape key ++ ':' :: chars value
  | (key, value) :: next :: rest =>
    quoted escape key ++ ':' :: (chars value ++ ',' :: memberChars (next :: rest))

end
end

/-- The text in which the service sends a value. -/
def text (value : Json) : String := String.ofList (chars escapeNeeded value)

/-- The text of a value in ASCII. -/
def render (value : Json) : String := String.ofList (chars escapeForeign value)

end PointLedger.Json
