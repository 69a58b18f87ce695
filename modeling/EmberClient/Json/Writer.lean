import EmberClient.Json.Number
import EmberClient.Text.Hex

/-!
# JSON as text

The compact form: no space between tokens, members in the order in which they
stand. In a string only the quote, the backslash and the control characters
below the space are escaped, five of them by a letter and the rest by four
hexadecimal digits; every other character stands for itself.
-/

namespace EmberClient.Json

/-- A character as it stands between quotes. -/
def escaped (c : Char) : List Char :=
  if c = '"' then ['\\', '"']
  else if c = '\\' then ['\\', '\\']
  else if c = '\x08' then ['\\', 'b']
  else if c = '\t' then ['\\', 't']
  else if c = '\n' then ['\\', 'n']
  else if c = '\x0c' then ['\\', 'f']
  else if c = '\r' then ['\\', 'r']
  else if c.toNat < 0x20 then
    ['\\', 'u', '0', '0', Text.hexChar (c.toNat / 16), Text.hexChar (c.toNat % 16)]
  else [c]

/-- A string between quotes. -/
def quoted (s : String) : List Char :=
  '"' :: s.toList.flatMap escaped ++ ['"']

mutual

/-- The characters of the compact form. -/
def chars : Json → List Char
  | .null => "null".toList
  | .bool true => "true".toList
  | .bool false => "false".toList
  | .num n => n.text.toList
  | .str s => quoted s
  | .arr items => '[' :: itemChars items ++ [']']
  | .obj members => '{' :: memberChars members ++ ['}']

/-- Items with commas between them. -/
def itemChars : List Json → List Char
  | [] => []
  | [v] => chars v
  | v :: rest => chars v ++ ',' :: itemChars rest

/-- Members with commas between them. -/
def memberChars : List (String × Json) → List Char
  | [] => []
  | [(k, v)] => quoted k ++ ':' :: chars v
  | (k, v) :: rest => quoted k ++ ':' :: chars v ++ ',' :: memberChars rest

end

/-- The compact text of a document. -/
def text (v : Json) : String := String.ofList (chars v)

end EmberClient.Json
