import EmberClient.Text.Printable

/-!
# Quoted text

A text between quotes, as messages show one that came from a file. Quotes and
backslashes are escaped, tabs and line ends have letters, and every character that
cannot be shown by itself is written by its code point.
-/

namespace EmberClient.Text

/-- A character between quotes. -/
def quotedChar (c : Char) : String :=
  if c = '\x00' then "\\0"
  else if c = '\t' then "\\t"
  else if c = '\r' then "\\r"
  else if c = '\n' then "\\n"
  else if c = '"' then "\\\""
  else if c = '\\' then "\\\\"
  else if isShown c then String.singleton c
  else "\\u\x7b" ++ String.ofList (Nat.toDigits 16 c.toNat) ++ "\x7d"

/-- A text between quotes. -/
def quotedText (s : String) : String :=
  "\"" ++ String.join (s.toList.map quotedChar) ++ "\""

end EmberClient.Text
