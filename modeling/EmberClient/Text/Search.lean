/-!
# Finding and replacing in a text

Whether a text holds another one, and the text with the first occurrence of a
part replaced. Both are recursions on the characters, so a label built with them
can be followed character by character.
-/

namespace EmberClient.Text

/-- `part` occurs somewhere in `cs`. -/
def occurs (part : List Char) : List Char → Bool
  | [] => part.isEmpty
  | c :: cs => part.isPrefixOf (c :: cs) || occurs part cs

/-- `cs` with the first occurrence of `part` replaced by `new`; `cs` itself if
there is none. -/
def replaceFirstChars (part new : List Char) : List Char → List Char
  | [] => if part.isEmpty then new else []
  | c :: cs =>
    if part.isPrefixOf (c :: cs) then new ++ (c :: cs).drop part.length
    else c :: replaceFirstChars part new cs

/-- `part` occurs somewhere in `s`. -/
def contains (s part : String) : Bool :=
  occurs part.toList s.toList

/-- `s` with the first occurrence of `part` replaced. -/
def replaceFirst (s part new : String) : String :=
  String.ofList (replaceFirstChars part.toList new.toList s.toList)

/-- `s` begins with `part`. -/
def beginsWith (s part : String) : Bool :=
  part.toList.isPrefixOf s.toList

/-- `s` ends with `part`. -/
def endsWith (s part : String) : Bool :=
  part.toList.isSuffixOf s.toList

end EmberClient.Text
