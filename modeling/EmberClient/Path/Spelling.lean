/-!
# Spellings of a path

The server and the editor may write one path with slashes or with backslashes.
`normalize` chooses slashes, `same` compares without regard to the choice, and
`fileName` is the last segment under either.

The comparison is made without building the normalized paths: the two must
have as many bytes and agree character by character, a separator agreeing with a
separator. Both separators take one byte, which is why this is the same as
comparing after normalization.
-/

namespace EmberClient.Path

/-- Either of the two characters that separate segments. -/
def isSeparator (c : Char) : Bool := c = '/' || c = '\\'

/-- A backslash becomes a slash. -/
def normalizeChar (c : Char) : Char := if c = '\\' then '/' else c

/-- The path with slashes only. -/
def normalize (path : String) : String :=
  String.ofList (path.toList.map normalizeChar)

/-- Two characters agree when they are equal or both separate segments. -/
def agree (a b : Char) : Bool := a = b || (isSeparator a && isSeparator b)

/-- Two spellings of one path. -/
def same (left right : String) : Bool :=
  left.utf8ByteSize = right.utf8ByteSize &&
    (left.toList.zip right.toList).all fun (a, b) => agree a b

/-- What follows the last separator; all of a path that has none. -/
def fileNameChars (cs : List Char) : List Char :=
  (cs.reverse.takeWhile fun c => !isSeparator c).reverse

/-- The last segment of a path. -/
def fileName (path : String) : String :=
  String.ofList (fileNameChars path.toList)

end EmberClient.Path
