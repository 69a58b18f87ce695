/-!
# White space

The set of characters that trimming removes: every character with the Unicode
property `White_Space`. Header fields of a message and the user's typed input
are trimmed by this set, so a no-break space around a value counts as padding
and a zero-width space does not.

`trim` removes blanks at both ends and nothing in between; a text is `blank`
when nothing is left of it.
-/

namespace EmberClient.Text

/-- The property `White_Space`, as a list of closed ranges of code points. -/
def blankRanges : List (Nat × Nat) :=
  [(0x09, 0x0D), (0x20, 0x20), (0x85, 0x85), (0xA0, 0xA0), (0x1680, 0x1680),
   (0x2000, 0x200A), (0x2028, 0x2029), (0x202F, 0x202F), (0x205F, 0x205F),
   (0x3000, 0x3000)]

/-- A character is blank when it has the property `White_Space`. -/
def isBlank (c : Char) : Bool :=
  blankRanges.any fun (lo, hi) => lo ≤ c.toNat && c.toNat ≤ hi

/-- Drops the characters of a class from the end of a list. -/
def dropEndWhile (p : Char → Bool) (cs : List Char) : List Char :=
  (cs.reverse.dropWhile p).reverse

/-- Removes blanks at both ends. -/
def trimChars (cs : List Char) : List Char :=
  dropEndWhile isBlank (cs.dropWhile isBlank)

/-- Removes blanks at both ends of a text. -/
def trim (s : String) : String :=
  String.ofList (trimChars s.toList)

/-- Nothing is left of a blank text when its ends are trimmed. -/
def isBlankText (s : String) : Bool :=
  s.toList.all isBlank

end EmberClient.Text
