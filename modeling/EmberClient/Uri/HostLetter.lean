/-!
# Letters of a host name

A host name is read without regard to the form of its letters: full-width, circled,
squared and mathematical letters, and letters raised or lowered, count as the plain
small letter, ligatures as the letters they join, and some characters that are not
seen count as nothing. `plainLetters` gives what a character counts as.
-/

namespace EmberClient.Uri

/-- The small letter at a place of the alphabet, counted round and round. -/
def letterAt (n : Nat) : Char := Char.ofNat ('a'.toNat + n % 26)

/-- Runs of whole alphabets: first and last code point. Each begins with an `a`. -/
def alphabetRuns : List (Nat × Nat) :=
  [(0x41, 0x5A), (0xFF21, 0xFF3A), (0xFF41, 0xFF5A), (0x24B6, 0x24E9), (0x1F130, 0x1F149),
   (0x1D400, 0x1D6A3)]

/-- The code points of those runs that no character has. -/
def alphabetGaps : List Nat :=
  [0x1D455, 0x1D49D, 0x1D4A0, 0x1D4A1, 0x1D4A3, 0x1D4A4, 0x1D4A7, 0x1D4A8, 0x1D4AD, 0x1D4BA,
   0x1D4BC, 0x1D4C4, 0x1D506, 0x1D50B, 0x1D50C, 0x1D515, 0x1D51D, 0x1D53A, 0x1D53F, 0x1D545,
   0x1D547, 0x1D548, 0x1D549, 0x1D551]

/-- Letters that stand alone, each group behind what it counts as. -/
def singleLetters : List (String × String) :=
  [("a", "ªᴬᵃₐ"), ("b", "ᴮᵇℬ"), ("c", "ᶜℂℭⅭⅽꟲ🄫"), ("d", "ᴰᵈⅅⅆⅮⅾ"), ("e", "ᴱᵉₑℯℰⅇ"), ("f", "ᶠℱꟳ"),
   ("g", "ᴳᵍℊ"), ("h", "ʰᴴₕℋℌℍℎ"), ("i", "ᴵᵢⁱℐℑℹⅈⅠⅰ"), ("j", "ʲᴶⅉⱼ"), ("k", "ᴷᵏₖ\u212A"),
   ("l", "ˡᴸₗℒℓⅬⅼ"), ("m", "ᴹᵐₘℳⅯⅿ"), ("n", "ᴺⁿₙℕ"), ("o", "ºᴼᵒₒℴ"), ("p", "ᴾᵖₚℙ"), ("q", "ℚꟴ"),
   ("r", "ʳᴿᵣℛℜℝ🄬"), ("s", "ſˢₛ"), ("t", "ᵀᵗₜ"), ("u", "ᵁᵘᵤ"), ("v", "ᵛᵥⅤⅴⱽ"), ("w", "ʷᵂ"),
   ("x", "ˣₓⅩⅹ"), ("y", "ʸ"), ("z", "ᶻℤℨ"), ("cal", "㎈"), ("st", "ﬅﬆ")]

/-- Characters that count as nothing: the soft hyphen, marks of word boundaries and
selectors of a variant. -/
def isUnseen (c : Char) : Bool :=
  let n := c.toNat
  n = 0xAD || n = 0x200B || n = 0x2060 || n = 0x2064 || n = 0xFEFF ||
    (0x180B ≤ n && n ≤ 0x180D) || n = 0x180F || (0xFE00 ≤ n && n ≤ 0xFE0F) ||
    (0xE0100 ≤ n && n ≤ 0xE01EF)

/-- What a character of a host name counts as. -/
def plainLetters (c : Char) : List Char :=
  let n := c.toNat
  if isUnseen c then []
  else
    match alphabetRuns.find? fun (first, last) => first ≤ n && n ≤ last with
    | some (first, _) => if alphabetGaps.contains n then [c] else [letterAt (n - first)]
    | none =>
      match singleLetters.find? fun (_, forms) => forms.toList.contains c with
      | some (plain, _) => plain.toList
      | none => [c]

end EmberClient.Uri
