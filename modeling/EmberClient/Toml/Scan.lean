import EmberClient.Json.Reader

/-!
# Blanks, comments, names and strings of TOML

The smallest pieces of a TOML document. Every function takes the characters that
are left and returns what it read with those after it; `none` means that the
document is not TOML. Which fault it has is never told, so none is recorded.
-/

namespace EmberClient.Toml

/-! ## Between tokens -/

def isBlank (c : Char) : Bool := c = ' ' || c = '\t'

def skipBlank (cs : List Char) : List Char := cs.dropWhile isBlank

/-- A character that may stand in a comment or a string: not a control character,
a tab apart. -/
def isPlain (c : Char) : Bool := c = '\t' || (0x20 ≤ c.toNat && c.toNat ≠ 0x7F)

/-- The rest after a line end. A carriage return alone ends no line. -/
def newline? : List Char → Option (List Char)
  | '\n' :: rest => some rest
  | '\r' :: '\n' :: rest => some rest
  | _ => none

/-- Drops a comment, up to its line end. -/
def skipComment : List Char → List Char
  | '#' :: rest => rest.dropWhile isPlain
  | cs => cs

/-- The rest after a line on which nothing else stands. -/
def endOfLine? (cs : List Char) : Option (List Char) :=
  match skipComment (skipBlank cs) with
  | [] => some []
  | rest => newline? rest

/-- Drops blanks, line ends and commented line ends, at most `bound` lines. -/
def skipLines (bound : Nat) (cs : List Char) : List Char :=
  match bound with
  | 0 => cs
  | bound + 1 =>
    match newline? (skipComment (skipBlank cs)) with
    | some rest => skipLines bound rest
    | none => skipBlank cs

/-! ## Strings -/

/-- The character with this code in hexadecimal digits. -/
def codePoint? (digits : List Char) : Option Char := do
  let values ← digits.mapM Json.hexValue?
  let n := values.foldl (fun n d => n * 16 + d) 0
  if n.isValidChar then some (Char.ofNat n) else none

/-- The character that a letter after a backslash stands for. -/
def letterEscape? (c : Char) : Option Char :=
  if c = '"' ∨ c = '\\' then some c
  else if c = 'b' then some '\x08'
  else if c = 't' then some '\t'
  else if c = 'n' then some '\n'
  else if c = 'f' then some '\x0c'
  else if c = 'r' then some '\r'
  else none

/-- A string on one line, after its quote. -/
def basicBody : List Char → Option (List Char × List Char)
  | [] => none
  | '"' :: rest => some ([], rest)
  | '\\' :: 'u' :: a :: b :: c :: d :: rest => do
    let ch ← codePoint? [a, b, c, d]
    let (cs, rest) ← basicBody rest
    return (ch :: cs, rest)
  | '\\' :: 'U' :: a :: b :: c :: d :: e :: f :: g :: h :: rest => do
    let ch ← codePoint? [a, b, c, d, e, f, g, h]
    let (cs, rest) ← basicBody rest
    return (ch :: cs, rest)
  | '\\' :: c :: rest => do
    let ch ← letterEscape? c
    let (cs, rest) ← basicBody rest
    return (ch :: cs, rest)
  | c :: rest =>
    if isPlain c ∧ c ≠ '\\' then do
      let (cs, rest) ← basicBody rest
      return (c :: cs, rest)
    else none

/-- Where a string of several lines stands after a backslash at the end of a
line, which joins the line to the next text. -/
inductive Joint where
  /-- In the text. -/
  | none
  /-- After the backslash, before the line end. -/
  | opened
  /-- After the line end, before the next text. -/
  | passed

/-- A string of several lines, after its quotes. One or two quotes may stand in
it, also directly before the three that close it. -/
def linesBody : Joint → List Char → Option (List Char × List Char)
  | _, [] => none
  | .opened, ' ' :: rest => linesBody .opened rest
  | .opened, '\t' :: rest => linesBody .opened rest
  | .opened, '\n' :: rest => linesBody .passed rest
  | .opened, '\r' :: '\n' :: rest => linesBody .passed rest
  | .opened, _ :: _ => none
  | .passed, ' ' :: rest => linesBody .passed rest
  | .passed, '\t' :: rest => linesBody .passed rest
  | .passed, '\n' :: rest => linesBody .passed rest
  | .passed, '\r' :: '\n' :: rest => linesBody .passed rest
  -- of four or five quotes the first ones still belong to the text
  | _, '"' :: '"' :: '"' :: '"' :: '"' :: rest => some (['"', '"'], rest)
  | _, '"' :: '"' :: '"' :: '"' :: rest => some (['"'], rest)
  | _, '"' :: '"' :: '"' :: rest => some ([], rest)
  | _, '\\' :: 'u' :: a :: b :: c :: d :: rest => do
    let ch ← codePoint? [a, b, c, d]
    let (cs, rest) ← linesBody .none rest
    return (ch :: cs, rest)
  | _, '\\' :: 'U' :: a :: b :: c :: d :: e :: f :: g :: h :: rest => do
    let ch ← codePoint? [a, b, c, d, e, f, g, h]
    let (cs, rest) ← linesBody .none rest
    return (ch :: cs, rest)
  | _, '\\' :: c :: rest =>
    match letterEscape? c with
    | some ch => do
      let (cs, rest) ← linesBody .none rest
      return (ch :: cs, rest)
    | none => linesBody .opened (c :: rest)
  | _, '\r' :: '\n' :: rest => do
    let (cs, rest) ← linesBody .none rest
    return ('\n' :: cs, rest)
  | _, c :: rest =>
    if c = '\n' ∨ (isPlain c ∧ c ≠ '\\') then do
      let (cs, rest) ← linesBody .none rest
      return (c :: cs, rest)
    else none
  termination_by _ cs => cs.length

/-- A string without escapes on one line, after its quote. -/
def literalBody : List Char → Option (List Char × List Char)
  | [] => none
  | '\'' :: rest => some ([], rest)
  | c :: rest =>
    if isPlain c then do
      let (cs, rest) ← literalBody rest
      return (c :: cs, rest)
    else none

/-- A string without escapes of several lines, after its quotes. -/
def literalLinesBody : List Char → Option (List Char × List Char)
  | [] => none
  | '\'' :: '\'' :: '\'' :: '\'' :: '\'' :: rest => some (['\'', '\''], rest)
  | '\'' :: '\'' :: '\'' :: '\'' :: rest => some (['\''], rest)
  | '\'' :: '\'' :: '\'' :: rest => some ([], rest)
  | '\r' :: '\n' :: rest => do
    let (cs, rest) ← literalLinesBody rest
    return ('\n' :: cs, rest)
  | c :: rest =>
    if c = '\n' ∨ isPlain c then do
      let (cs, rest) ← literalLinesBody rest
      return (c :: cs, rest)
    else none

/-- A line end directly after the opening quotes is not part of the string. -/
def skipNewline (cs : List Char) : List Char := (newline? cs).getD cs

/-- A string, from its first quote. -/
def string? (cs : List Char) : Option (String × List Char) :=
  let read :=
    match cs with
    | '"' :: '"' :: '"' :: rest => linesBody .none (skipNewline rest)
    | '"' :: rest => basicBody rest
    | '\'' :: '\'' :: '\'' :: rest => literalLinesBody (skipNewline rest)
    | '\'' :: rest => literalBody rest
    | _ => none
  read.map fun (s, rest) => (String.ofList s, rest)

/-! ## Names -/

/-- A character of a name without quotes. -/
def isNameChar (c : Char) : Bool :=
  c.isAlphanum || c = '_' || c = '-'

/-- One name, without quotes or as a string on one line. -/
def name? (cs : List Char) : Option (String × List Char) :=
  let read :=
    match cs with
    | '"' :: rest => basicBody rest
    | '\'' :: rest => literalBody rest
    | _ =>
      match cs.takeWhile isNameChar with
      | [] => none
      | name => some (name, cs.dropWhile isNameChar)
  read.map fun (s, rest) => (String.ofList s, rest)

/-- Names with points between them, blanks around each; at most `bound` names. -/
def names? (bound : Nat) (cs : List Char) : Option (List String × List Char) :=
  match bound with
  | 0 => none
  | bound + 1 => do
    let (name, rest) ← name? (skipBlank cs)
    match skipBlank rest with
    | '.' :: rest =>
      let (names, rest) ← names? bound rest
      return (name :: names, rest)
    | rest => return ([name], rest)

/-- How deep values nest and how many names a dotted name has, at most. -/
def maxDepth : Nat := 79

/-- A dotted name: the names before the last one, and the last one. -/
def path? (cs : List Char) : Option ((List String × String) × List Char) := do
  let (names, rest) ← names? maxDepth cs
  let last ← names.getLast?
  return ((names.dropLast, last), rest)

end EmberClient.Toml
