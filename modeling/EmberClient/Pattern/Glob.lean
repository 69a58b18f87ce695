import EmberClient.Path.Native

/-!
# Glob patterns

A pattern with wildcards, matched against the bytes of a path. One wildcard never
crosses a slash; only the double star does, and only where it stands between
slashes or at an end.

`Token.rests` says what may be left of a path after a token has matched at its
front, so a pattern matches a path when nothing may be left after all its tokens.
-/

namespace EmberClient.Glob

open Text

/-- A part of a pattern. -/
inductive Token where
  | literal (c : Char)
  /-- One byte that is no slash. -/
  | any
  /-- Bytes that are no slash. -/
  | star
  /-- Directories at the front, or none. -/
  | leadingDirs
  /-- Everything below a directory. -/
  | everythingBelow
  /-- A slash, with directories in between or not. -/
  | betweenDirs
  /-- One byte in, or not in, a class of ranges. -/
  | oneOf (negated : Bool) (ranges : List (Char × Char))
  /-- One of several patterns. -/
  | alternatives (branches : List (List Token))
  deriving Inhabited

/-! ## Reading a pattern -/

/-- The branches that are open while a pattern is read, the innermost first; each
group of alternatives has a list of branches. -/
structure Scan where
  /-- Tokens of the branch that is being read, the last one first. -/
  current : List Token := []
  /-- For every open group: the finished branches of the group, the last one
  first, and the tokens that stand before the group. -/
  groups : List (List (List Token) × List Token) := []
  /-- The character read before. -/
  previous : Option Char := none

namespace Scan

def push (s : Scan) (t : Token) : Scan := { s with current := t :: s.current }

/-- Opens a group of alternatives. -/
def openGroup (s : Scan) : Scan :=
  { s with current := [], groups := ([], s.current) :: s.groups }

/-- Closes the innermost group, if one is open. -/
def closeGroup (s : Scan) : Option Scan :=
  match s.groups with
  | [] => none
  | (branches, before) :: groups =>
    let all := (s.current.reverse :: branches).reverse
    some { s with current := .alternatives all :: before, groups }

/-- A comma separates branches inside a group and stands for itself outside. -/
def comma (s : Scan) : Scan :=
  match s.groups with
  | [] => s.push (.literal ',')
  | (branches, before) :: groups =>
    { s with current := [], groups := (s.current.reverse :: branches, before) :: groups }

/-- Two stars that stand between slashes or at an end take the place of the
slash before them. -/
def doubleStar (s : Scan) (atEnd : Bool) : Scan :=
  match s.current with
  | .leadingDirs :: _ => s
  | .everythingBelow :: _ => s
  | _ :: before => { s with current := (if atEnd then .everythingBelow else .betweenDirs) :: before }
  | [] => s

/-- Two stars here may stand for directories: a slash is before them, or inside a
group the mark that begins a branch. -/
def opensSegment (s : Scan) : Bool :=
  s.previous = some '/' ||
    (!s.groups.isEmpty && (s.previous = some ',' || s.previous = some '{'))

end Scan

/-- Reads the ranges of a class up to its bracket, the last one first. `first`
says that nothing has been read, so that a bracket or a dash stands for itself;
`inRange` says that a dash has opened a range at the last character. -/
def classRanges (ranges : List (Char × Char)) (first inRange : Bool) :
    List Char → Option (List (Char × Char) × List Char)
  | [] => none
  | c :: rest =>
    if c = ']' && !first then
      some ((if inRange then ('-', '-') :: ranges else ranges).reverse, rest)
    else if c = '-' && !first && !inRange then classRanges ranges false true rest
    else if inRange then
      match ranges with
      | (low, _) :: more =>
        if c < low then none else classRanges ((low, c) :: more) false false rest
      | [] => none
    else classRanges ((c, c) :: ranges) false false rest

/-- Reads a class after its opening bracket. -/
def classToken (cs : List Char) : Option (Token × List Char) :=
  match cs with
  | '!' :: rest | '^' :: rest => (classRanges [] true false rest).map fun (r, cs) => (.oneOf true r, cs)
  | _ => (classRanges [] true false cs).map fun (r, cs) => (.oneOf false r, cs)

/-- Reads the rest of a pattern after what `s` holds. The bound is the number of
characters. -/
def scan (bound : Nat) (s : Scan) (cs : List Char) : Option (List Token) :=
  match bound with
  | 0 => none
  | bound + 1 =>
    match cs with
    | [] => if s.groups.isEmpty then some s.current.reverse else none
    | '?' :: rest => scan bound { s.push .any with previous := some '?' } rest
    | '*' :: '*' :: rest =>
      let plain := { (s.push .star).push .star with previous := some '*' }
      -- at the front of a branch two stars take in the slash behind them, elsewhere the one before
      if s.current.isEmpty then
        match rest with
        | [] => scan bound { s.push .leadingDirs with previous := some '*' } []
        | '/' :: rest => scan bound { s.push .leadingDirs with previous := some '/' } rest
        | rest => scan bound plain rest
      else if s.opensSegment then
        match rest with
        | [] => scan bound { s.doubleStar true with previous := some '*' } []
        | '/' :: rest => scan bound { s.doubleStar false with previous := some '/' } rest
        | c :: rest =>
          if (c = ',' || c = '}') && !s.groups.isEmpty then
            scan bound { s.doubleStar true with previous := some '*' } (c :: rest)
          else scan bound plain (c :: rest)
      else scan bound plain rest
    | '*' :: rest => scan bound { s.push .star with previous := some '*' } rest
    | '[' :: rest =>
      match classToken rest with
      | some (t, rest) => scan bound { s.push t with previous := some ']' } rest
      | none => none
    | '{' :: rest => scan bound { s.openGroup with previous := some '{' } rest
    | '}' :: rest =>
      match s.closeGroup with
      | some s => scan bound { s with previous := some '}' } rest
      | none => none
    | ',' :: rest => scan bound { s.comma with previous := some ',' } rest
    | '\\' :: c :: rest => scan bound { s.push (.literal c) with previous := some c } rest
    | ['\\'] => none
    | c :: rest => scan bound { s.push (.literal c) with previous := some c } rest

/-- The tokens of a pattern; `none` for a class or a group that is not closed, a
group closed that is not open, a range upside down, or a lone backslash. -/
def tokens? (pattern : String) : Option (List Token) :=
  let cs := pattern.toList
  scan (cs.length + 1) {} cs

/-! ## Matching -/

/-- Everything that may be left when any number of bytes is taken. -/
def suffixes : Bytes → List Bytes
  | [] => [[]]
  | b :: rest => (b :: rest) :: suffixes rest

/-- What may be left when any number of bytes other than slashes is taken. -/
def suffixesInName : Bytes → List Bytes
  | [] => [[]]
  | b :: rest => (b :: rest) :: (if b = Path.slash then [] else suffixesInName rest)

/-- What follows each slash. -/
def afterSlashes : Bytes → List Bytes
  | [] => []
  | b :: rest => if b = Path.slash then rest :: afterSlashes rest else afterSlashes rest

/-- The ranges of bytes that a range of characters stands for. The ends count
byte by byte: the last byte of the low end and the first byte of the high end make
a range, the others stand for themselves. -/
def byteRanges (range : Char × Char) : List (UInt8 × UInt8) :=
  let low := utf8 (String.singleton range.1)
  let high := utf8 (String.singleton range.2)
  if range.1 = range.2 then low.map fun b => (b, b)
  else
    match low.getLast?, high with
    | some last, first :: more =>
      low.dropLast.map (fun b => (b, b)) ++ (last, first) :: more.map fun b => (b, b)
    | _, _ => []

/-- A byte is in one of the ranges of a class. -/
def inClass (ranges : List (Char × Char)) (b : UInt8) : Bool :=
  ranges.any fun r => (byteRanges r).any fun (low, high) => low ≤ b && b ≤ high

mutual

/-- A token that says nothing: a group whose branches all say nothing. -/
def Token.isEmpty : Token → Bool
  | .alternatives branches => allEmpty branches
  | _ => false

def Token.listIsEmpty : List Token → Bool
  | [] => true
  | t :: rest => t.isEmpty && listIsEmpty rest

def Token.allEmpty : List (List Token) → Bool
  | [] => true
  | b :: rest => listIsEmpty b && allEmpty rest

end

mutual

/-- What may be left of `input` after a token has matched at its front. -/
def Token.rests (input : Bytes) : Token → List Bytes
  | .literal c =>
    let bytes := utf8 (String.singleton c)
    if bytes.isPrefixOf input then [input.drop bytes.length] else []
  | .any =>
    match input with
    | b :: rest => if b = Path.slash then [] else [rest]
    | [] => []
  | .star => suffixesInName input
  | .leadingDirs =>
    input :: afterSlashes input
  | .everythingBelow =>
    match input with
    | b :: rest => if b = Path.slash then suffixes rest else []
    | [] => []
  | .betweenDirs =>
    match input with
    | b :: rest => if b = Path.slash then rest :: afterSlashes rest else []
    | [] => []
  | .oneOf negated ranges =>
    match input with
    | b :: rest => if inClass ranges b != negated then [rest] else []
    | [] => []
  | .alternatives branches =>
    if allEmpty branches then [input] else anyRests input branches

/-- What may be left after all tokens of a list. -/
def Token.listRests (input : Bytes) : List Token → List Bytes
  | [] => [input]
  | t :: rest => ((t.rests input).flatMap fun left => listRests left rest).eraseDups

/-- What may be left after one of several lists. A list that says nothing is not
among the choices. -/
def Token.anyRests (input : Bytes) : List (List Token) → List Bytes
  | [] => []
  | b :: rest =>
    (if listIsEmpty b then [] else listRests input b) ++ anyRests input rest

end

/-- A pattern matches a path as a whole. -/
def isMatch (tokens : List Token) (path : Bytes) : Bool :=
  match tokens with
  | [.leadingDirs] => true
  | _ => (Token.listRests path tokens).any List.isEmpty

end EmberClient.Glob
