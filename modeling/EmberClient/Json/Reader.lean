import EmberClient.Json.Number

/-!
# Reading JSON

A strict reader: one document, blanks of the format around its tokens, and
nothing else. No comment, no trailing comma, no raw control character in a
string, no leading zero, no half of a surrogate pair; arrays and objects nest at
most `maxDepth` deep.

Every reading function takes the characters and returns what it read with the
characters that are left. The recursion is on a bound that `read?` sets to the
number of characters: each nested call has consumed one of them.
-/

namespace EmberClient.Json

/-- How deep arrays and objects may nest. -/
def maxDepth : Nat := 127

/-- The blanks of the format. -/
def isSpace (c : Char) : Bool :=
  c = ' ' || c = '\t' || c = '\n' || c = '\r'

def skipSpace (cs : List Char) : List Char := cs.dropWhile isSpace

def isDigit (c : Char) : Bool := '0' ≤ c && c ≤ '9'

/-! ## Strings -/

def hexValue? (c : Char) : Option Nat :=
  if '0' ≤ c ∧ c ≤ '9' then some (c.toNat - '0'.toNat)
  else if 'a' ≤ c ∧ c ≤ 'f' then some (c.toNat - 'a'.toNat + 10)
  else if 'A' ≤ c ∧ c ≤ 'F' then some (c.toNat - 'A'.toNat + 10)
  else none

/-- The code unit of four hexadecimal digits. -/
def unit? (a b c d : Char) : Option Nat := do
  let a ← hexValue? a
  let b ← hexValue? b
  let c ← hexValue? c
  let d ← hexValue? d
  return ((a * 16 + b) * 16 + c) * 16 + d

def isHighSurrogate (n : Nat) : Bool := 0xD800 ≤ n && n ≤ 0xDBFF

def isLowSurrogate (n : Nat) : Bool := 0xDC00 ≤ n && n ≤ 0xDFFF

/-- The character that a letter after a backslash stands for. -/
def letterEscape? (c : Char) : Option Char :=
  if c = '"' ∨ c = '\\' ∨ c = '/' then some c
  else if c = 'b' then some '\x08'
  else if c = 'f' then some '\x0c'
  else if c = 'n' then some '\n'
  else if c = 'r' then some '\r'
  else if c = 't' then some '\t'
  else none

/-- What stands after the opening quote, up to and without the closing one. -/
def stringBody : List Char → Option (List Char × List Char)
  | [] => none
  | '"' :: rest => some ([], rest)
  | '\\' :: 'u' :: a :: b :: c :: d :: rest => do
    let unit ← unit? a b c d
    if isLowSurrogate unit then none
    else if isHighSurrogate unit then
      -- its other half must follow at once
      match rest with
      | '\\' :: 'u' :: e :: f :: g :: h :: rest => do
        let low ← unit? e f g h
        if isLowSurrogate low then
          let (cs, rest) ← stringBody rest
          let c := Char.ofNat (0x10000 + (unit - 0xD800) * 0x400 + (low - 0xDC00))
          return (c :: cs, rest)
        else none
      | _ => none
    else
      let (cs, rest) ← stringBody rest
      return (Char.ofNat unit :: cs, rest)
  | '\\' :: c :: rest => do
    let c ← letterEscape? c
    let (cs, rest) ← stringBody rest
    return (c :: cs, rest)
  | c :: rest =>
    if c = '\\' ∨ c.toNat < 0x20 then none
    else do
      let (cs, rest) ← stringBody rest
      return (c :: cs, rest)

/-! ## Numbers -/

/-- The digits at the front, at least one. -/
def digits? (cs : List Char) : Option (List Char × List Char) :=
  match cs.takeWhile isDigit with
  | [] => none
  | ds => some (ds, cs.dropWhile isDigit)

/-- The digits before the point: no zero stands in front of another digit. -/
def wholePart? (cs : List Char) : Option (List Char × List Char) := do
  let (ds, rest) ← digits? cs
  match ds with
  | '0' :: _ :: _ => none
  | _ => some (ds, rest)

def natOfDigits (ds : List Char) : Nat :=
  ds.foldl (fun n c => n * 10 + JsonNumber.digit c) 0

def fractionPart? : List Char → Option (Option (List Char) × List Char)
  | '.' :: rest => do
    let (ds, rest) ← digits? rest
    return (some ds, rest)
  | cs => some (none, cs)

/-- The exponent after its letter. -/
def signedDigits? : List Char → Option (Int × List Char)
  | '+' :: rest => do
    let (ds, rest) ← digits? rest
    return (natOfDigits ds, rest)
  | '-' :: rest => do
    let (ds, rest) ← digits? rest
    return (-(natOfDigits ds : Int), rest)
  | cs => do
    let (ds, rest) ← digits? cs
    return (natOfDigits ds, rest)

def exponentPart? : List Char → Option (Option Int × List Char)
  | 'e' :: rest | 'E' :: rest => do
    let (n, rest) ← signedDigits? rest
    return (some n, rest)
  | cs => some (none, cs)

/-- A number after its sign. -/
def number? (negative : Bool) (cs : List Char) : Option (Json × List Char) := do
  let (whole, rest) ← wholePart? cs
  let (fraction, rest) ← fractionPart? rest
  let (exponent, rest) ← exponentPart? rest
  let n ← JsonNumber.ofLiteral { negative, whole, fraction, exponent }
  return (.num n, rest)

/-! ## Documents -/

/-- The rest after a fixed word. -/
def afterWord? (word : List Char) (cs : List Char) : Option (List Char) :=
  if word.isPrefixOf cs then some (cs.drop word.length) else none

mutual

/-- One value at the front, no blank before it. -/
def readValue? (bound depth : Nat) (cs : List Char) : Option (Json × List Char) :=
  match bound with
  | 0 => none
  | bound + 1 =>
    match cs with
    | [] => none
    | 'n' :: rest => (afterWord? "ull".toList rest).map (Json.null, ·)
    | 't' :: rest => (afterWord? "rue".toList rest).map (Json.bool true, ·)
    | 'f' :: rest => (afterWord? "alse".toList rest).map (Json.bool false, ·)
    | '"' :: rest => do
      let (s, rest) ← stringBody rest
      return (.str (String.ofList s), rest)
    | '[' :: rest =>
      match depth with
      | 0 => none
      | depth + 1 =>
        match skipSpace rest with
        | ']' :: rest => some (.arr [], rest)
        | rest => do
          let (items, rest) ← readItems? bound depth rest
          return (.arr items, rest)
    | '{' :: rest =>
      match depth with
      | 0 => none
      | depth + 1 =>
        match skipSpace rest with
        | '}' :: rest => some (.obj [], rest)
        | rest => do
          let (members, rest) ← readMembers? bound depth rest
          return (.obj members, rest)
    | '-' :: rest => number? true rest
    | c :: rest => number? false (c :: rest)

/-- The items of an array up to its bracket, the first blank skipped. -/
def readItems? (bound depth : Nat) (cs : List Char) : Option (List Json × List Char) :=
  match bound with
  | 0 => none
  | bound + 1 => do
    let (v, rest) ← readValue? bound depth cs
    match skipSpace rest with
    | ']' :: rest => return ([v], rest)
    | ',' :: rest =>
      let (vs, rest) ← readItems? bound depth (skipSpace rest)
      return (v :: vs, rest)
    | _ => none

/-- The members of an object up to its brace, the first blank skipped. -/
def readMembers? (bound depth : Nat) (cs : List Char) :
    Option (List (String × Json) × List Char) :=
  match bound with
  | 0 => none
  | bound + 1 =>
    match cs with
    | '"' :: rest => do
      let (key, rest) ← stringBody rest
      match skipSpace rest with
      | ':' :: rest =>
        let (v, rest) ← readValue? bound depth (skipSpace rest)
        match skipSpace rest with
        | '}' :: rest => return ([(String.ofList key, v)], rest)
        | ',' :: rest =>
          let (vs, rest) ← readMembers? bound depth (skipSpace rest)
          return ((String.ofList key, v) :: vs, rest)
        | _ => none
      | _ => none
    | _ => none

end

/-- The document that these characters are. -/
def ofChars? (cs : List Char) : Option Json :=
  match readValue? (cs.length + 1) maxDepth (skipSpace cs) with
  | some (v, rest) => if (skipSpace rest).isEmpty then some v else none
  | none => none

/-- The document that a text is. -/
def read? (s : String) : Option Json := ofChars? s.toList

end EmberClient.Json
