import EmberClient.Decimal.Power
import EmberClient.Settings.Value
import EmberClient.Toml.Scan

/-!
# Numbers of TOML

A whole number is decimal with an optional sign, or hexadecimal, octal or binary
without one; it fits sixty-four signed bits or the document is refused. A number
with a fraction or an exponent is rounded to the nearest floating-point number;
one beyond the largest is refused when it is positive and infinite when it is
negative. A single underscore may stand between two digits.
-/

namespace EmberClient.Toml

open Decimal

/-- The digits after a first one, without the underscores between them. -/
def moreDigits (isDigit : Char → Bool) : List Char → Option (List Char × List Char)
  | [] => some ([], [])
  | '_' :: c :: rest =>
    if isDigit c then (moreDigits isDigit rest).map fun (ds, rest) => (c :: ds, rest) else none
  | c :: rest =>
    if isDigit c then (moreDigits isDigit rest).map fun (ds, rest) => (c :: ds, rest)
    else if c = '_' then none
    else some ([], c :: rest)

/-- Digits, at least one. -/
def digits? (isDigit : Char → Bool) : List Char → Option (List Char × List Char)
  | [] => none
  | c :: rest =>
    if isDigit c then (moreDigits isDigit rest).map fun (ds, rest) => (c :: ds, rest) else none

/-- The number that digits denote in a base. -/
def natOfDigits (base : Nat) (ds : List Char) : Nat :=
  ds.foldl (fun n c => n * base + (Json.hexValue? c).getD 0) 0

/-- A whole number that fits sixty-four signed bits. -/
def inRange? (n : Int) : Option Setting :=
  if Decimal.fitsSigned 64 n then some (.int n) else none

/-- The digits of a base. -/
def isDigitOf (base : Nat) (c : Char) : Bool :=
  match Json.hexValue? c with
  | some d => d < base
  | none => false

/-- A number in a base, after the letter that names it. -/
def based? (base : Nat) (cs : List Char) : Option (Setting × List Char) := do
  let (ds, rest) ← digits? (isDigitOf base) cs
  let v ← inRange? (natOfDigits base ds)
  return (v, rest)

/-- An optional sign: whether it is a minus. -/
def sign (cs : List Char) : Bool × List Char :=
  match cs with
  | '+' :: rest => (false, rest)
  | '-' :: rest => (true, rest)
  | _ => (false, cs)

/-- The digits before the point: a zero alone, or digits that do not begin with
one. -/
def wholePart? (cs : List Char) : Option (List Char × List Char) :=
  match cs with
  | '0' :: rest => some (['0'], rest)
  | _ => digits? (isDigitOf 10) cs

def fractionPart? : List Char → Option (Option (List Char) × List Char)
  | '.' :: rest => do
    let (ds, rest) ← digits? (isDigitOf 10) rest
    return (some ds, rest)
  | cs => some (none, cs)

def exponentPart? (cs : List Char) : Option (Option Int × List Char) :=
  let read (rest : List Char) : Option (Option Int × List Char) := do
    let (negative, rest) := sign rest
    let (ds, rest) ← digits? (isDigitOf 10) rest
    let n : Int := natOfDigits 10 ds
    return (some (if negative then -n else n), rest)
  match cs with
  | 'e' :: rest => read rest
  | 'E' :: rest => read rest
  | _ => some (none, cs)

/-- The rounded number of digits and an exponent. -/
def real? (negative : Bool) (whole fraction : List Char) (exponent : Int) : Option Setting :=
  let x := Binary64.ofDecimal negative (natOfDigits 10 (whole ++ fraction))
    (exponent - fraction.length)
  if x = .infinity false then none else some (.real x)

/-- A decimal number after its sign. -/
def decimal? (negative : Bool) (cs : List Char) : Option (Setting × List Char) := do
  let (whole, rest) ← wholePart? cs
  let (fraction, rest) ← fractionPart? rest
  let (exponent, rest) ← exponentPart? rest
  let v ←
    match fraction, exponent with
    | none, none =>
      let n : Int := natOfDigits 10 whole
      inRange? (if negative then -n else n)
    | _, _ => real? negative whole (fraction.getD []) (exponent.getD 0)
  return (v, rest)

/-- A number, from its sign or first digit. -/
def number? (cs : List Char) : Option (Setting × List Char) :=
  match cs with
  | '0' :: 'x' :: rest => based? 16 rest
  | '0' :: 'o' :: rest => based? 8 rest
  | '0' :: 'b' :: rest => based? 2 rest
  | _ =>
    let (negative, rest) := sign cs
    match rest with
    | 'i' :: 'n' :: 'f' :: rest => some (.real (.infinity negative), rest)
    | 'n' :: 'a' :: 'n' :: rest => some (.real .nan, rest)
    | _ => decimal? negative rest

end EmberClient.Toml
