import EmberClient.Decimal.Power
import EmberClient.Toml.Scan

/-!
# Dates and times of TOML

A date, a time, or a date with a time and perhaps an offset. What is kept of one
is its text in the form of RFC 3339: a `T` between date and time, a `Z` or a
signed offset, and of the fraction of a second at most nine digits, without the
zeros at its end.
-/

namespace EmberClient.Toml

structure Date where
  year : Nat
  month : Nat
  day : Nat
  deriving DecidableEq

structure Time where
  hour : Nat
  minute : Nat
  second : Nat
  /-- Billionths of a second. -/
  nano : Nat
  deriving DecidableEq

/-- How local time differs from universal time. -/
inductive Offset where
  | none
  | universal
  | minutes (n : Int)
  deriving DecidableEq

/-! ## The text -/

/-- A number with zeros in front, up to a width. -/
def padded (width n : Nat) : String :=
  let digits := Nat.toDigits 10 n
  String.ofList (List.replicate (width - digits.length) '0' ++ digits)

def Date.text (d : Date) : String :=
  padded 4 d.year ++ "-" ++ padded 2 d.month ++ "-" ++ padded 2 d.day

/-- The digits of a fraction of a second without the zeros at their end. -/
def fractionText (nano : Nat) : String :=
  if nano = 0 then ""
  else
    let digits := (padded 9 nano).toList.reverse.dropWhile (· = '0')
    "." ++ String.ofList digits.reverse

def Time.text (t : Time) : String :=
  padded 2 t.hour ++ ":" ++ padded 2 t.minute ++ ":" ++ padded 2 t.second ++ fractionText t.nano

def Offset.text : Offset → String
  | .none => ""
  | .universal => "Z"
  | .minutes n =>
    (if n < 0 then "-" else "+") ++ padded 2 (n.natAbs / 60) ++ ":" ++ padded 2 (n.natAbs % 60)

/-! ## Reading -/

/-- The years of the Gregorian calendar with a leap day. -/
def isLeapYear (year : Nat) : Bool :=
  year % 4 = 0 && (year % 100 ≠ 0 || year % 400 = 0)

def daysInMonth (year month : Nat) : Nat :=
  if month = 2 then (if isLeapYear year then 29 else 28)
  else if month = 4 ∨ month = 6 ∨ month = 9 ∨ month = 11 then 30
  else 31

/-- The number of these decimal digits. -/
def decimalOf? (digits : List Char) : Option Nat :=
  if digits.all Json.isDigit then some (Json.natOfDigits digits) else none

/-- A number of two digits that is at most `high`. -/
def twoDigits? (high : Nat) : List Char → Option (Nat × List Char)
  | a :: b :: rest => do
    let n ← decimalOf? [a, b]
    if n ≤ high then return (n, rest) else none
  | _ => none

/-- The rest after one character. -/
def after? (c : Char) : List Char → Option (List Char)
  | d :: rest => if d = c then some rest else none
  | [] => none

def date? : List Char → Option (Date × List Char)
  | a :: b :: c :: d :: rest => do
    let year ← decimalOf? [a, b, c, d]
    let (month, rest) ← twoDigits? 12 (← after? '-' rest)
    let (day, rest) ← twoDigits? 31 (← after? '-' rest)
    if 1 ≤ month ∧ 1 ≤ day ∧ day ≤ daysInMonth year month then
      return ({ year, month, day }, rest)
    else none
  | _ => none

/-- The billionths that the digits of a fraction give; those after the ninth do
not count. -/
def nanoOf (digits : List Char) : Nat :=
  let kept := digits.take 9
  Json.natOfDigits kept * Decimal.tenTo (9 - kept.length)

def fraction? : List Char → Option (Nat × List Char)
  | '.' :: rest =>
    match rest.takeWhile Json.isDigit with
    | [] => none
    | digits => some (nanoOf digits, rest.dropWhile Json.isDigit)
  | cs => some (0, cs)

def time? (cs : List Char) : Option (Time × List Char) := do
  let (hour, rest) ← twoDigits? 23 cs
  let (minute, rest) ← twoDigits? 59 (← after? ':' rest)
  let (second, rest) ← twoDigits? 60 (← after? ':' rest)
  let (nano, rest) ← fraction? rest
  return ({ hour, minute, second, nano }, rest)

def offset? : List Char → Option (Offset × List Char)
  | 'Z' :: rest => some (.universal, rest)
  | 'z' :: rest => some (.universal, rest)
  | '+' :: rest => signed? 1 rest
  | '-' :: rest => signed? (-1) rest
  | cs => some (.none, cs)
where
  signed? (sign : Int) (cs : List Char) : Option (Offset × List Char) := do
    let (hours, rest) ← twoDigits? 23 cs
    let (minutes, rest) ← twoDigits? 59 (← after? ':' rest)
    return (.minutes (sign * (hours * 60 + minutes)), rest)

/-- The text of a date or time at the front. A blank after a date begins a time
only if a time follows. -/
def moment? (cs : List Char) : Option (String × List Char) :=
  match date? cs with
  | none => (time? cs).map fun (t, rest) => (t.text, rest)
  | some (d, rest) =>
    let timed : Option (String × List Char) :=
      match rest with
      | [] => none
      | c :: rest =>
        if c = 'T' ∨ c = 't' ∨ c = ' ' then do
          let (t, rest) ← time? rest
          let (offset, rest) ← offset? rest
          return (d.text ++ "T" ++ t.text ++ offset.text, rest)
        else none
    some (timed.getD (d.text, rest))

end EmberClient.Toml
