import EmberClient.Decimal.Binary64

/-!
# The fewest digits that read back

A finite number is written with the fewest decimal digits that round back to it,
and of those with the nearest. The decimals that round to `m * 2 ^ q` form an
interval; for one digit, two digits, and so on up to seventeen, `shortest` tests
the value's two neighbours on that decimal grid. If any point of a grid lies in
the interval then so does one of the value's two neighbours on it, so the first
grid with a hit has the fewest digits.
-/

namespace EmberClient.Decimal

/-- A positive decimal: `digits * 10 ^ exponent`. -/
structure Scientific where
  digits : Nat
  exponent : Int
  deriving DecidableEq

/-- The number of decimal digits of `n`; one for zero. -/
def digitCount (n : Nat) : Nat :=
  (Nat.toDigits 10 n).length

/-- The reals that round to one number, as quotients over one denominator. -/
structure Rounding where
  low : Nat
  mid : Nat
  high : Nat
  den : Nat
  /-- The ends belong to the interval when the significand is even. -/
  closed : Bool

/-- The interval around `m * 2 ^ q`. Below a power of two the numbers lie twice
as close, so there the lower half is half as wide. -/
def Rounding.around (m : Nat) (q : Int) : Rounding :=
  let (scale, den) := Binary64.ratio 1 (q - 2)
  let below := if m = twoTo 52 ∧ Binary64.minExponent < q then 1 else 2
  { low := (4 * m - below) * scale
    mid := 4 * m * scale
    high := (4 * m + 2) * scale
    den
    closed := m % 2 = 0 }

/-- `10 ^ k` as a quotient. -/
def powTen (k : Int) : Nat × Nat :=
  if 0 ≤ k then (tenTo k.toNat, 1) else (1, tenTo (-k).toNat)

/-- The point `d * 10 ^ k` lies in the interval. -/
def Rounding.holds (r : Rounding) (d : Nat) (k : Int) : Bool :=
  let (up, down) := powTen k
  let point := d * up * r.den
  let low := r.low * down
  let high := r.high * down
  if r.closed then low ≤ point && point ≤ high else low < point && point < high

/-- The power of ten at or below the value. -/
def Rounding.magnitude (r : Rounding) : Int :=
  let guess : Int := (digitCount r.mid : Int) - (digitCount r.den : Int)
  let (up, down) := powTen guess
  if up * r.den ≤ r.mid * down then guess else guess - 1

/-- The neighbour of the value on the grid of `10 ^ k` that lies in the interval
and is nearest to the value, a tie going to the even one. -/
def Rounding.hit (r : Rounding) (k : Int) : Option Nat :=
  let (up, down) := powTen k
  let unit := up * r.den
  let d := r.mid * down / unit
  let twice := 2 * (r.mid * down % unit)
  match r.holds d k, r.holds (d + 1) k with
  | true, true =>
    if twice < unit then some d
    else if unit < twice then some (d + 1)
    else some (if d % 2 = 0 then d else d + 1)
  | true, false => some d
  | false, true => some (d + 1)
  | false, false => none

/-- Drops the zeros at the end of the digits. -/
def Scientific.strip (digits : Nat) (exponent : Int) : Scientific :=
  if h : digits ≠ 0 ∧ digits % 10 = 0 then strip (digits / 10) (exponent + 1)
  else ⟨digits, exponent⟩
  termination_by digits
  decreasing_by omega

/-- The shortest decimal of a positive number `m * 2 ^ q`. -/
def shortest (m : Nat) (q : Int) : Scientific :=
  let r := Rounding.around m q
  let top := r.magnitude
  let grids := (List.range 17).map fun n : Nat => top - (n : Int)
  match grids.findSome? fun k => (r.hit k).map fun d => (d, k) with
  | some (d, k) => .strip d k
  | none => ⟨m, q⟩ -- never reached: with seventeen digits one neighbour always reads back

/-! ## Writing the digits -/

/-- How a decimal is laid out. -/
structure Layout where
  /-- The positions of the point, counted from the first digit, at which a number
  is written without an exponent: above the first bound and up to the second.
  Without bounds every number is. -/
  positional : Option (Int × Int)
  /-- A whole number still gets a point and a zero. -/
  keepsPoint : Bool
  notANumber : String
  infinity : String

private def digitsText (n : Nat) : String := String.ofList (Nat.toDigits 10 n)

private def zeros (n : Nat) : String := String.ofList (List.replicate n '0')

/-- The digits with the point at its place, no exponent. -/
def Layout.positionalText (layout : Layout) (digits : String) (exponent : Int) : String :=
  let count : Int := digits.length
  let point := count + exponent
  if 0 ≤ exponent then
    digits ++ zeros exponent.toNat ++ (if layout.keepsPoint then ".0" else "")
  else if 0 < point then
    String.ofList (digits.toList.take point.toNat) ++ "." ++
      String.ofList (digits.toList.drop point.toNat)
  else "0." ++ zeros (-point).toNat ++ digits

/-- One digit before the point, the rest after it, and a signed exponent. -/
def Layout.exponentText (digits : String) (exponent : Int) : String :=
  let power := (digits.length : Int) + exponent - 1
  let mantissa :=
    match digits.toList with
    | first :: more@(_ :: _) => String.ofList (first :: '.' :: more)
    | few => String.ofList few
  mantissa ++ "e" ++ (if 0 ≤ power then "+" else "-") ++ digitsText power.natAbs

def Layout.magnitudeText (layout : Layout) (s : Scientific) : String :=
  let digits := digitsText s.digits
  let point := (digits.length : Int) + s.exponent
  match layout.positional with
  | none => layout.positionalText digits s.exponent
  | some (above, upTo) =>
    if above < point ∧ point ≤ upTo then layout.positionalText digits s.exponent
    else exponentText digits s.exponent

/-- The text of a number in a layout. -/
def Layout.text (layout : Layout) (x : Binary64) : String :=
  let sign (negative : Bool) := if negative then "-" else ""
  match x.value with
  | .notANumber => layout.notANumber
  | .infinite negative => sign negative ++ layout.infinity
  | .finite negative m q =>
    if m = 0 then sign negative ++ (if layout.keepsPoint then "0.0" else "0")
    else sign negative ++ layout.magnitudeText (shortest m q)

end EmberClient.Decimal
