import EmberClient.Decimal.Power
import EmberClient.Decimal.Shortest
import EmberClient.Json.Basic

/-!
# JSON numbers as text

A literal without fraction and exponent that fits a signed or an unsigned word
is a whole number. Every other literal is read as a floating-point number in two
steps: the leading digits that fit an unsigned word form a significand, the
others count only as places; then the rounded significand is multiplied or
divided by the rounded power of ten. The two roundings are the rule of the
format, not an approximation of it: a literal with more digits than a word holds
may read as a neighbour of the nearest number. A literal beyond the largest
finite number is refused.
-/

namespace EmberClient.JsonNumber

open Decimal

/-- The largest unsigned word. -/
def maxWord : Nat := twoTo 64 - 1

/-- A literal as it is written: digits, and an exponent if there is one. -/
structure Literal where
  negative : Bool
  whole : List Char
  fraction : Option (List Char)
  exponent : Option Int

def digit (c : Char) : Nat := c.toNat - '0'.toNat

/-- Takes the digits that fit a word; returns the word and the digits left over. -/
def takeWord (word : Nat) : List Char → Nat × List Char
  | [] => (word, [])
  | c :: rest =>
    if maxWord < word * 10 + digit c then (word, c :: rest)
    else takeWord (word * 10 + digit c) rest

/-- The significand of a literal and the power of ten it is scaled by. Digits of
the whole part beyond the word raise the power, digits of the fraction that were
taken lower it. -/
def Literal.scaled (l : Literal) : Nat × Int :=
  let (word, skipped) := takeWord 0 l.whole
  let fraction := l.fraction.getD []
  let (significand, left) := takeWord word fraction
  let taken : Int := (fraction.length : Int) - (left.length : Int)
  (significand, (skipped.length : Int) - taken + l.exponent.getD 0)

/-- The rounded power of ten. -/
def power (k : Nat) : Binary64 := .ofDecimal false 1 k

/-- The largest power of ten that is a finite number. -/
def reach : Nat := 308

/-- Divides by powers of ten until the exponent is within reach of one of them
or nothing is left. -/
def descend (x : Binary64) (k : Nat) : Binary64 :=
  if reach < k then
    if x.isZero then x else descend (x.div (power reach)) (k - reach)
  else x.div (power k)
  termination_by k
  decreasing_by unfold reach at *; omega

/-- The rounded significand, scaled; `none` beyond the finite numbers. -/
def scale (significand : Nat) (exponent : Int) : Option Binary64 :=
  let x := Binary64.ofRatio false significand 1
  if exponent < 0 then some (descend x exponent.natAbs)
  else if significand = 0 then some x
  else if reach < exponent then none
  else
    let y := x.mul (power exponent.toNat)
    if y.isInfinite then none else some y

def withSign (negative : Bool) (x : Binary64) : Binary64 :=
  if negative then .ofMagnitudeBits true x.bits.toNat else x

/-- The number that a literal denotes. -/
def ofLiteral (l : Literal) : Option JsonNumber :=
  let n := (takeWord 0 l.whole).1
  let fits := (takeWord 0 l.whole).2.isEmpty
  match l.fraction, l.exponent with
  | none, none =>
    if fits ∧ l.negative = false then some (.int n)
    else if fits ∧ 0 < n ∧ n ≤ twoTo 63 then some (.int (-n))
    else real l
  | _, _ => real l
where
  real (l : Literal) : Option JsonNumber :=
    let (significand, exponent) := l.scaled
    (scale significand exponent).map fun x => .real (withSign l.negative x)

/-- Floating-point numbers always show a point or an exponent. -/
def layout : Layout where
  positional := some (-5, 16)
  keepsPoint := true
  notANumber := "null"
  infinity := "null"

/-- The decimal digits of a whole number. -/
def intText (n : Int) : String :=
  if n < 0 then "-" ++ toString n.natAbs else toString n.natAbs

/-- The text of a number. -/
def text : JsonNumber → String
  | .int n => intText n
  | .real x => layout.text x

end EmberClient.JsonNumber
