import EmberClient.Decimal.Power

/-!
# Binary floating point, exactly

A number of 64 bits is a sign, a significand and a power of two. Everything here
is arithmetic on natural numbers: `value` takes a number apart, `ofRatio` rounds
an exact quotient to the nearest number, a half going to the even neighbour, and
a product or quotient is the rounded exact one. No operation depends on the
machine's own floating-point unit, so a statement about a printed or a read
number is a statement about integers.
-/

namespace EmberClient.Decimal

/-- A floating-point number, by its bits: sign, eleven bits of exponent,
fifty-two of fraction. -/
structure Binary64 where
  bits : UInt64
  deriving DecidableEq, Inhabited

/-- What a number stands for. A finite one is `significand * 2 ^ exponent`. -/
inductive Binary64.Value where
  | notANumber
  | infinite (negative : Bool)
  | finite (negative : Bool) (significand : Nat) (exponent : Int)
  deriving DecidableEq

/-- The quotient rounded to the nearest whole number, a half to the even one. -/
def roundDiv (num den : Nat) : Nat :=
  let q := num / den
  let twice := 2 * (num % den)
  if twice < den then q
  else if twice = den then (if q % 2 = 0 then q else q + 1)
  else q + 1

namespace Binary64

/-- The smallest exponent of a finite number. -/
def minExponent : Int := -1074

/-- Takes a number apart. -/
def value (x : Binary64) : Value :=
  let bits := x.bits.toNat
  let negative := twoTo 63 ≤ bits
  let biased : Nat := bits / twoTo 52 % twoTo 11
  let fraction := bits % twoTo 52
  if biased = 2047 then (if fraction = 0 then .infinite negative else .notANumber)
  else if biased = 0 then .finite negative fraction minExponent
  else .finite negative (twoTo 52 + fraction) ((biased : Int) - 1075)

/-- The number with this sign and these sixty-three other bits. -/
def ofMagnitudeBits (negative : Bool) (magnitude : Nat) : Binary64 :=
  ⟨UInt64.ofNat (if negative then twoTo 63 + magnitude else magnitude)⟩

def infinity (negative : Bool) : Binary64 := ofMagnitudeBits negative (2047 * twoTo 52)

def zero (negative : Bool) : Binary64 := ofMagnitudeBits negative 0

def nan : Binary64 := ofMagnitudeBits false (2047 * twoTo 52 + twoTo 51)

/-- `num / den` in units of `2 ^ e`, as a quotient of natural numbers. -/
def inUnits (num den : Nat) (e : Int) : Nat × Nat :=
  if 0 ≤ e then (num, den * twoTo e.toNat) else (num * twoTo (-e).toNat, den)

/-- The exponent at which `num / den` has fifty-three significant bits, or the
least one. -/
def unitExponent (num den : Nat) : Int :=
  let e : Int := (num.log2 : Int) - (den.log2 : Int) - 52
  let (n, d) := inUnits num den e
  max minExponent (if n / d < twoTo 52 then e - 1 else e)

/-- The number nearest to `num / den`; infinite when that is beyond the largest
finite one. -/
def ofRatio (negative : Bool) (num den : Nat) : Binary64 :=
  if num = 0 then zero negative
  else
    let e := unitExponent num den
    let (n, d) := inUnits num den e
    let significand := roundDiv n d
    if significand < twoTo 52 then ofMagnitudeBits negative significand
    else
      let biased := (e + 1075).toNat
      let magnitude := biased * twoTo 52 + (significand - twoTo 52)
      if 2047 * twoTo 52 ≤ magnitude then infinity negative
      else ofMagnitudeBits negative magnitude

/-- The number nearest to `significand * 10 ^ exponent`. Exponents so large or
so small that the answer does not depend on them are cut short. -/
def ofDecimal (negative : Bool) (significand : Nat) (exponent : Int) : Binary64 :=
  if significand = 0 then zero negative
  else if 400 < exponent then infinity negative
  else if 0 ≤ exponent then ofRatio negative (significand * tenTo exponent.toNat) 1
  else if exponent + significand.log2 < -400 then zero negative
  else ofRatio negative significand (tenTo (-exponent).toNat)

def isZero (x : Binary64) : Bool :=
  match x.value with
  | .finite _ m _ => m = 0
  | _ => false

def isInfinite (x : Binary64) : Bool :=
  match x.value with
  | .infinite _ => true
  | _ => false

/-- The exact magnitude of a finite number as a quotient. -/
def ratio (m : Nat) (e : Int) : Nat × Nat :=
  if 0 ≤ e then (m * twoTo e.toNat, 1) else (m, twoTo (-e).toNat)

/-- The rounded product of two positive numbers; infinite if either is. -/
def mul (x y : Binary64) : Binary64 :=
  match x.value, y.value with
  | .finite s m e, .finite s' m' e' =>
    let (n, d) := ratio (m * m') (e + e')
    ofRatio (s != s') n d
  | .notANumber, _ | _, .notANumber => nan
  | .infinite s, _ | _, .infinite s => infinity s

/-- The rounded quotient of a finite number by a finite one that is not zero. -/
def div (x y : Binary64) : Binary64 :=
  match x.value, y.value with
  | .finite s m e, .finite s' m' e' =>
    let (n, d) := ratio m (e - e')
    ofRatio (s != s') n (d * m')
  | _, _ => nan

end Binary64

end EmberClient.Decimal
