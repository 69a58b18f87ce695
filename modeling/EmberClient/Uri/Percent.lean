import EmberClient.Text.Utf8

/-!
# Percent-encoding

A byte that may not stand in a URI is written as a percent sign and two
hexadecimal digits. Decoding reads such a triple as its byte and leaves a percent
sign that begins none as it is.
-/

namespace EmberClient.Uri

open Text

/-- The value of a hexadecimal digit. -/
def hexByte? (b : UInt8) : Option UInt8 :=
  if 48 ≤ b && b ≤ 57 then some (b - 48)
  else if 97 ≤ b && b ≤ 102 then some (b - 97 + 10)
  else if 65 ≤ b && b ≤ 70 then some (b - 65 + 10)
  else none

/-- The byte that two hexadecimal digits stand for. -/
def tripleByte? (high low : UInt8) : Option UInt8 := do
  let high ← hexByte? high
  let low ← hexByte? low
  return high * 16 + low

/-- The bytes with every triple read as its byte. -/
def percentDecode : Bytes → Bytes
  | 37 :: high :: low :: rest =>
    match tripleByte? high low with
    | some b => b :: percentDecode rest
    | none => 37 :: percentDecode (high :: low :: rest)
  | b :: rest => b :: percentDecode rest
  | [] => []

/-- A hexadecimal digit in upper case. -/
def upperHex (n : Nat) : Char :=
  if n < 10 then Char.ofNat ('0'.toNat + n) else Char.ofNat ('A'.toNat + (n - 10))

/-- The bytes that may not stand in a segment of a path: controls, everything that
is not ASCII, and the characters that have a meaning in a URI. -/
def isEncoded (b : UInt8) : Bool :=
  b < 32 || 127 ≤ b || (utf8 " \"#<>`?\x7b\x7d%/\\").contains b

/-- A byte of a segment as it stands in a URI. -/
def percentByte (b : UInt8) : List Char :=
  if isEncoded b then ['%', upperHex (b.toNat / 16), upperHex (b.toNat % 16)]
  else [Char.ofNat b.toNat]

/-- A segment of a path as it stands in a URI. -/
def percentEncode (bytes : Bytes) : String :=
  String.ofList (bytes.flatMap percentByte)

end EmberClient.Uri
