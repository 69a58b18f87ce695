import EmberClient.Text.Utf8

/-!
# Bytes in hexadecimal digits

Two digits a byte, the high one first. Digits are written in lower case and read
in either; a digit without a partner says nothing.
-/

namespace EmberClient.Text

/-- A hexadecimal digit in lower case. -/
def hexChar (n : Nat) : Char :=
  if n < 10 then Char.ofNat ('0'.toNat + n) else Char.ofNat ('a'.toNat + (n - 10))

/-- The value of a hexadecimal digit. -/
def hexValue (c : Char) : Nat :=
  if c.isDigit then c.toNat - '0'.toNat else c.toLower.toNat - 'a'.toNat + 10

/-- Bytes as digits. -/
def hexOfBytes (bytes : Bytes) : String :=
  String.ofList (bytes.flatMap fun b => [hexChar (b.toNat / 16), hexChar (b.toNat % 16)])

/-- The bytes that digits stand for. -/
def bytesOfHex : List Char → Bytes
  | high :: low :: rest => UInt8.ofNat (hexValue high * 16 + hexValue low) :: bytesOfHex rest
  | _ => []

end EmberClient.Text
