import EmberClient.Decimal.Power
import EmberClient.Text.Search
import EmberClient.Uri.HostLetter
import EmberClient.Uri.Percent

/-!
# Hosts

The host of a URI is percent-decoded and compared without regard to the form of
its letters. Some characters may not stand in one; a name whose last label is a
number must be an address of four bytes.
-/

namespace EmberClient.Uri

open Text

/-- A host, as far as a path in the local file system depends on it. -/
inductive Host where
  /-- No host, or the host that means this machine. -/
  | here
  | elsewhere
  deriving DecidableEq

/-- Characters that no host may hold, a name or not. -/
def isSeparating (c : Char) : Bool :=
  "\x00\t\n\r #/:<>?@[\\]^|".toList.contains c

/-- Characters that may not stand in a name: also controls and a percent sign that
is left after decoding. -/
def isForbidden (c : Char) : Bool :=
  isSeparating c || c.toNat < 32 || c.toNat = 127 || c = '%'

/-- The labels between the dots of a name; a dot at its end adds none. -/
def labels (cs : List Char) : List (List Char) :=
  let parts := (String.ofList cs).splitOn "."
  let parts := if parts.length > 1 ∧ parts.getLast? = some "" then parts.dropLast else parts
  parts.map String.toList

/-- The number that a part of an address denotes: decimal, or octal after a zero,
or hexadecimal after `0x`. -/
def addressPart? (cs : List Char) : Option Nat :=
  let digits (base : Nat) (ds : List Char) : Option Nat :=
    ds.foldlM (fun n c => do
      let d ← (hexByte? (UInt8.ofNat c.toNat)).map UInt8.toNat
      if c.toNat < 128 ∧ d < base then some (n * base + d) else none) 0
  match cs with
  | [] => none
  | '0' :: 'x' :: ds | '0' :: 'X' :: ds => digits 16 ds
  | '0' :: d :: ds => digits 8 (d :: ds)
  | ds => digits 10 ds

/-- The last label of a name is a number. -/
def endsInNumber (cs : List Char) : Bool :=
  match (labels cs).getLast? with
  | some last =>
    (!last.isEmpty && last.all Char.isDigit) ||
      (beginsWith (String.ofList last).toLower "0x" && (addressPart? last).isSome)
  | none => false

/-- An address of at most four parts; the last part fills the bytes that are
left. -/
def isAddress (cs : List Char) : Bool :=
  match (labels cs).mapM addressPart? with
  | some parts =>
    let count := parts.length
    1 ≤ count && count ≤ 4 && parts.dropLast.all (· < 256) &&
      (parts.getLast?.getD 0) < Decimal.twoTo (8 * (5 - count))
  | none => false

/-- A group of a bracketed address: up to four hexadecimal digits. -/
def isGroup (cs : List Char) : Bool :=
  1 ≤ cs.length && cs.length ≤ 4 &&
    cs.all fun c => c.toNat < 128 && (hexByte? (UInt8.ofNat c.toNat)).isSome

/-- Four decimal bytes between dots, none with a leading zero. -/
def isQuad (cs : List Char) : Bool :=
  let parts := ((String.ofList cs).splitOn ".").map String.toList
  parts.length = 4 && parts.all fun ds =>
    !ds.isEmpty && ds.length ≤ 3 && ds.all Char.isDigit && (ds.length = 1 || ds.head? ≠ some '0') &&
      ds.foldl (fun n c => n * 10 + (c.toNat - '0'.toNat)) 0 < 256

/-- The number of groups between the colons of a text; four decimal bytes may stand
for the last two. -/
def groupCount? (mayEndInQuad : Bool) (cs : List Char) : Option Nat :=
  if cs.isEmpty then some 0
  else
    let groups := ((String.ofList cs).splitOn ":").map String.toList
    match groups.getLast? with
    | some last =>
      if !groups.dropLast.all isGroup then none
      else if isGroup last then some groups.length
      else if mayEndInQuad && isQuad last then some (groups.length + 1)
      else none
    | none => none

/-- An address in brackets: eight groups, or fewer around one double colon. -/
def isBracketed (cs : List Char) : Bool :=
  match cs with
  | '[' :: rest =>
    rest.getLast? = some ']' &&
      match (String.ofList rest.dropLast).splitOn "::" with
      | [all] => groupCount? true all.toList = some 8
      | [left, right] =>
        match groupCount? false left.toList, groupCount? true right.toList with
        | some m, some n => m + n ≤ 7
        | _, _ => false
      | _ => false
  | _ => false

/-- Reads a host; `none` if it is not a valid one. -/
def Host.read? (cs : List Char) : Option Host :=
  if cs.isEmpty then some .here
  else if cs.head? = some '[' then (if isBracketed cs then some .elsewhere else none)
  else
    match ofUtf8? (percentDecode (utf8 (String.ofList cs))) with
    | none => none
    | some name =>
      let name := String.ofList (name.toList.flatMap plainLetters)
      if name.isEmpty || name.toList.any isForbidden then none
      else if name = "localhost" then some .here
      else if endsInNumber name.toList && !isAddress name.toList then none
      else some .elsewhere

end EmberClient.Uri
