import EmberClient.Json.Reader
import EmberClient.Text.Utf8

/-!
# Members that nobody reads

A record takes of an object only the members that it declares. The others are
passed over: only their end is looked for, so a text among them need not be text, a
number may have any size, and brackets may nest to any depth, which are held in a
list. What is passed over still has to be built of tokens of the format.

`Outline.keep` puts `null` in place of all that is passed over. What is left is read
strictly.
-/

namespace EmberClient.Json

open Text

/-- Which members of a value are read. -/
inductive Outline where
  /-- All of it. -/
  | whole
  /-- Of an object the members with these names; of an array the items, in the order
  of the names. -/
  | record (fields : List (String × Outline))
  deriving Inhabited

namespace Outline

/-! ## Passing over -/

def isBlank (b : UInt8) : Bool := b = 32 || b = 9 || b = 10 || b = 13

def skipBlank (bytes : Bytes) : Bytes := bytes.dropWhile isBlank

def isDigitByte (b : UInt8) : Bool := 48 ≤ b && b ≤ 57

def isHexByte (b : UInt8) : Bool :=
  isDigitByte b || (65 ≤ b && b ≤ 70) || (97 ≤ b && b ≤ 102)

/-- The bytes that may follow a backslash, those of a code unit apart. -/
def letters : Bytes := utf8 "\"\\/bfnrt"

/-- What comes after a string, from the byte after its first quote. -/
def afterString : Bytes → Option Bytes
  | [] => none
  | 34 :: rest => some rest
  | 92 :: 117 :: a :: b :: c :: d :: rest =>
    if isHexByte a && isHexByte b && isHexByte c && isHexByte d then afterString rest else none
  | 92 :: b :: rest => if letters.contains b then afterString rest else none
  | b :: rest => if b < 32 || b = 92 then none else afterString rest

/-- What comes after digits, of which there is at least one. -/
def afterDigits : Bytes → Option Bytes
  | b :: rest => if isDigitByte b then some (rest.dropWhile isDigitByte) else none
  | [] => none

/-- What comes after an exponent, if there is one. -/
def afterExponent : Bytes → Option Bytes
  | 101 :: rest | 69 :: rest =>
    match rest with
    | 43 :: rest | 45 :: rest => afterDigits rest
    | rest => afterDigits rest
  | bytes => some bytes

/-- What comes after a number, from the byte after its sign. -/
def afterNumber (bytes : Bytes) : Option Bytes := do
  let rest ←
    match bytes with
    | 48 :: b :: rest => if isDigitByte b then none else some (b :: rest)
    | bytes => afterDigits bytes
  match rest with
  | 46 :: rest => afterExponent (← afterDigits rest)
  | rest => afterExponent rest

/-- What comes after a fixed word. -/
def afterWord (word : String) (bytes : Bytes) : Option Bytes :=
  if (utf8 word).isPrefixOf bytes then some (bytes.drop (utf8 word).length) else none

/-- A bracket that is not closed yet. -/
inductive Bracket where
  | square | curly
  deriving DecidableEq

/-- Where passing over has come to. -/
inductive Place where
  /-- A value comes next. -/
  | value
  /-- A key comes next. -/
  | key
  /-- A value has ended. -/
  | ended

/-- What comes after a value, at most `bound` tokens; the brackets in the list are
open. -/
def pass (bound : Nat) (place : Place) (brackets : List Bracket) (bytes : Bytes) :
    Option Bytes :=
  match bound with
  | 0 => none
  | bound + 1 =>
    match place with
    | .value =>
      match skipBlank bytes with
      | 91 :: rest =>
        match skipBlank rest with
        | 93 :: rest => pass bound .ended brackets rest
        | rest => pass bound .value (.square :: brackets) rest
      | 123 :: rest =>
        match skipBlank rest with
        | 125 :: rest => pass bound .ended brackets rest
        | rest => pass bound .key (.curly :: brackets) rest
      | 34 :: rest => (afterString rest).bind (pass bound .ended brackets)
      | 45 :: rest => (afterNumber rest).bind (pass bound .ended brackets)
      | 110 :: rest => (afterWord "ull" rest).bind (pass bound .ended brackets)
      | 116 :: rest => (afterWord "rue" rest).bind (pass bound .ended brackets)
      | 102 :: rest => (afterWord "alse" rest).bind (pass bound .ended brackets)
      | rest => (afterNumber rest).bind (pass bound .ended brackets)
    | .key =>
      match skipBlank bytes with
      | 34 :: rest =>
        match (afterString rest).map skipBlank with
        | some (58 :: rest) => pass bound .value brackets rest
        | _ => none
      | _ => none
    | .ended =>
      match brackets with
      | [] => some bytes
      | bracket :: outer =>
        match bracket, skipBlank bytes with
        | .square, 44 :: rest => pass bound .value brackets rest
        | .square, 93 :: rest => pass bound .ended outer rest
        | .curly, 44 :: rest => pass bound .key brackets rest
        | .curly, 125 :: rest => pass bound .ended outer rest
        | _, _ => none

/-- What comes after the value at the front. -/
def afterValue (bytes : Bytes) : Option Bytes := pass (2 * bytes.length + 2) .value [] bytes

/-- The bytes in front of a rest. -/
def before (bytes rest : Bytes) : Bytes := bytes.take (bytes.length - rest.length)

/-! ## Keeping -/

/-- The key that stands at the front, after its first quote: its text and what comes
after it. -/
def key? (bytes : Bytes) : Option (String × Bytes) := do
  let rest ← afterString bytes
  let text ← ofUtf8? (before bytes rest)
  match ← stringBody text.toList with
  | (cs, []) => return (String.ofList cs, rest)
  | _ => none

mutual

/-- The value at the front with what it does not declare replaced, and what comes
after it. -/
def keepValue (bound : Nat) (outline : Outline) (bytes : Bytes) : Option (Bytes × Bytes) :=
  match bound with
  | 0 => none
  | bound + 1 =>
    match outline, skipBlank bytes with
    | .record fields, 123 :: rest =>
      match skipBlank rest with
      | 125 :: rest => some ([123, 125], rest)
      | rest => (keepMembers bound fields rest).map fun (kept, rest) => (123 :: kept, rest)
    | .record fields, 91 :: rest =>
      match skipBlank rest with
      | 93 :: rest => some ([91, 93], rest)
      | rest => (keepItems bound (fields.map (·.2)) rest).map fun (kept, rest) => (91 :: kept, rest)
    | _, bytes => (afterValue bytes).map fun rest => (before bytes rest, rest)

/-- The members up to the closing brace. -/
def keepMembers (bound : Nat) (fields : List (String × Outline)) (bytes : Bytes) :
    Option (Bytes × Bytes) :=
  match bound with
  | 0 => none
  | bound + 1 =>
    match skipBlank bytes with
    | 34 :: rest => do
      let (key, afterKey) ← key? rest
      let name := 34 :: before rest afterKey
      match skipBlank afterKey with
      | 58 :: rest => do
        let (value, rest) ←
          match fields.find? fun f => f.1 = key with
          | some (_, outline) => keepValue bound outline rest
          | none => (afterValue rest).map fun rest => (utf8 "null", rest)
        match skipBlank rest with
        | 44 :: rest =>
          (keepMembers bound fields rest).map fun (more, rest) =>
            (name ++ 58 :: value ++ 44 :: more, rest)
        | 125 :: rest => some (name ++ 58 :: value ++ [125], rest)
        | _ => none
      | _ => none
    | _ => none

/-- The items up to the closing bracket. -/
def keepItems (bound : Nat) (outlines : List Outline) (bytes : Bytes) :
    Option (Bytes × Bytes) :=
  match bound with
  | 0 => none
  | bound + 1 => do
    let (value, rest) ← keepValue bound (outlines.head?.getD .whole) bytes
    match skipBlank rest with
    | 44 :: rest =>
      (keepItems bound outlines.tail rest).map fun (more, rest) => (value ++ 44 :: more, rest)
    | 93 :: rest => some (value ++ [93], rest)
    | _ => none

end

/-- A document with what it does not declare replaced. -/
def keep (outline : Outline) (bytes : Bytes) : Option Bytes :=
  match keepValue (2 * bytes.length + 2) outline bytes with
  | some (kept, rest) => if (skipBlank rest).isEmpty then some kept else none
  | none => none

end Outline

/-- The document that these bytes are, read strictly. -/
def ofBytes? (bytes : Bytes) : Option Json := (ofUtf8? bytes).bind read?

/-- The document that these bytes are, as far as an outline goes. What can be read
strictly needs no passing over. -/
def readOutlined? (outline : Outline) (bytes : Bytes) : Option Json :=
  (ofBytes? bytes).or ((outline.keep bytes).bind ofBytes?)

end EmberClient.Json
