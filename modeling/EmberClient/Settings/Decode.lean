import EmberClient.Decimal.Power
import EmberClient.Decimal.Shortest
import EmberClient.Json.Number
import EmberClient.Settings.Client
import EmberClient.Settings.Value
import EmberClient.Text.LowerCase
import EmberClient.Text.Quoted

/-!
# Settings from values

Reads `ClientSettings` from the values that all layers gave together. A scalar
is read with some freedom: a number or a word such as `yes` is a boolean, a
boolean is a number, every scalar has a text. A section is a table, or a list of
its fields in their order.

A value that does not fit is reported with the path to it. A section that is not
there or has no right shape is reported without.
-/

namespace EmberClient

open Decimal

/-- Why there are no settings. -/
inductive SettingsFault where
  /-- A value of the wrong type: what it is, what should be there, and where. -/
  | wrongType (found expected key : String)
  /-- A section or a list that has not the right shape. -/
  | malformed (text : String)
  /-- The name of an override is no path. -/
  | badPath
  /-- A file is not TOML. -/
  | badFile
  /-- A file that must be there is not. -/
  | missingFile
  deriving DecidableEq

namespace SettingsFault

def message : SettingsFault → Option String
  | .wrongType found expected key =>
    some ("invalid type: " ++ found ++ ", expected " ++ expected ++
      (if key.isEmpty then "" else " for key `" ++ key ++ "`"))
  | .malformed text => some text
  | .badPath | .badFile | .missingFile => none

/-- The fault, seen from the table that holds the value under a name. -/
def within (name : String) : SettingsFault → SettingsFault
  | .wrongType found expected key =>
    let joint := if key.isEmpty || key.startsWith "[" then "" else "."
    .wrongType found expected (name ++ joint ++ key)
  | fault => fault

/-- The fault, seen from the list that holds the value at a position. -/
def atPosition (n : Nat) : SettingsFault → SettingsFault
  | .wrongType found expected key => .wrongType found expected ("[" ++ toString n ++ "]" ++ key)
  | fault => fault

end SettingsFault

/-- What was read, or why it could not be. -/
abbrev Read := Except SettingsFault

namespace Setting

/-! ## Scalars -/

/-- A floating-point number as text, without an exponent. -/
def realLayout : Layout where
  positional := none
  keepsPoint := false
  notANumber := "NaN"
  infinity := "inf"

/-- What a value is called when a scalar should be there. -/
def kindOfScalar : Setting → String
  | .unset => "unit value"
  | .bool b => "boolean `" ++ toString b ++ "`"
  | .int n => "64-bit integer `" ++ JsonNumber.intText n ++ "`"
  | .real x => "floating point `" ++ realLayout.text x ++ "`"
  | .text s => "string " ++ Text.quotedText s
  | .list _ => "sequence"
  | .table _ => "map"

/-- The fault that this value stands where another type should. -/
def wrong {α : Type} (v : Setting) (expected : String) : Read α :=
  .error (.wrongType v.kindOfScalar expected "")

def yesWords : List String := ["true", "on", "yes"]

def noWords : List String := ["false", "off", "no"]

def toBool : Setting → Read Bool
  | .bool b => .ok b
  | .int n => .ok (n ≠ 0)
  | .real x => .ok (!x.isZero)
  | .text s =>
    -- from here on the text is its lower case, in messages too
    let word := Text.lowerText s
    if word = "1" ∨ word ∈ yesWords then .ok true
    else if word = "0" ∨ word ∈ noWords then .ok false
    else wrong (.text word) "a boolean"
  | v => wrong v "a boolean"

/-- The largest unsigned word. -/
def maxWord : Nat := Decimal.twoTo 64 - 1

/-- The whole number nearest to a floating-point number, a half away from zero;
cut off at the ends of the unsigned words. -/
def roundToWord (x : Binary64) : Nat :=
  match x.value with
  | .finite false m e =>
    let (num, den) := Binary64.ratio m e
    min maxWord ((2 * num + den) / (2 * den))
  | .infinite false => maxWord
  | _ => 0

/-- An unsigned word in decimal digits, perhaps after a plus. -/
def wordOfText? (s : String) : Option Nat :=
  let digits :=
    match s.toList with
    | '+' :: rest => rest
    | cs => cs
  if digits.isEmpty || !digits.all Char.isDigit then none
  else
    let n := digits.foldl (fun n c => n * 10 + (c.toNat - '0'.toNat)) 0
    if n ≤ maxWord then some n else none

def toWord : Setting → Read Nat
  | .int n => if n < 0 then wrong (.int n) "an unsigned 64 bit or less integer" else .ok n.toNat
  | .bool b => .ok (if b then 1 else 0)
  | .real x => .ok (roundToWord x)
  | .text s =>
    let word := Text.lowerText s
    if word ∈ yesWords then .ok 1
    else if word ∈ noWords then .ok 0
    else
      match wordOfText? s with
      | some n => .ok n
      | none => wrong (.text s) "an integer"
  | v => wrong v "an integer"

/-- A number that a port can have. -/
def toPort (v : Setting) : Read Nat := do
  let n ← v.toWord
  if n < Decimal.twoTo 16 then return n
  else
    .error (.wrongType ("64-bit unsigned integer `" ++ toString n ++ "`")
      "an unsigned 16 bit integer" "")

def toText : Setting → Read String
  | .text s => .ok s
  | .bool b => .ok (toString b)
  | .int n => .ok (JsonNumber.intText n)
  | .real x => .ok (realLayout.text x)
  | v => wrong v "a string"

/-! ## Lists and sections -/

/-- A floating-point number in a message always has a point. -/
def shownLayout : Layout := { realLayout with keepsPoint := true }

/-- What a value is called when a list or a section should be there. -/
def kindOfSection : Setting → String
  | .unset => "unit value"
  | .bool b => "boolean `" ++ toString b ++ "`"
  | .int n => "integer `" ++ JsonNumber.intText n ++ "`"
  | .real x => "floating point `" ++ shownLayout.text x ++ "`"
  | .text s => "string " ++ Text.quotedText s
  | .list _ => "sequence"
  | .table _ => "map"

/-- The fault that this value stands where a list or a section should. -/
def misshapen {α : Type} (v : Setting) (expected : String) : Read α :=
  .error (.malformed ("invalid type: " ++ v.kindOfSection ++ ", expected " ++ expected))

/-- Reads every item, the first at position `n`. -/
def readItems {α : Type} (read : Setting → Read α) (n : Nat) : List Setting → Read (List α)
  | [] => .ok []
  | v :: rest => do
    let a ← (read v).mapError (.atPosition n)
    let more ← readItems read (n + 1) rest
    return a :: more

def toTexts : Setting → Read (List String)
  | .list items => readItems toText 0 items
  | v => misshapen v "a sequence"

/-- A section: its name in messages and how many fields it has. -/
structure Section where
  name : String
  size : Nat

def Section.expected (s : Section) : String := "struct " ++ s.name

/-- How a list that is too short is described. -/
def Section.lengthText (s : Section) (n : Nat) : String :=
  "invalid length " ++ toString n ++ ", expected " ++ s.expected ++ " with " ++ toString s.size ++
    (if s.size = 1 then " element" else " elements")

/-- Where the fields of a section stand. -/
inductive Fields where
  | named (entries : Entries)
  | listed (items : List Setting)

/-- The fields of a section; a value that holds none is refused. -/
def fieldsOf (s : Section) : Setting → Read Fields
  | .table entries => .ok (.named entries)
  | .list items => .ok (.listed items)
  | v => misshapen v s.expected

/-- Reads a field if it is there. -/
def Fields.read? {α : Type} (fields : Fields) (s : Section) (n : Nat) (name : String)
    (read : Setting → Read α) : Read (Option α) :=
  match fields with
  | .named entries =>
    match Entries.get? name entries with
    | some v => (read v).mapError (.within name) |>.map some
    | none => .ok none
  | .listed items =>
    match items[n]? with
    | some v => (read v).mapError (.atPosition n) |>.map some
    | none => .error (.malformed (s.lengthText n))

/-- A field that must be there. -/
def need {α : Type} (name : String) : Option α → Read α
  | some a => .ok a
  | none => .error (.malformed ("missing field `" ++ name ++ "`"))

def toDebug (v : Setting) : Read DebugSettings := do
  let s : Section := ⟨"DebugConfig", 2⟩
  let fields ← fieldsOf s v
  let enabled ← fields.read? s 0 "enabled" toBool
  let port ← fields.read? s 1 "port" toPort
  return { enabled := ← need "enabled" enabled, port := ← need "port" port }

def toServer (v : Setting) : Read ServerSettings := do
  let s : Section := ⟨"ServerConfig", 4⟩
  let fields ← fieldsOf s v
  let command ← fields.read? s 0 "command" toText
  let args ← fields.read? s 1 "args" toTexts
  let editor ← fields.read? s 2 "editor" toText
  let debug ← fields.read? s 3 "debug" toDebug
  return {
    command := ← need "command" command
    args := ← need "args" args
    editor := ← need "editor" editor
    debug := ← need "debug" debug }

/-- Whether lenses for related files are on. -/
def toLens (v : Setting) : Read Bool := do
  let s : Section := ⟨"CodeLensConfig", 1⟩
  let fields ← fieldsOf s v
  need "related_files" (← fields.read? s 0 "related_files" toBool)

/-- The settings that a table of all values holds. -/
def toClient (v : Setting) : Read ClientSettings := do
  let s : Section := ⟨"ElsConfig", 2⟩
  let fields ← fieldsOf s v
  let relatedFiles ← fields.read? s 0 "code_lens" toLens
  let server ← fields.read? s 1 "server" toServer
  return { relatedFiles := ← need "code_lens" relatedFiles, server := ← need "server" server }

end Setting

end EmberClient
