import EmberClient.Decimal.Power
import EmberClient.Settings.Value
import EmberClient.Text.LowerCase

/-!
# Paths to settings

A path such as `server.args[0]` names a place among nested settings: a name, then
names after points and positions in brackets. `Setting.place` puts a value at a
place and makes what is missing on the way; what stands there and is of the wrong
shape gives way.

Names are not told apart by case, so every name is lowered before it is looked
up. A table that is put over a table is merged into it, entry by entry; every
other value takes the place of what was there.
-/

namespace EmberClient

/-- One step of a path. -/
inductive Segment where
  | child (name : String)
  /-- A position in a list; a negative one counts from the end. -/
  | item (index : Int)
  deriving DecidableEq, Inhabited

/-- A path: its first name, and the steps after it. -/
structure KeyPath where
  first : String
  rest : List Segment
  deriving DecidableEq

namespace KeyPath

/-- A character of a name in a path. -/
def isNameChar (c : Char) : Bool :=
  c.isAlphanum || c = ' ' || c = '_' || c = '-'

def name? (cs : List Char) : Option (String × List Char) :=
  match cs.takeWhile isNameChar with
  | [] => none
  | name => some (String.ofList name, cs.dropWhile isNameChar)

/-- A number within sixty-four signed bits. -/
def inRange? (n : Int) : Option Int :=
  if Decimal.fitsSigned 64 n then some n else none

def isSpace (c : Char) : Bool := c = ' ' || c = '\t'

def digits? (cs : List Char) : Option (Nat × List Char) :=
  match cs.takeWhile Char.isDigit with
  | [] => none
  | ds => some (ds.foldl (fun n c => n * 10 + (c.toNat - '0'.toNat)) 0, cs.dropWhile Char.isDigit)

/-- A position and the bracket that closes it, after the one that opens it. -/
def position? (cs : List Char) : Option (Int × List Char) := do
  let (n, rest) ←
    match cs.dropWhile isSpace with
    | '-' :: rest => (digits? rest).map fun (n, rest) => (-(n : Int), rest)
    | rest => (digits? rest).map fun (n, rest) => ((n : Int), rest)
  let n ← inRange? n
  match rest.dropWhile isSpace with
  | ']' :: rest => return (n, rest)
  | _ => none

/-- The steps after the first name; at most `bound`. -/
def segments? (bound : Nat) (cs : List Char) : Option (List Segment) :=
  match bound, cs with
  | _, [] => some []
  | 0, _ => none
  | bound + 1, '.' :: rest => do
    let (name, rest) ← name? rest
    return .child name :: (← segments? bound rest)
  | bound + 1, '[' :: rest => do
    let (n, rest) ← position? rest
    return .item n :: (← segments? bound rest)
  | _, _ => none

/-- The path that a text is. -/
def ofText? (text : String) : Option KeyPath := do
  let (first, rest) ← name? text.toList
  return { first, rest := ← segments? rest.length rest }

/-- All steps of a path. -/
def segments (path : KeyPath) : List Segment := .child path.first :: path.rest

end KeyPath

/-! ## Putting values in place -/

namespace Setting

mutual

/-- Puts a value under a name of a table; a table is merged into what is there. -/
def assign (target : Setting) (name : String) : Setting → Setting
  | .table incoming =>
    let key := Text.lowerText name
    let old := (Entries.get? key target.entries).getD (.table [])
    .table (Entries.put key (merge old incoming) target.entries)
  | value => .table (Entries.put (Text.lowerText name) value target.entries)

/-- Merges entries into a table. What is no table gives way to one, unless there
is nothing to merge. -/
def merge (target : Setting) : List (String × Setting) → Setting
  | [] => target
  | (name, value) :: rest => merge (assign target name value) rest

end

/-- The position that an index means in a list of this length. -/
def position (index : Int) (length : Nat) : Nat :=
  if 0 ≤ index then index.toNat else ((length : Int) + index).toNat

/-- The items of a list; anything else has none. -/
def items : Setting → List Setting
  | .list items => items
  | _ => []

/-- Changes the item at a position, after filling up the list to it. -/
def editItem (edit : Setting → Setting) (index : Int) (items : List Setting) : List Setting :=
  let n := position index items.length
  (items ++ List.replicate (n + 1 - items.length) Setting.unset).modify n edit

/-- Puts a value at the place that steps lead to. -/
def place (target : Setting) (steps : List Segment) (value : Setting) : Setting :=
  match steps with
  | [] => value
  | [.child name] => target.assign name value
  | .child name :: more =>
    let key := Text.lowerText name
    let inner := (Entries.get? key target.entries).getD .unset
    .table (Entries.put key (place inner more value) target.entries)
  | .item index :: more =>
    .list (editItem (fun inner => place inner more value) index target.items)

end Setting

end EmberClient
