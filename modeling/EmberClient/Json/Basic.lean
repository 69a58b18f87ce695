import EmberClient.Decimal.Binary64
import EmberClient.Decimal.Power

/-!
# JSON values

`Json` is a document as it was written: the members of an object stand in their
order, and one key may stand twice. Where only the value counts, `canonical`
gives the representative of all documents of that value: keys sorted, of two
members with one key the last kept. Records are decoded from the document, where
a key that stands twice can still be told; everything that is passed through is
made canonical first.
-/

namespace EmberClient

/-- A JSON number: a whole number within sixty-four bits, or a floating-point
number for every other literal. -/
inductive JsonNumber where
  | int (value : Int)
  | real (value : Decimal.Binary64)
  deriving DecidableEq, Inhabited

/-- A JSON document. -/
inductive Json where
  | null
  | bool (value : Bool)
  | num (value : JsonNumber)
  | str (value : String)
  | arr (items : List Json)
  | obj (members : List (String × Json))
  deriving Inhabited

namespace Json

/-- A whole number. -/
def ofInt (n : Int) : Json := .num (.int n)

/-- A natural number. -/
def ofNat (n : Nat) : Json := .num (.int n)

/-- A text or null. -/
def ofString? : Option String → Json
  | some s => .str s
  | none => .null

/-- An optional value, null when there is none. -/
def ofOption : Option Json → Json
  | some v => v
  | none => .null

/-! ## The value of a document -/

/-- Puts a member at its place in sorted members, over one with the same key. -/
def insertMember (key : String) (value : Json) : List (String × Json) → List (String × Json)
  | [] => [(key, value)]
  | (k, v) :: rest =>
    if key < k then (key, value) :: (k, v) :: rest
    else if key = k then (key, value) :: rest
    else (k, v) :: insertMember key value rest

/-- Sorts members by key; of several with one key the last stays. -/
def sortMembers (members : List (String × Json)) : List (String × Json) :=
  members.foldl (fun sorted (k, v) => insertMember k v sorted) []

mutual

/-- The representative of all documents with this value. -/
def canonical : Json → Json
  | .arr items => .arr (canonicalItems items)
  | .obj members => .obj (sortMembers (canonicalMembers members))
  | v => v

def canonicalItems : List Json → List Json
  | [] => []
  | v :: rest => canonical v :: canonicalItems rest

def canonicalMembers : List (String × Json) → List (String × Json)
  | [] => []
  | (k, v) :: rest => (k, canonical v) :: canonicalMembers rest

end

/-- An object with these members, in canonical order. -/
def object (members : List (String × Json)) : Json := .obj (sortMembers members)

/-! ## Looking inside -/

/-- The values that stand under a key. -/
def valuesAt (key : String) (members : List (String × Json)) : List Json :=
  members.filterMap fun (k, v) => if k = key then some v else none

/-- The value of a member; of several the last. -/
def member? (key : String) : Json → Option Json
  | .obj members => (valuesAt key members).getLast?
  | _ => none

def isNull : Json → Bool
  | .null => true
  | _ => false

def string? : Json → Option String
  | .str s => some s
  | _ => none

def items? : Json → Option (List Json)
  | .arr items => some items
  | _ => none

def bool? : Json → Option Bool
  | .bool b => some b
  | _ => none

/-- The whole number that a literal within sixty-four bits denotes. -/
def int? : Json → Option Int
  | .num (.int n) => some n
  | _ => none

/-- The number as an unsigned word. -/
def word? : Json → Option UInt64
  | .num (.int n) => if Decimal.fitsUnsigned 64 n then some (UInt64.ofNat n.toNat) else none
  | _ => none

end Json

end EmberClient
