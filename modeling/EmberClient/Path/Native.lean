import EmberClient.Text.Utf8

/-!
# Paths of the operating system

To the operating system a path is bytes with slashes between names. A path is
read as its `components`: names, and steps to the parent; empty pieces and single
dots say nothing, except a dot at the front of a relative path.
-/

namespace EmberClient.Path

open Text

/-- The byte of a slash. -/
def slash : UInt8 := 47

/-- Splits bytes at every slash. -/
def pieces : Bytes → List Bytes
  | [] => [[]]
  | b :: rest =>
    match pieces rest with
    | [] => [[b]]
    | piece :: more => if b = slash then [] :: piece :: more else (b :: piece) :: more

def dot : Bytes := [46]

def dotDot : Bytes := [46, 46]

def isAbsolute (path : Bytes) : Bool := path.head? = some slash

/-- The names of a path, and `..` where it goes to the parent. -/
def components (path : Bytes) : List Bytes :=
  let names := (pieces path).filter fun p => !p.isEmpty && p ≠ dot
  if !isAbsolute path && (pieces path).head? = some dot then dot :: names else names

/-- The last name of a path; none if it ends at the parent or at the root. -/
def lastName? (path : Bytes) : Option Bytes :=
  match (components path).getLast? with
  | some name => if name = dot ∨ name = dotDot then none else some name
  | none => none

/-- A path below another one; an absolute path stands for itself. -/
def join (base path : Bytes) : Bytes :=
  if isAbsolute path then path
  else if base.isEmpty || base.getLast? = some slash then base ++ path
  else base ++ [slash] ++ path

/-- A path below another one, as text. -/
def joinText (base path : String) : String :=
  if path.startsWith "/" then path
  else if base.isEmpty || base.endsWith "/" then base ++ path
  else base ++ "/" ++ path

end EmberClient.Path
