import EmberClient.Toml.Moment
import EmberClient.Toml.Node
import EmberClient.Toml.Number

/-!
# TOML documents

A document is lines: a value under a name, or a header that says to which table
the lines after it belong. `statements?` reads the lines, `build?` puts them
together, and `read?` does both. A document that is refused at any place is
refused as a whole.

The recursion of the reading functions is on a bound that `read?` sets to the
number of characters; each nested call has consumed one.
-/

namespace EmberClient.Toml

/-! ## Values -/

/-- The rest after a fixed word. -/
def afterWord? (word : String) (cs : List Char) : Option (List Char) :=
  if word.toList.isPrefixOf cs then some (cs.drop word.length) else none

/-- The table that braces hold. -/
def inlineTable? (assignments : List ((List String × String) × Setting)) : Option Setting :=
  (assignments.foldlM (fun nodes ((path, name), v) => Nodes.assign path name v .defined nodes) []).map
    fun nodes => .table (entriesOf nodes)

mutual

/-- A value, no blank before it. Lists and tables nest at most `depth` deep. -/
def value? (bound depth : Nat) (cs : List Char) : Option (Setting × List Char) :=
  match bound with
  | 0 => none
  | bound + 1 =>
    match cs with
    | [] => none
    | '[' :: rest =>
      match depth with
      | 0 => none
      | depth + 1 =>
        (items? bound depth (skipLines cs.length rest)).map fun (vs, rest) => (.list vs, rest)
    | '{' :: rest =>
      match depth with
      | 0 => none
      | depth + 1 =>
        match skipBlank rest with
        | '}' :: rest => some (.table [], rest)
        | _ => do
          let (assignments, rest) ← assignments? bound depth rest
          let table ← inlineTable? assignments
          return (table, rest)
    | 't' :: _ => (afterWord? "true" cs).map (Setting.bool true, ·)
    | 'f' :: _ => (afterWord? "false" cs).map (Setting.bool false, ·)
    | c :: _ =>
      if c = '"' ∨ c = '\'' then (string? cs).map fun (s, rest) => (.text s, rest)
      else
        match moment? cs with
        | some (s, rest) => some (.text s, rest)
        | none => number? cs

/-- The items of a list up to its bracket, which a comma may precede. -/
def items? (bound depth : Nat) (cs : List Char) : Option (List Setting × List Char) :=
  match bound with
  | 0 => none
  | bound + 1 =>
    match cs with
    | ']' :: rest => some ([], rest)
    | _ => do
      let (v, rest) ← value? bound depth cs
      match skipLines rest.length rest with
      | ']' :: rest => return ([v], rest)
      | ',' :: rest =>
        let (vs, rest) ← items? bound depth (skipLines rest.length rest)
        return (v :: vs, rest)
      | _ => none

/-- The names and values between braces, up to the closing one. -/
def assignments? (bound depth : Nat) (cs : List Char) :
    Option (List ((List String × String) × Setting) × List Char) :=
  match bound with
  | 0 => none
  | bound + 1 => do
    let (path, rest) ← path? cs
    let rest ← after? '=' rest
    let (v, rest) ← value? bound depth (skipBlank rest)
    match skipBlank rest with
    | '}' :: rest => return ([(path, v)], rest)
    | ',' :: rest =>
      let (more, rest) ← assignments? bound depth rest
      return ((path, v) :: more, rest)
    | _ => none

end

/-! ## Lines -/

/-- A line of a document. -/
inductive Statement where
  | assign (path : List String) (name : String) (v : Setting)
  | header (path : List String) (name : String)
  | listHeader (path : List String) (name : String)

/-- A header, after its first bracket. -/
def header? (cs : List Char) : Option (Statement × List Char) :=
  match cs with
  | '[' :: rest => do
    let ((path, name), rest) ← path? rest
    let rest ← after? ']' rest
    let rest ← after? ']' rest
    return (.listHeader path name, rest)
  | _ => do
    let ((path, name), rest) ← path? cs
    let rest ← after? ']' rest
    return (.header path name, rest)

/-- A name and its value. -/
def assignment? (bound : Nat) (cs : List Char) : Option (Statement × List Char) := do
  let ((path, name), rest) ← path? cs
  let rest ← after? '=' rest
  let (v, rest) ← value? bound maxDepth (skipBlank rest)
  return (.assign path name v, rest)

/-- The lines of a document. -/
def statements? (bound : Nat) (cs : List Char) : Option (List Statement) :=
  match bound with
  | 0 => none
  | bound + 1 =>
    match skipBlank cs with
    | [] => some []
    | '\n' :: rest => statements? bound rest
    | '\r' :: '\n' :: rest => statements? bound rest
    | '#' :: rest => do statements? bound (← endOfLine? ('#' :: rest))
    | '[' :: rest => do
      let (statement, rest) ← header? rest
      let more ← statements? bound (← endOfLine? rest)
      return statement :: more
    | rest => do
      let (statement, rest) ← assignment? (bound + 1) rest
      let more ← statements? bound (← endOfLine? rest)
      return statement :: more

/-! ## Documents -/

/-- A document so far, and the table that values go to. -/
structure Draft where
  nodes : Nodes
  current : List String

/-- Adds a line. -/
def Draft.add? (draft : Draft) : Statement → Option Draft
  | .assign path name v =>
    (Nodes.descend false (Nodes.assign path name v) draft.current .defined draft.nodes).map
      fun nodes => { draft with nodes }
  | .header path name =>
    (Nodes.descend false (Nodes.define name) path .defined draft.nodes).map
      fun nodes => { nodes, current := path ++ [name] }
  | .listHeader path name =>
    (Nodes.descend false (Nodes.append name) path .defined draft.nodes).map
      fun nodes => { nodes, current := path ++ [name] }

/-- The tables that lines make. -/
def build? (statements : List Statement) : Option Entries :=
  (statements.foldlM Draft.add? { nodes := [], current := [] }).map
    fun draft => entriesOf draft.nodes

/-- The entries of a document. -/
def read? (text : String) : Option Entries := do
  let cs := text.toList
  let statements ← statements? (cs.length + 1) cs
  build? statements

end EmberClient.Toml
