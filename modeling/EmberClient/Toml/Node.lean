import EmberClient.Settings.Value

/-!
# Tables of a TOML document under construction

A document names its tables in headers and in dotted names, and which of these
may add to a table depends on how the table came about. A `Node` keeps that;
`Node.toSetting` forgets it once the document is complete.

* A table that a header or braces defined is complete as far as dotted names and
  other headers go: neither may name it again as its own.
* A table that only stands on the way to another table may still get a header.
* A table made by dotted names may get more dotted names, but no header.
* Of a list of tables the last one is meant.
-/

namespace EmberClient.Toml

/-- How a table came about. -/
inductive Origin where
  /-- By its header or its braces. -/
  | defined
  /-- On the way to a table with a header. -/
  | passed
  /-- By a dotted name. -/
  | dotted
  deriving DecidableEq

inductive Node where
  | value (v : Setting)
  | table (origin : Origin) (nodes : List (String × Node))
  | tables (items : List (List (String × Node)))

/-- The nodes of a table, by name. -/
abbrev Nodes := List (String × Node)

namespace Nodes

def get? (name : String) (nodes : Nodes) : Option Node :=
  (nodes.find? fun (n, _) => n = name).map (·.2)

/-- Puts a node under a name: at its place if there is one, else at the end. -/
def put (name : String) (node : Node) : Nodes → Nodes
  | [] => [(name, node)]
  | (n, v) :: rest => if n = name then (n, node) :: rest else (n, v) :: put name node rest

/-- A change to a table that may be refused. -/
abbrev Edit := Origin → Nodes → Option Nodes

/-- Makes a change to the last table of a list. -/
def editLast (edit : Nodes → Option Nodes) : List Nodes → Option (List Nodes)
  | [] => none
  | [nodes] => (edit nodes).map ([·])
  | nodes :: rest => (editLast edit rest).map (nodes :: ·)

/-- Makes a change to the table at the end of a path, making the tables on the
way that are not there. Along a dotted name no defined table is entered. -/
def descend (dotted : Bool) (edit : Edit) : List String → Edit
  | [], origin, nodes => edit origin nodes
  | name :: path, _, nodes =>
    match nodes.get? name with
    | none =>
      let origin := if dotted then Origin.dotted else .passed
      (descend dotted edit path origin []).map fun inner => nodes.put name (.table origin inner)
    | some (.value _) => none
    | some (.tables items) =>
      (editLast (descend dotted edit path .defined) items).map fun items =>
        nodes.put name (.tables items)
    | some (.table origin inner) =>
      if dotted ∧ origin = .defined then none
      else
        (descend dotted edit path origin inner).map fun inner => nodes.put name (.table origin inner)

/-- Puts a value into a table, under a name that is free. Through a dotted name
only tables of dotted names get values. -/
def putValue (isDotted : Bool) (name : String) (v : Setting) : Edit := fun origin nodes =>
  if isDotted ∧ origin ≠ .dotted then none
  else
    match nodes.get? name with
    | some _ => none
    | none => some (nodes.put name (.value v))

/-- Puts a value under a dotted name. -/
def assign (path : List String) (name : String) (v : Setting) : Edit :=
  descend true (putValue (!path.isEmpty) name v) path

/-- Defines a table by its header. -/
def define (name : String) : Edit := fun _ nodes =>
  match nodes.get? name with
  | none => some (nodes.put name (.table .defined []))
  | some (.table .passed inner) => some (nodes.put name (.table .defined inner))
  | some _ => none

/-- Adds a table to a list of tables by its header. -/
def append (name : String) : Edit := fun _ nodes =>
  match nodes.get? name with
  | none => some (nodes.put name (.tables [[]]))
  | some (.tables items) => some (nodes.put name (.tables (items ++ [[]])))
  | some _ => none

end Nodes

mutual

/-- The value that a complete node is. -/
def Node.toSetting : Node → Setting
  | .value v => v
  | .table _ nodes => .table (entriesOf nodes)
  | .tables items => .list (tablesOf items)

def entriesOf : List (String × Node) → List (String × Setting)
  | [] => []
  | (name, node) :: rest => (name, node.toSetting) :: entriesOf rest

def tablesOf : List (List (String × Node)) → List Setting
  | [] => []
  | nodes :: rest => .table (entriesOf nodes) :: tablesOf rest

end

end EmberClient.Toml
