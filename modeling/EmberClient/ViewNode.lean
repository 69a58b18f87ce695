import EmberClient.Json.Record
import EmberClient.Path.Spelling

/-!
# Nodes of the tree views

Two views list files beside the editor: the related files of a document, shown
by file name, and the usages of its entity, shown by the name of what uses it.
Both are flat. A click on a node opens its path, which is always the normalized
one, so equal paths in different spellings make equal nodes.
-/

namespace EmberClient

/-- A leaf of a view. -/
structure ViewNode where
  label : String
  description : String
  tooltip : String
  /-- Which of the two views the node belongs to; menus depend on it. -/
  contextValue : String
  path : String
  deriving DecidableEq

/-- One use of an entity, as the server reports it. -/
structure Usage where
  name : String
  type : String
  path : String
  deriving DecidableEq

open Json in
/-- Reads one usage. -/
def Usage.ofJson? (v : Json) : Option Usage := do
  match ← v.fields? [("name", .required), ("type", .required), ("path", .required)] with
  | [some name, some type, some path] =>
    return { name := ← name.string?, type := ← type.string?, path := ← path.string? }
  | _ => none

/-- Reads a list of usages. -/
def Usage.listOfJson? (v : Json) : Option (List Usage) :=
  v.decodeList ofJson?

namespace ViewNode

/-- A related file, by its name. -/
def ofPath (path : String) : ViewNode :=
  let path := Path.normalize path
  let label := Path.fileName path
  { label, description := path, tooltip := label ++ "-" ++ path, contextValue := "file", path }

/-- A usage, by the name of what uses the entity. -/
def ofUsage (usage : Usage) : ViewNode :=
  let path := Path.normalize usage.path
  { label := usage.name, description := usage.type, tooltip := path, contextValue := "usage",
    path }

/-- The related files of a document. -/
def relatedFiles (paths : List String) : List ViewNode := paths.map ofPath

/-- The usages of an entity. -/
def usages (entries : List Usage) : List ViewNode := entries.map ofUsage

end ViewNode

end EmberClient
