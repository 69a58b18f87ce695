import EmberClient.RelatedFile.Basic
import EmberClient.Path.Spelling
import EmberClient.Text.Blank
import EmberClient.Text.Search

/-!
# Labels of related files

Every related file of a document gets a short label: what it is within the
entity that the document belongs to. The label of the document itself stands
between underscores.

A list of one element is the document alone, so it gets no label. Every longer
list gives one entry per element, in the order of the list.
-/

namespace EmberClient.RelatedFile

open Text

/-- A label and the path that it stands for. -/
structure Entry where
  label : String
  path : String
  deriving DecidableEq

/-- Marks the label of the open document. -/
def marked (active : Bool) (label : String) : String :=
  if active then "_" ++ label ++ "_" else label

/-! ## Structured files -/

/-- Where a file stands, and what it does there. A file under `/app/` of an addon
is exported to the application. The dummy application under `tests` hosts the
addon, so a test in it counts as a script. -/
def placement (path : String) (info : FileMeta) : String × FileKind :=
  if info.scope = .addon && contains path "/app/" then ("addon-app", info.kind)
  else if contains path "/tests/dummy/" then
    ("dummy-app", if info.kind = .test then .script else info.kind)
  else (info.scope.name, info.kind)

/-- The full label: the place, the type for files on a route's path, the kind. -/
def fullLabel (path : String) (info : FileMeta) : String :=
  let (scope, kind) := placement path info
  if info.type.isRoutePath then scope ++ ":" ++ info.type.name ++ ":" ++ kind.name
  else scope ++ ":" ++ kind.name

/-- What every label leaves out: the application as the usual place, and a
template's kind after its type. -/
def withoutUsual (label : String) : String :=
  replaceFirst (replaceFirst label "application:" "") "template:template" "template"

/-- Leaves out the type of a file that the document shares, unless it is on a
route's path, and writes a script by its type alone. -/
def withoutType (activeInfo : Option FileMeta) (type : EntityType) (label : String) : String :=
  let shared := !type.isRoutePath && (activeInfo.map (·.type)) = some type
  let label := if shared then replaceFirst label (type.name ++ ":") "" else label
  -- the type of a file that the document shares is gone by now
  replaceFirst label (type.name ++ ":script") type.name

def structuredLabel (path : String) (info : FileMeta) (activeInfo : Option FileMeta)
    (active : Bool) : String :=
  let label := fullLabel (Path.normalize path) info
  trim (marked active (withoutType activeInfo info.type (withoutUsual label)))

/-! ## Bare paths -/

/-- What a file does, by the end of its name and the folders on its path. -/
def legacyKind (path : String) : String :=
  let byName :=
    if [".css", ".less", ".scss"].any (endsWith path) then "style"
    else if endsWith path ".hbs" then "template"
    else "script"
  if contains path "/components/" then byName
  else if contains path "/routes/" then "route"
  else if contains path "/controllers/" then "controller"
  else byName

/-- A label that is not the document's stands between two blanks. -/
def legacyLabel (path : String) (active : Bool) : String :=
  let path := Path.normalize path
  let kind := legacyKind path
  let placed := if contains path "/addon/" then "addon:" ++ kind else kind
  let tested :=
    if contains path "/tests/" then
      if placed = "script" ∨ placed = "template" then "test" else placed ++ ":test"
    else placed
  if active then marked true tested else " " ++ tested ++ " "

/-! ## The whole list -/

/-- What the server says about the open document: the meta of the first element
that is the document, if it has one. -/
def activeInfo? (active : String) (files : List RelatedFile) : Option FileMeta :=
  (files.find? fun f => Path.same f.path active).bind info?

/-- The label of one file beside the open document. -/
def label (active : String) (activeInfo : Option FileMeta) (file : RelatedFile) : String :=
  let isActive := Path.same file.path active
  match file with
  | .structured path info => structuredLabel path info activeInfo isActive
  | .legacy path => legacyLabel path isActive

/-- Labels every file of a list of at least two. -/
def classify (active : String) (files : List RelatedFile) : List Entry :=
  if files.length = 1 then []
  else
    let activeInfo := activeInfo? active files
    files.map fun file => { label := label active activeInfo file, path := file.path }

end EmberClient.RelatedFile
