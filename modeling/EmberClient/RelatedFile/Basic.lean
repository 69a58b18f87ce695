import EmberClient.Json.Record

/-!
# Related files

The server lists the files that belong to the same entity as the open document:
its template, its test, the file that exports it again from an addon. A newer
server says of each what it is (`FileMeta`), an older one sends bare paths.

Which of the two an element is, is decided when the answer is decoded, element
by element: an object whose meta is not understood counts as a bare path, and
the elements beside it are not affected. An element that is neither a text nor
an object with a text `path` makes the whole answer unreadable.
-/

namespace EmberClient

/-- What kind of entity of the framework a file belongs to. -/
inductive EntityType where
  | helper | service | route | controller | modifier | template
  | component | model | transform | adapter | serializer
  deriving DecidableEq, Inhabited

namespace EntityType

def all : List EntityType :=
  [.helper, .service, .route, .controller, .modifier, .template,
   .component, .model, .transform, .adapter, .serializer]

def name : EntityType → String
  | .helper => "helper"
  | .service => "service"
  | .route => "route"
  | .controller => "controller"
  | .modifier => "modifier"
  | .template => "template"
  | .component => "component"
  | .model => "model"
  | .transform => "transform"
  | .adapter => "adapter"
  | .serializer => "serializer"

/-- Files on a route's path keep their type in the label. -/
def isRoutePath : EntityType → Bool
  | .route | .controller | .template => true
  | _ => false

def ofName? (name : String) : Option EntityType :=
  all.find? fun t => t.name = name

end EntityType

/-- Whether a file belongs to an addon or to the application. -/
inductive FileScope where
  | addon | application
  deriving DecidableEq, Inhabited

namespace FileScope

def name : FileScope → String
  | .addon => "addon"
  | .application => "application"

def ofName? (name : String) : Option FileScope :=
  [addon, application].find? fun s => s.name = name

end FileScope

/-- What a file does for its entity. -/
inductive FileKind where
  | test | script | template | style
  deriving DecidableEq, Inhabited

namespace FileKind

def name : FileKind → String
  | .test => "test"
  | .script => "script"
  | .template => "template"
  | .style => "style"

def ofName? (name : String) : Option FileKind :=
  [test, script, template, style].find? fun k => k.name = name

end FileKind

/-- What the server says about a related file. -/
structure FileMeta where
  type : EntityType
  name : String
  scope : FileScope
  kind : FileKind
  deriving DecidableEq, Inhabited

/-- One element of the server's answer. -/
inductive RelatedFile where
  | legacy (path : String)
  | structured (path : String) (info : FileMeta)
  deriving DecidableEq, Inhabited

namespace RelatedFile

def path : RelatedFile → String
  | .legacy path => path
  | .structured path _ => path

def info? : RelatedFile → Option FileMeta
  | .legacy _ => none
  | .structured _ info => some info

end RelatedFile

/-! ## Decoding the answer -/

open Json in
/-- Reads a file's meta. -/
def FileMeta.ofJson? (v : Json) : Option FileMeta := do
  match ← v.fields? [("type", .required), ("name", .required), ("scope", .required),
      ("kind", .required)] with
  | [some type, some name, some scope, some kind] =>
    return {
      type := ← EntityType.ofName? (← variantName? type)
      name := ← name.string?
      scope := ← FileScope.ofName? (← variantName? scope)
      kind := ← FileKind.ofName? (← variantName? kind) }
  | _ => none

namespace RelatedFile

open Json in
/-- An object with a text `path` and, if it has a `meta`, one that is
understood. -/
def ofObject? (v : Json) : Option RelatedFile := do
  match ← v.objectFields? [("path", .required), ("meta", .optional)] with
  | [some path, info] =>
    let path ← path.string?
    match ← decodeOption FileMeta.ofJson? info with
    | some info => return .structured path info
    | none => return .legacy path
  | _ => none

open Json in
/-- An object with a text `path`, whatever else it holds. -/
def ofPathOnly? (v : Json) : Option RelatedFile := do
  match ← v.objectFields? [("path", .required)] with
  | [some path] => return .legacy (← path.string?)
  | _ => none

/-- Reads one element: the first of the three forms that fits. -/
def ofJson? : Json → Option RelatedFile
  | .str path => some (.legacy path)
  | v => (ofObject? v).or (ofPathOnly? v)

/-- Reads the whole answer. -/
def listOfJson? (v : Json) : Option (List RelatedFile) :=
  v.decodeList ofJson?

end RelatedFile

end EmberClient
