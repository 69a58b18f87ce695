import EmberClient.FileSystem.Tree
import EmberClient.Settings.Decode
import EmberClient.Settings.KeyPath
import EmberClient.Toml.Document

/-!
# Layers of configuration

Settings come from layers: the defaults first, then files, each over the ones
before it, then overrides of single settings. The layers are put together as
values; only the outcome is read as settings, so a layer that gives a setting a
wrong value does no harm when a later one gives it a right one.

A file that is not there under its path is looked for with the extension of TOML
added to it. What is not text counts as not there.
-/

namespace EmberClient

open Text

/-- A file with settings. -/
inductive Layer where
  /-- A file that must be there. -/
  | file (path : String)
  /-- A file that may be missing. -/
  | optionalFile (path : String)
  /-- The file of a workspace, which may be missing. -/
  | workspace (root : String)
  deriving DecidableEq

namespace Layer

/-- The name of the file of a workspace. -/
def workspaceFile : String := ".els.toml"

def path : Layer → String
  | .file p => p
  | .optionalFile p => p
  | .workspace root => Path.joinText root workspaceFile

def isRequired : Layer → Bool
  | .file _ => true
  | _ => false

end Layer

/-! ## Files -/

namespace SettingsFile

/-- A path with the extension of TOML after its last name. -/
def extended (path : Bytes) : Bytes :=
  match Path.lastName? path with
  | none => path
  | some _ =>
    let names := (Path.pieces path).reverse.dropWhile fun p => p = [] || p = Path.dot
    [Path.slash].intercalate names.reverse ++ utf8 ".toml"

/-- The three bytes of a byte order mark. -/
def byteOrderMark : Bytes := [0xEF, 0xBB, 0xBF]

def withoutMark (content : Bytes) : Bytes :=
  if byteOrderMark.isPrefixOf content then content.drop byteOrderMark.length else content

/-- The text of a file, if it is there and is text. -/
def text? (system : FileSystem) (path : Bytes) : Option String := do
  let found ←
    if system.isFile path then some path
    else if system.isFile (extended path) then some (extended path)
    else none
  let content ← (system.content found).toOption
  ofUtf8? (withoutMark content)

end SettingsFile

/-- The entries of a layer; none if it is missing and may be. -/
def Layer.read (system : FileSystem) (layer : Layer) : Read Entries :=
  match SettingsFile.text? system (utf8 layer.path) with
  | none => if layer.isRequired then .error .missingFile else .ok []
  | some text =>
    match Toml.read? text with
    | some entries => .ok entries
    | none => .error .badFile

/-! ## Putting layers together -/

/-- Puts one entry of a layer over what is there. Its name is a path if it can be
read as one, and else a plain name. -/
def Setting.applyEntry (root : Setting) (entry : String × Setting) : Setting :=
  match KeyPath.ofText? entry.1 with
  | some path => root.place path.segments entry.2
  | none => root.assign entry.1 entry.2

/-- Puts a layer over what is there. -/
def Setting.applyLayer (root : Setting) (entries : Entries) : Setting :=
  entries.foldl Setting.applyEntry root

/-- The settings that hold where no layer says otherwise. -/
def Setting.defaults : Setting :=
  .table [
    ("code_lens", .table [("related_files", .bool true)]),
    ("server", .table [
      ("command", .text "node"),
      ("args", .list [
        .text "node_modules/@lifeart/ember-language-server/lib/start-server.js", .text "--stdio"]),
      ("editor", .text "vscode"),
      ("debug", .table [("enabled", .bool false), ("port", .int 6004)])])]

/-- An override of one setting. -/
structure Override where
  path : KeyPath
  value : Setting

namespace Override

/-- Adds an override; an earlier one of the same path gives way. -/
def add (o : Override) : List Override → List Override
  | [] => [o]
  | p :: rest => if p.path = o.path then o :: rest else p :: add o rest

end Override

/-- The value that layers and overrides give together. -/
def Setting.combine (layers : List Entries) (overrides : List Override) : Setting :=
  let root := layers.foldl Setting.applyLayer .defaults
  overrides.foldl (fun root o => root.place o.path.segments o.value) root

/-! ## The loader -/

/-- What a loader has been told: layers in their order, and overrides. -/
structure Loader where
  layers : List Layer := []
  overrides : List Override := []

namespace Loader

/-- One call on a loader. -/
inductive Call where
  | layer (layer : Layer)
  | override (name : String) (value : Setting)

/-- Carries out a call. An override without a path is refused at once; files are
not looked at. -/
def call (loader : Loader) : Call → Read Loader
  | .layer layer => .ok { loader with layers := loader.layers ++ [layer] }
  | .override name value =>
    match KeyPath.ofText? name with
    | some path => .ok { loader with overrides := Override.add ⟨path, value⟩ loader.overrides }
    | none => .error .badPath

/-- The loader after calls, layers and overrides in any order. -/
def ofCalls (calls : List Call) : Read Loader := calls.foldlM call {}

/-- The settings that layers and overrides give together. The first layer that
cannot be read is found before a value that does not fit. -/
def build (system : FileSystem) (loader : Loader) : Read ClientSettings := do
  let layers ← loader.layers.mapM (Layer.read system)
  (Setting.combine layers loader.overrides).toClient

end Loader

/-- The settings that these layers and overrides give. -/
def ClientSettings.load (system : FileSystem) (layers : List Layer)
    (overrides : List (String × Setting)) : Read ClientSettings := do
  let loader ← Loader.ofCalls
    (layers.map .layer ++ overrides.map fun (name, value) => .override name value)
  loader.build system

end EmberClient
