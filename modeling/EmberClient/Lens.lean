import EmberClient.Command.Name
import EmberClient.Json.Basic
import EmberClient.RelatedFile.Label

/-!
# Lenses

A lens stands at the top of a document and opens one related file when it is
clicked. Its title is the label of the file; the protocol has no place for a
tooltip, so that travels beside the command as data.
-/

namespace EmberClient

structure Lens where
  title : String
  tooltip : String
  path : String
  deriving DecidableEq

namespace Lens

/-- The lens of a labelled file. -/
def ofEntry (entry : RelatedFile.Entry) : Lens :=
  { title := entry.label, tooltip := "Ember: " ++ entry.path, path := entry.path }

/-- The command and the arguments that a click runs. -/
def command (lens : Lens) : String × List Json :=
  (Command.openRelatedFile, [.str lens.path])

/-- The lens as the protocol writes it: at the first character of the document. -/
def toJson (lens : Lens) : Json :=
  let origin := Json.object [("line", .ofNat 0), ("character", .ofNat 0)]
  let (name, arguments) := lens.command
  .object [
    ("range", .object [("start", origin), ("end", origin)]),
    ("command", .object [
      ("title", .str lens.title), ("command", .str name), ("arguments", .arr arguments)]),
    ("data", .object [("tooltip", .str lens.tooltip)])]

/-- The lenses of a document, one per related file. -/
def ofRelatedFiles (document : String) (files : List RelatedFile) : List Lens :=
  (RelatedFile.classify document files).map ofEntry

end Lens

end EmberClient
