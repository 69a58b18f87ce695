import EmberClient.Lens
import EmberClient.Session.Dispatch
import EmberClient.ViewNode

/-!
# Lenses and views

What the editor shows of a document comes from the server each time it is asked
for; nothing is kept. An answer that fails or has not the shape of a list is an
empty list.
-/

namespace EmberClient.Session.View

/-- Asks the current server for a list. -/
def list {α : Type} (decode : Json → Option (List α)) (command : String)
    (arguments : List Json) : Prog (List α) := do
  match ← Dispatch.executeOnServer command arguments with
  | .ok answer => return (decode answer).getD []
  | .error _ => return []

/-- The lenses of a document; none at all if nobody needs them any more. -/
def lenses (document : String) : Prog (Option (List Lens)) := do
  let files ← list RelatedFile.listOfJson? Command.getRelatedFiles
    [.str document, .object [("includeMeta", .bool true)]]
  if ← ask .cancelled then return none
  else return some (Lens.ofRelatedFiles document files)

/-- The related files of a document. -/
def relatedFiles (document : String) : Prog (List ViewNode) := do
  let files ← list RelatedFile.listOfJson? Command.getRelatedFiles [.str document]
  return ViewNode.relatedFiles (files.map RelatedFile.path)

/-- The usages of the entity of a document. -/
def kindUsages (document : String) : Prog (List ViewNode) := do
  return ViewNode.usages (← list Usage.listOfJson? Command.getKindUsages [.str document])

/-! ## What the views follow -/

/-- The document that the usages are of, and how often the views were told to
read again. -/
structure Follower where
  active : Option String := none
  generation : Nat := 0

namespace Follower

/-- Tells the views to read again. -/
def refresh (f : Follower) : Follower := { f with generation := f.generation + 1 }

/-- The editor shows another document; when it shows none, the views stay as they
were. -/
def editorChanged (f : Follower) : Option String → Follower
  | some document => { f with active := some document }.refresh
  | none => f

/-- The usages of the entity of the document that was last active. -/
def children (f : Follower) : Prog (List ViewNode) :=
  match f.active with
  | some document => kindUsages document
  | none => return []

end Follower

end EmberClient.Session.View
