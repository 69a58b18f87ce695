/-!
# What the editor shows

The workspace as the editor reports it: the root, the folders, the document that
is open. Callbacks are told where they were called from by one path, the most
specific of the three that is known.
-/

namespace EmberClient

structure EditorView where
  root : Option String := none
  folders : List String := []
  active : Option String := none
  deriving Inhabited

/-- The open document if there is one, else the first folder, else the root. -/
def EditorView.contextPath (v : EditorView) : Option String :=
  v.active.or (v.folders.head?.or v.root)

end EmberClient
