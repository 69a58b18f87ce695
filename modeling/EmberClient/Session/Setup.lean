import EmberClient.Session.Initialize
import EmberClient.Settings.Client
import EmberClient.Uri.FilePath

/-!
# The handshake

A session works on one workspace with one set of settings. From them come the
parameters of the first request to a server; the answer to it, read as the
session reads such answers, tells which commands the server runs.
-/

namespace EmberClient

open Text

/-- What a session is set up with. -/
structure Setup where
  settings : ClientSettings
  /-- The root of the workspace. -/
  root : String
  /-- The number of the client's process, by which a server can watch it. -/
  processId : Nat
  /-- How the answer to the first request is read. -/
  reader : InitializeReader := .outlined

namespace Setup

/-- The name of the workspace: the last name of its root. -/
def workspaceName (s : Setup) : String :=
  ((Path.lastName? (utf8 s.root)).map ofUtf8Lossy).getD ""

/-- The options that are the client's own part of the handshake. -/
def initializationOptions (s : Setup) : Json :=
  .object [("editor", .str s.settings.server.editor)]

/-- The parameters of the first request. A root that is not absolute has no URI,
and then no folders are named. -/
def initializeParams (s : Setup) : Json :=
  let uri := Uri.ofPath? (utf8 s.root)
  let folders := uri.map fun uri =>
    ("workspaceFolders",
      Json.arr [.object [("uri", .str uri), ("name", .str s.workspaceName)]])
  .object ([
    ("processId", .ofNat s.processId),
    ("rootUri", .ofString? uri),
    ("initializationOptions", s.initializationOptions),
    ("capabilities", .obj []),
    ("clientInfo", .object [("name", .str "els"), ("version", .str "0.1.0")])] ++ folders.toList)

/-- The commands that the answer to the first request advertises, if it can be
read. -/
def commands? (s : Setup) (answer : Json) : Option (List String) :=
  (s.reader.read answer).map InitializeResult.commands

end Setup

end EmberClient
