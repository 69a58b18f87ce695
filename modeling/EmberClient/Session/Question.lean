import EmberClient.EditorView
import EmberClient.FileSystem.Tree
import EmberClient.InputBox
import EmberClient.Program
import EmberClient.Project.Kind
import EmberClient.Rpc.Message

/-!
# What the client's programs ask

Every program of the client is a `Program` over `Question`. One question is one
access to something that others can reach too: the state of the server, the slot
that holds the current one, the lock on transitions, a connection, the editor,
the disk. Between two questions of one program any number of others may be
answered, so a question is exactly what is atomic.

Servers are named by the order in which they came up, handlers by the order in
which they were built, calls on a connection by
their place among its callers, the requests of a server by their place among its
requests.
-/

namespace EmberClient.Session

/-- One access to what programs share. -/
inductive Question where
  /-- Waits for the lock on transitions and takes it; first come, first served. -/
  | lock
  /-- Gives the lock back. -/
  | unlock
  /-- The state of the server. -/
  | state
  | setState (state : ServerState)
  /-- The current server. -/
  | current
  | setCurrent (server : Nat)
  /-- Empties the slot of the current server; the reply is what was in it. -/
  | takeCurrent
  /-- Claims the slot if this server is in it: until it is vacated nobody else gets
  at it. The reply tells whether it was. -/
  | claim (server : Nat)
  /-- Empties the slot that was claimed, and frees it for others. -/
  | vacate
  /-- Builds a handler for the requests of a server; the reply is its number among
  all that were built. -/
  | buildHandler
  /-- Brings a new server up, whose requests this handler answers. -/
  | launch (handler : Nat)
  /-- Ends the process of a server and waits for it. -/
  | terminate (server : Nat)
  /-- Lets go of a server. Its connection is given up once nobody waits on it. -/
  | discard (server : Nat)
  /-- Notes the commands that a server advertised. -/
  | advertise (server : Nat) (commands : List String)
  /-- The commands that a server advertised. -/
  | commands (server : Nat)
  /-- Begins a call; the reply is its place. -/
  | call (server : Nat) (method : String) (params : Json)
  /-- Waits for the result of a call. -/
  | await (server place : Nat)
  /-- Waits for the result of a call, but not longer than the grace of a
  shutdown. -/
  | awaitBriefly (server place : Nat)
  | notify (server : Nat) (method : String) (params : Json)
  /-- Waits until the connection to a server is closed. -/
  | closed (server : Nat)
  /-- Starts to watch a server for its exit. -/
  | watch (server : Nat)
  /-- Answers the request of a server. -/
  | respond (server place : Nat) (outcome : Outcome)
  /-- Sets the text of an item in the status bar. -/
  | status (item text : String)
  /-- Shows the user an error. -/
  | showError (text : String)
  /-- What the editor shows. -/
  | view
  /-- Asks the user for a text; none if the prompt is dismissed. -/
  | prompt (options : InputBoxOptions)
  | openFile (path : String)
  /-- Runs a command of the editor's own. -/
  | editorCommand (name : String) (arguments : List Json)
  /-- The bytes of a file. -/
  | content (path : Text.Bytes)
  | stat (path : Text.Bytes)
  | entries (path : Text.Bytes)
  /-- What kind of project is at a path. -/
  | projectKind (root : String)
  /-- Runs a command by name, as if the user had. -/
  | run (name : String) (arguments : List Json)
  /-- Whether the asking program has been told that nobody needs its result. -/
  | cancelled

/-- What a question is replied with. -/
@[reducible]
def Question.Reply : Question → Type
  | .lock | .unlock | .setState _ | .setCurrent _ | .vacate => Unit
  | .state => ServerState
  | .current | .takeCurrent => Option Nat
  | .claim _ => Bool
  | .buildHandler => Nat
  | .launch _ => Except Fault Nat
  | .terminate _ | .discard _ | .advertise .. => Unit
  | .commands _ => List String
  | .call .. => Nat
  | .await .. => Except Fault Json
  | .awaitBriefly .. => Option (Except Fault Json)
  | .notify .. => Except Fault Unit
  | .closed _ | .watch _ | .respond .. | .status .. | .showError _ => Unit
  | .view => EditorView
  | .prompt _ => Except Fault (Option String)
  | .openFile _ => Except Fault Unit
  | .editorCommand .. => Except Fault Json
  | .content _ => Except IoKind Text.Bytes
  | .stat _ => Except IoKind FileStat
  | .entries _ => Except IoKind (List (String × FileType))
  | .projectKind _ => Except ProbeFault (Option ProjectKind)
  | .run .. => Except Fault Json
  | .cancelled => Bool

/-- A program of the client. -/
abbrev Prog (α : Type) := Program Question Question.Reply α

/-- Asks one question. -/
def ask (q : Question) : Prog q.Reply := Program.question q

/-! ## Short programs -/

/-- Sends a request to a server and waits for the answer. -/
def request (server : Nat) (method : String) (params : Json) : Prog (Except Fault Json) := do
  let place ← ask (.call server method params)
  ask (.await server place)

end EmberClient.Session
