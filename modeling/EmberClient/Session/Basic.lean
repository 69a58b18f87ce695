import EmberClient.Connection.Step
import EmberClient.Session.Job

/-!
# The state of a session

All that the programs of a session share, and where each of them stands. A
program that is under way is a `Task`; those that serve a server's request or
watch for its exit are tasks like the others.

`reply` answers a question from what is shared, in one step. `none` means that
the question has to wait: for the lock, for the slot, for a server, or for an
answer from outside, from the editor or from the one who starts and ends processes.
-/

namespace EmberClient

namespace Session

/-- A server that came up. -/
structure Server where
  connection : Connection := {}
  /-- The handler that its requests are answered by. -/
  handler : Nat := 0
  /-- The commands that it advertised. -/
  commands : List String := []
  /-- The client has let go of it. -/
  discarded : Bool := false
  deriving Inhabited

/-- A program under way. -/
structure Task where
  program : Prog Result
  /-- The question that it is at has been put: a place in the queue for the lock
  is taken, or those outside have been told. -/
  isPut : Bool := false
  /-- Its result is no longer needed. -/
  cancelled : Bool := false

instance : Inhabited Task := ⟨{ program := .done .nothing }⟩

/-- What the editor was made to show or do. -/
inductive EditorEvent where
  | prompt (options : InputBoxOptions)
  | error (text : String)
  | status (item text : String)
  | opened (path : String)
  | command (name : String) (arguments : List Json)

end Session

open Session in
/-- All that the programs of a session share. -/
structure Session where
  setup : Setup
  /-- The disk. -/
  files : FileSystem := { root := .directory [] }
  /-- What the editor shows. -/
  view : EditorView := {}
  state : ServerState := .stopped
  /-- The current server. -/
  slot : Option Nat := none
  /-- The task that has claimed the slot. -/
  claimant : Option Nat := none
  /-- The tasks that want the lock on transitions; the first one holds it. -/
  lock : List Nat := []
  servers : List Server := []
  /-- How many handlers for the requests of servers were built. -/
  handlers : Nat := 0
  tasks : List Task := []
  /-- What the editor was made to show or do, in order. -/
  shown : List EditorEvent := []
  /-- What servers wrote to the log, in order. -/
  log : List (Handler.LogLevel × String) := []

namespace Session

/-! ## Servers -/

/-- Changes a server. -/
def editServer (s : Session) (server : Nat) (edit : Server → Server) : Session :=
  { s with servers := s.servers.modify server edit }

/-- Changes the connection to a server. -/
def editConnection (s : Session) (server : Nat) (edit : Connection → Connection) : Session :=
  s.editServer server fun v => { v with connection := edit v.connection }

def connection? (s : Session) (server : Nat) : Option Connection :=
  (s.servers[server]?).map Server.connection

/-- Has the editor show or do something. -/
def tell (s : Session) (event : EditorEvent) : Session := { s with shown := s.shown ++ [event] }

/-! ## Questions -/

/-- Puts the question of a task where others see it: in the queue for the lock,
or before the editor. -/
def put (s : Session) (task : Nat) : Question → Session
  | .lock => { s with lock := s.lock ++ [task] }
  | .prompt options => s.tell (.prompt options)
  | .openFile path => s.tell (.opened path)
  | .editorCommand name arguments => s.tell (.command name arguments)
  | _ => s

/-- Questions that are put before they are answered. -/
def mustPut : Question → Bool
  | .lock | .launch _ | .terminate _ | .prompt _ | .openFile _ | .editorCommand .. => true
  | _ => false

/-- Adds a task of the session's own. -/
def spawn (s : Session) (program : Prog Unit) : Session :=
  { s with tasks := s.tasks ++ [{ program := program.bind fun _ => .done .nothing }] }

/-- Answers a question of a task from what is shared. -/
def reply (s : Session) (task : Nat) : (q : Question) → Option (Session × q.Reply)
  | .lock => if s.lock.head? = some task then some (s, ()) else none
  | .unlock => some ({ s with lock := s.lock.erase task }, ())
  | .state => some (s, s.state)
  | .setState state => some ({ s with state }, ())
  | .current => if s.claimant.isSome then none else some (s, s.slot)
  | .setCurrent server =>
    if s.claimant.isSome then none else some ({ s with slot := some server }, ())
  | .takeCurrent => if s.claimant.isSome then none else some ({ s with slot := none }, s.slot)
  | .claim server =>
    if s.claimant.isSome then none
    else if s.slot = some server then some ({ s with claimant := some task }, true)
    else some (s, false)
  | .vacate => some ({ s with slot := none, claimant := none }, ())
  | .buildHandler => some ({ s with handlers := s.handlers + 1 }, s.handlers)
  | .launch _ => none
  | .terminate _ => none
  | .discard server => some (s.editServer server fun v => { v with discarded := true }, ())
  | .advertise server commands => some (s.editServer server fun v => { v with commands }, ())
  | .commands server => some (s, ((s.servers[server]?).map Server.commands).getD [])
  | .call server method params =>
    let place := ((s.connection? server).map fun c => c.callers.length).getD 0
    some (s.editConnection server fun c =>
      ((c.step (.call method params)).map (·.1)).getD c, place)
  | .await server place =>
    ((s.connection? server).bind fun c => c.result? place).map fun r => (s, r)
  | .awaitBriefly server place =>
    ((s.connection? server).bind fun c => c.result? place).map fun r => (s, some r)
  | .notify server method params =>
    match s.connection? server with
    | none => some (s, .error .connectionClosed)
    | some c =>
      match c.notify method params with
      | .ok c => some (s.editConnection server fun _ => c, .ok ())
      | .error fault => some (s, .error fault)
  | .closed server =>
    match s.connection? server with
    | some c => if c.closed then some (s, ()) else none
    | none => none
  | .watch server => some (s.spawn (Lifecycle.watchExit server), ())
  | .respond server place outcome =>
    some (s.editConnection server fun c => (c.answer place outcome).getD c, ())
  | .status item text => some (s.tell (.status item text), ())
  | .showError text => some (s.tell (.error text), ())
  | .view => some (s, s.view)
  | .prompt _ => none
  | .openFile _ => none
  | .editorCommand .. => none
  | .content path => some (s, s.files.content path)
  | .stat path => some (s, s.files.stat path)
  | .entries path => some (s, s.files.entries path)
  | .projectKind root => some (s, ProjectKind.detect s.files (Text.utf8 root))
  | .run _ _ => none
  | .cancelled => some (s, ((s.tasks[task]?).map Task.cancelled).getD false)

/-! ## Tasks -/

/-- The question that a task is at. -/
def question? (s : Session) (task : Nat) : Option Question :=
  match (s.tasks[task]?).map Task.program with
  | some (.ask q _) => some q
  | _ => none

/-- The result of a task that is done. -/
def result? (s : Session) (task : Nat) : Option Result :=
  match (s.tasks[task]?).map Task.program with
  | some (.done r) => some r
  | _ => none

/-- Sets the program of a task; its question has not been put. -/
def setProgram (s : Session) (task : Nat) (program : Prog Result) : Session :=
  { s with tasks := s.tasks.modify task fun t => { t with program, isPut := false } }

/-- Notes that the question of a task has been put. -/
def markPut (s : Session) (task : Nat) : Session :=
  { s with tasks := s.tasks.modify task fun t => { t with isPut := true } }

end Session

end EmberClient
