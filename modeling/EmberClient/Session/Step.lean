import EmberClient.Session.Basic

/-!
# Steps of a session

Who may do what next in a session: its tasks, the participants of its
connections, its servers, and those outside. `Session.step` performs one action,
if it is possible where things stand. As for a connection, nothing is said about
which of the possible actions comes next; what holds after any sequence of steps
holds under every scheduling, every server and every editor.
-/

namespace EmberClient.Session

/-- One action of one participant. -/
inductive Action where
  /-- A job is begun. -/
  | begin (job : Job)
  /-- A task takes its next step: it puts its question, or goes on with the
  answer. -/
  | advance (task : Nat)
  /-- The server that a task waits for came up or did not. -/
  | launched (task : Nat) (outcome : Except Fault Unit)
  /-- The process whose end a task waits for has ended. -/
  | terminated (task : Nat)
  /-- The user answered the prompt of a task. -/
  | typed (task : Nat) (input : Except Fault (Option String))
  /-- The editor opened the file of a task. -/
  | opened (task : Nat) (outcome : Except Fault Unit)
  /-- The editor ran the command of a task. -/
  | ran (task : Nat) (outcome : Except Fault Json)
  /-- The grace that a task gives a server runs out. -/
  | elapse (task : Nat)
  /-- The result of a task is no longer needed. -/
  | cancel (task : Nat)
  /-- A participant of a connection acts, or its server. -/
  | connection (server : Nat) (action : Connection.Action)
  /-- The editor shows something else. -/
  | editorShows (view : EditorView)

/-! ## Tasks -/

/-- A task takes its next step. Running a command by its name is doing what the
command does; it waits for nothing. -/
def advance (s : Session) (task : Nat) : Option Session := do
  let t ← s.tasks[task]?
  match t.program with
  | .done _ => none
  | .ask (.run name arguments) next =>
    -- what the command does takes its place in the program
    return s.setProgram task ((Dispatch.execute s.setup name arguments).bind next)
  | .ask q next =>
    if mustPut q ∧ t.isPut = false then return (s.put task q).markPut task
    else
      let (s, reply) ← s.reply task q
      return s.setProgram task (next reply)

/-- What a task goes on with, if it is at a question that an answer from outside
is for and has put it. -/
def answered (s : Session) (task : Nat) (next? : Prog Result → Option (Prog Result)) :
    Option Session := do
  let t ← s.tasks[task]?
  if t.isPut then return s.setProgram task (← next? t.program) else none

/-- The handler that a task wants a server brought up with. -/
def launching? (s : Session) (task : Nat) : Option Nat :=
  match s.question? task with
  | some (.launch handler) => some handler
  | _ => none

/-- A server came up, with the handler that was asked for, or did not. -/
def launched (s : Session) (task : Nat) : Except Fault Unit → Option Session
  | .ok () => do
    let handler ← s.launching? task
    let came : Server := { handler }
    { s with servers := s.servers ++ [came] }.answered task fun
      | .ask (.launch _) next => some (next (.ok s.servers.length))
      | _ => none
  | .error fault =>
    s.answered task fun
      | .ask (.launch _) next => some (next (.error fault))
      | _ => none

/-- The grace that a task gives a server runs out: the call is given up. -/
def elapse (s : Session) (task : Nat) : Option Session := do
  let t ← s.tasks[task]?
  match t.program with
  | .ask (.awaitBriefly server place) next =>
    let c ← s.connection? server
    let (c, _) ← c.step (.abandon place)
    return (s.editConnection server fun _ => c).setProgram task (next none)
  | _ => none

/-! ## Connections -/

/-- Actions that a connection takes of itself, and those of its server. The
others are the client's and come from tasks. -/
def isSpontaneous : Connection.Action → Bool
  | .advance _ | .read | .write | .release | .receive _ | .endInput | .stopReading => true
  | .call .. | .abandon _ | .notify .. | .answer .. => false

/-- A connection is given up when the client has let go of its server, which is
not the current one, and nobody waits on it. -/
def mayRelease (s : Session) (server : Nat) : Bool :=
  match s.servers[server]? with
  | some v =>
    v.discarded && s.slot ≠ some server && v.connection.callers.all fun c => !c.isOpen
  | none => false

/-- Takes over what the reader of a connection hands on: a request gets a task of
its own, a notification is dealt with at once. -/
def take (server : Nat) (s : Session) : Connection.Event → Session
  | .request place method params => s.spawn (Handler.handle s.setup server place method params)
  | .notification method params =>
    { s with log := s.log ++ (Handler.logLine? method params).toList }

/-- A participant of a connection acts. -/
def actOn (s : Session) (server : Nat) (action : Connection.Action) : Option Session := do
  let c ← s.connection? server
  if isSpontaneous action ∧ (action matches .release → s.mayRelease server) then
    let (c, events) ← c.step action
    return events.foldl (take server) (s.editConnection server fun _ => c)
  else none

/-! ## Steps -/

/-- Performs one action. -/
def step (s : Session) : Action → Option Session
  | .begin job => some { s with tasks := s.tasks ++ [{ program := job.program s.setup }] }
  | .advance task => s.advance task
  | .launched task outcome => s.launched task outcome
  | .terminated task => s.answered task fun
    | .ask (.terminate _) next => some (next ())
    | _ => none
  | .typed task input => s.answered task fun
    | .ask (.prompt _) next => some (next input)
    | _ => none
  | .opened task outcome => s.answered task fun
    | .ask (.openFile _) next => some (next outcome)
    | _ => none
  | .ran task outcome => s.answered task fun
    | .ask (.editorCommand _ _) next => some (next outcome)
    | _ => none
  | .elapse task => s.elapse task
  | .cancel task =>
    some { s with tasks := s.tasks.modify task fun t => { t with cancelled := true } }
  | .connection server action => s.actOn server action
  | .editorShows view => some { s with view }

/-- The session after a sequence of actions, each of them possible. -/
def run : List Action → Session → Option Session
  | [], s => some s
  | a :: rest, s => (s.step a).bind (run rest)

/-- A session that some run leads to, from its beginning. -/
def Reachable (s : Session) : Prop :=
  ∃ setup files view actions, run actions { setup, files, view } = some s

end EmberClient.Session
