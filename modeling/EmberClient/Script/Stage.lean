import EmberClient.Script.Editor
import EmberClient.Script.Server
import EmberClient.Session.Step

/-!
# Sessions on a stage

One or more sessions together with a scripted editor and scripted servers. Who
can move waits in one queue, in the order in which it became able to; the first
one moves until it is stuck. When nobody can move, the shortest grace runs out.
So a script has one outcome, and it is one of the runs of `Session.step`.

Whoever sends a request goes through the steps of sending it at once, and a
connection that may be given up is given up at once: the queue is for those who
have to be woken.
-/

namespace EmberClient.Script

open Text

/-- Somebody who can move, in the session of this number. -/
inductive Actor where
  | task (session task : Nat)
  | reader (session server : Nat)
  | writer (session server : Nat)
  /-- A server that takes messages. -/
  | server (session server : Nat)
  /-- A part that a server plays. -/
  | part (session server part : Nat)
  deriving DecidableEq

/-- A server that came up: the number of its launch, and its player. -/
structure Cast where
  launch : Nat
  player : Player
  deriving Inhabited

/-- A session and the servers that play for it, in the order of the session's
own. -/
structure Scene where
  session : Session
  casts : List Cast := []
  /-- Tasks whose prompts stay open for ever. -/
  hung : List Nat := []

structure Stage where
  editor : Editor
  launches : List LaunchScript
  /-- How many servers have been launched. -/
  launched : Nat := 0
  scenes : List Scene := []
  queue : List Actor := []
  /-- What the editor was made to show or do, over all sessions. -/
  shown : List Session.EditorEvent := []
  log : List (Session.Handler.LogLevel × String) := []
  /-- What servers received: the number of the launch, and the message. -/
  wire : List (Nat × Message) := []

namespace Stage

/-! ## Bookkeeping -/

/-- The launch that comes next; the last one is repeated. -/
def nextLaunch (s : Stage) : LaunchScript :=
  ((s.launches[s.launched]?).or s.launches.getLast?).getD (.serves {})

/-- Replaces a scene; what its session newly showed and logged is taken over. -/
def setScene (s : Stage) (n : Nat) (old new : Scene) : Stage :=
  { s with
    scenes := s.scenes.set n new
    shown := s.shown ++ new.session.shown.drop old.session.shown.length
    log := s.log ++ new.session.log.drop old.session.log.length }

/-- Callers go through the steps of sending, and take their answers. -/
def settleCallers (session : Session) (server : Nat) (c : Connection) : Session :=
  (List.range c.callers.length).foldl (fun session place =>
    (List.range 8).foldl (fun session _ =>
      (session.step (.connection server (.advance place))).getD session) session) session

/-- Gives a connection up if it may be. -/
def settleRelease (session : Session) (server : Nat) : Session :=
  (List.range 3).foldl (fun session _ =>
    (session.step (.connection server .release)).getD session) session

/-- What needs no waking is done at once. -/
def settleSession (session : Session) : Session :=
  (List.range session.servers.length).foldl (fun session server =>
    match session.connection? server with
    | none => session
    | some c =>
      if c.callers.any Caller.isOpen then
        settleRelease (settleCallers session server c) server
      else settleRelease session server) session

/-! ## Who can move -/

/-- A task can go on, or those outside can answer it. -/
def taskReady (scene : Scene) (task : Nat) : Bool :=
  match scene.session.tasks[task]? with
  | none => false
  | some t =>
    match t.program with
    | .done _ => false
    | .ask q _ =>
      if t.isPut then
        match q with
        | .launch _ | .terminate _ | .openFile _ | .editorCommand .. => true
        | .prompt _ => !scene.hung.contains task
        | q => (scene.session.reply task q).isSome
      else
        match q with
        | .run .. => true
        | q => Session.mustPut q || (scene.session.reply task q).isSome

def isReady (s : Stage) : Actor → Bool
  | .task n task => (s.scenes[n]?).any fun scene => taskReady scene task
  | .reader n server =>
    ((s.scenes[n]?).bind fun scene => scene.session.connection? server).any fun c =>
      c.read.isSome
  | .writer n server =>
    ((s.scenes[n]?).bind fun scene => scene.session.connection? server).any fun c =>
      c.write.isSome
  | .server n server =>
    match s.scenes[n]? with
    | none => false
    | some scene =>
      match scene.casts[server]?, scene.session.connection? server with
      | some cast, some c => !cast.player.ended && cast.player.taken < c.written.length
      | _, _ => false
  | .part n server part =>
    (((s.scenes[n]?).bind fun scene => scene.casts[server]?).map fun cast =>
      cast.player.isReady part).getD false

/-- Everybody in a scene. -/
def actorsOf (n : Nat) (scene : Scene) : List Actor :=
  (List.range scene.session.tasks.length).map (.task n) ++
  (List.range scene.session.servers.length).flatMap fun server =>
    let parts := ((scene.casts[server]?).map fun cast => cast.player.parts.length).getD 0
    [.reader n server, .writer n server, .server n server] ++
      (List.range parts).map (.part n server)

/-- Those who became able to move join the queue. -/
def wake (s : Stage) : Stage :=
  let all := s.scenes.zipIdx.flatMap fun (scene, n) => actorsOf n scene
  { s with queue := s.queue ++ all.filter fun a => !s.queue.contains a && s.isReady a }

/-! ## Moves -/

/-- A server does something to its side of a connection. -/
def output (session : Session) (server : Nat) : Output → Session
  | .bytes bytes => act session (.receive bytes)
  | .close => act session .endInput
  | .exit => act (act session .endInput) .stopReading
where
  act (session : Session) (a : Connection.Action) : Session :=
    (session.step (.connection server a)).getD session

def outputs (session : Session) (server : Nat) (list : List Output) : Session :=
  list.foldl (fun session o => output session server o) session

/-- A server ends. -/
def endServer (scene : Scene) (server : Nat) : Scene :=
  { scene with
    casts := scene.casts.modify server fun cast =>
      { cast with player := { cast.player with ended := true, parts := [] } }
    session := output scene.session server .exit }

/-- Those outside answer the question that a task has put. -/
def answerTask (s : Stage) (n : Nat) (scene : Scene) (task : Nat) : Session.Question → Stage
  | .launch _ =>
    let s' := { s with launched := s.launched + 1 }
    match s.nextLaunch with
    | .fails text =>
      finish s' scene (.launched task (.error (.launch text)))
    | .serves script =>
      let cast : Cast := { launch := s'.launched, player := { script } }
      finish s' { scene with casts := scene.casts ++ [cast] } (.launched task (.ok ()))
  | .terminate server => finish s (endServer scene server) (.terminated task)
  | .openFile _ => finish s scene (.opened task s.editor.openFile)
  | .editorCommand name arguments => finish s scene (.ran task (s.editor.run name arguments))
  | .prompt options =>
    let (answer, editor) := s.editor.prompt options
    let s' := { s with editor }
    match answer with
    | some input => finish s' scene (.typed task input)
    | none => s'.setScene n scene { scene with hung := task :: scene.hung }
  | _ => s
where
  finish (s : Stage) (scene : Scene) (a : Session.Action) : Stage :=
    match scene.session.step a, s.scenes[n]? with
    | some session, some old => s.setScene n old { scene with session }
    | _, _ => s

/-- A task takes its next step, or is answered from outside. -/
def moveTask (s : Stage) (n : Nat) (scene : Scene) (task : Nat) : Stage :=
  let outside :=
    match scene.session.tasks[task]? with
    | some { program := .ask q _, isPut := true, .. } =>
      match q with
      | .lock => none
      | q => if Session.mustPut q then some q else none
    | _ => none
  match outside with
  | some q => s.answerTask n scene task q
  | none =>
    match scene.session.step (.advance task) with
    | some session => s.setScene n scene { scene with session }
    | none => s

/-- A server takes the next message. -/
def moveServer (s : Stage) (n : Nat) (scene : Scene) (server : Nat) : Stage :=
  match scene.casts[server]?, scene.session.connection? server with
  | some cast, some c =>
    match c.written[cast.player.taken]? with
    | none => s
    | some m =>
      let (player, list) := cast.player.take m
      let player := { player with taken := player.taken + 1 }
      let wire := if m.method = some "exit" then s.wire else s.wire ++ [(cast.launch, m)]
      { s with wire }.setScene n scene
        { scene with
          casts := scene.casts.set server { cast with player }
          session := outputs scene.session server list }
  | _, _ => s

/-- A part that a server plays makes its next move. -/
def movePart (s : Stage) (n : Nat) (scene : Scene) (server part : Nat) : Stage :=
  match scene.casts[server]? with
  | none => s
  | some cast =>
    match cast.player.play part with
    | none => s
    | some (player, list) =>
      s.setScene n scene
        { scene with
          casts := scene.casts.set server { cast with player }
          session := outputs scene.session server list }

/-- Somebody in a scene makes one move. -/
def move (s : Stage) (a : Actor) : Stage :=
  let inScene (n : Nat) (f : Scene → Stage) : Stage :=
    match s.scenes[n]? with
    | some scene => f scene
    | none => s
  let connection (n server : Nat) (action : Connection.Action) : Stage :=
    inScene n fun scene =>
      match scene.session.step (.connection server action) with
      | some session => s.setScene n scene { scene with session }
      | none => s
  match a with
  | .task n task => inScene n fun scene => s.moveTask n scene task
  | .reader n server => connection n server .read
  | .writer n server => connection n server .write
  | .server n server => inScene n fun scene => s.moveServer n scene server
  | .part n server part => inScene n fun scene => s.movePart n scene server part

/-- What needs no waking is done, and those who became able to move join the
queue. -/
def settle (s : Stage) : Stage :=
  let settled (scene : Scene) : Scene := { scene with session := settleSession scene.session }
  let s' : Stage := { s with scenes := s.scenes.map settled }
  s'.wake

/-- The first task that waits with a grace gives up waiting. -/
def elapse? (s : Stage) : Option Stage :=
  s.scenes.zipIdx.findSome? fun (scene, n) =>
    (List.range scene.session.tasks.length).findSome? fun task =>
      (scene.session.step (.elapse task)).map fun session =>
        s.setScene n scene { scene with session }

/-- The first in the queue moves, or leaves it when stuck; when the queue is empty,
the shortest grace runs out. -/
def next? (s : Stage) : Option Stage :=
  match s.queue with
  | a :: rest => some (if s.isReady a then (s.move a).settle else { s with queue := rest })
  | [] => s.elapse?.map settle

/-- Everybody moves until nobody can or it is enough, at most `bound` times. -/
def play (isEnough : Stage → Bool) : Nat → Stage → Stage
  | 0, s => s
  | bound + 1, s =>
    if isEnough s then s
    else
      match s.next? with
      | some s => play isEnough bound s
      | none => s

/-- More moves than any script makes. -/
def bound : Nat := 1000000

/-- Everybody moves until nobody can. -/
def playOut (s : Stage) : Stage := play (fun _ => false) bound s.settle

/-- The result of a task that is done. -/
def result? (s : Stage) (n task : Nat) : Option Session.Result :=
  (s.scenes[n]?).bind fun scene => scene.session.result? task

/-- Has a session do a job, and plays until it is done. The job goes first as long
as it can go on. There is no result if it waits for ever. -/
def perform (s : Stage) (n : Nat) (job : Session.Job) : Stage × Option Session.Result :=
  match s.scenes[n]? with
  | none => (s, none)
  | some scene =>
    let task := scene.session.tasks.length
    match scene.session.step (.begin job) with
    | none => (s, none)
    | some session =>
      let s := s.setScene n scene { scene with session }
      let s := { s with queue := .task n task :: s.queue }
      let s := play (fun s => (s.result? n task).isSome) bound s.settle
      (s, s.result? n task)

end Stage

end EmberClient.Script
