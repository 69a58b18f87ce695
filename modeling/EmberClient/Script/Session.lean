import EmberClient.Script.Stage

/-!
# A session by script

A session played step by step against a scripted editor and scripted servers.
After each step everybody moves until nobody can; the entry of a step tells what
finished, what the editor was made to show, what servers received and logged, and
in which state the server is.

A script plays either one session that is there from the beginning, or an
extension, which is there only from its activation to its deactivation.
-/

namespace EmberClient.Script

open Text

/-- A step of a script. -/
inductive SessionStep where
  | begin (job : Session.Job)
  /-- Lenses of a document, for a request that may be cancelled beforehand. -/
  | lenses (document : String) (cancelled : Bool)
  | children
  | deactivate
  /-- The languages that get lenses. -/
  | languages
  | editorChanged (document : Option String)
  | refresh
  /-- The current server, and whether it advertised a command. -/
  | server (name : String)
  | status (text : String)
  | context
  /-- A server, by the number of its launch or the latest, sends bytes. -/
  | serverSends (launch : Option Nat) (bytes : Bytes)
  | serverCloses (launch : Option Nat)
  | serverExits (launch : Option Nat)
  | setActive (document : Option String)
  | addTyping (typing : Typing)
  /-- The request that a step began is cancelled. -/
  | cancel (step : Nat)

/-- What the views show when they are looked at. -/
structure Look where
  generation : Nat
  /-- They were told to read again since the last look. -/
  changed : Bool
  active : Option String

/-- What a step comes to. -/
inductive Finding where
  | result (result : Session.Result)
  | nothing
  /-- There is no extension. -/
  | inactive
  /-- The extension has no lenses. -/
  | disabled
  | languages (list : Option (List String))
  | look (look : Look)
  | server (found : Option (List String × Bool))
  | context (path : Option String)

/-- What one step led to. -/
structure SessionEntry where
  /-- What finished, by the step in which it began. -/
  calls : List (Nat × Finding)
  shown : List Session.EditorEvent
  log : List (Session.Handler.LogLevel × String)
  wire : List (Nat × Message)
  /-- The state of the server; none before there is a session. -/
  state : Option ServerState

/-- A script in progress. -/
structure SessionPlay where
  stage : Stage
  setup : Setup
  files : FileSystem
  view : EditorView
  isExtension : Bool
  /-- The session that steps are for; none while an extension is not there. -/
  present : Option Nat := none
  /-- The session whose state is told. -/
  told : Option Nat := none
  follower : Session.View.Follower := {}
  /-- The generation of the views at the last look. -/
  seen : Nat := 0
  /-- Tasks that have not been reported: the step in which one began, its
  session, and its place there. -/
  unreported : List (Nat × Nat × Nat) := []

namespace SessionPlay

/-- A session of its own joins the stage. -/
def addScene (p : SessionPlay) : SessionPlay × Nat :=
  let session : Session := { setup := p.setup, files := p.files, view := p.view }
  let scenes := p.stage.scenes ++ [{ session := session }]
  ({ p with stage := { p.stage with scenes } }, p.stage.scenes.length)

/-- Performs an action in a session. -/
def act (p : SessionPlay) (n : Nat) (a : Session.Action) : SessionPlay :=
  match p.stage.scenes[n]? with
  | none => p
  | some scene =>
    match scene.session.step a with
    | none => p
    | some session => { p with stage := p.stage.setScene n scene { scene with session } }

/-- Begins a task in a session, in this step of the script. -/
def startJob (p : SessionPlay) (place n : Nat) (job : Session.Job) (cancelled : Bool) :
    SessionPlay :=
  let task := ((p.stage.scenes[n]?).map fun scene => scene.session.tasks.length).getD 0
  let p := p.act n (.begin job)
  let p := if cancelled then p.act n (.cancel task) else p
  { p with unreported := p.unreported ++ [(place, n, task)] }

/-- The views are looked at. -/
def look (p : SessionPlay) : SessionPlay × Finding :=
  ({ p with seen := p.follower.generation },
    .look {
      generation := p.follower.generation
      changed := p.seen ≠ p.follower.generation
      active := p.follower.active })

/-- The scene, and the place in it, of the server of a launch or the latest
one. -/
def server? (p : SessionPlay) (launch : Option Nat) : Option (Nat × Nat) :=
  let all := p.stage.scenes.zipIdx.flatMap fun (scene, n) =>
    scene.casts.zipIdx.map fun (cast, server) => (cast.launch, n, server)
  match launch with
  | some number => (all.find? fun e => e.1 = number).map (·.2)
  | none =>
    (all.foldl (fun (best : Option (Nat × Nat × Nat)) e =>
      match best with
      | some b => if b.1 < e.1 then some e else best
      | none => some e) none).map (·.2)

/-- A server does something of its own accord, unless it has ended. -/
def serverDoes (p : SessionPlay) (launch : Option Nat) (f : Scene → Nat → Scene) : SessionPlay :=
  match p.server? launch with
  | none => p
  | some (n, server) =>
    match p.stage.scenes[n]? with
    | none => p
    | some scene =>
      if ((scene.casts[server]?).map fun cast => cast.player.ended).getD true then p
      else { p with stage := p.stage.setScene n scene (f scene server) }

/-- The session that a step is for has work to finish. -/
def isBusy (p : SessionPlay) (n : Nat) : Bool := p.unreported.any fun u => u.2.1 = n

/-- What the current server is. -/
def serverFinding (session : Session) (name : String) : Finding :=
  match session.slot with
  | none => .server none
  | some server =>
    let commands := ((session.servers[server]?).map Session.Server.commands).getD []
    .server (some (commands, commands.contains name))

/-- The text in the status bar is set. -/
def showStatus (p : SessionPlay) (text : String) : SessionPlay :=
  let event := Session.EditorEvent.status Session.StatusItem.main (Session.StatusItem.text text)
  { p with stage := { p.stage with shown := p.stage.shown ++ [event] } }

/-- The extension goes away. It stops its server, unless something that it began
is not finished: then it cannot be stopped and only is no longer there. -/
def deactivate (p : SessionPlay) (place n : Nat) : SessionPlay × Option Finding :=
  let gone := { p with present := none }
  if p.isBusy n then (gone, some .inactive)
  else (gone.startJob place n .stop false, none)

/-- A step for the session that is there; the finding, if there is one at once. -/
def performIn (p : SessionPlay) (place n : Nat) (session : Session) :
    SessionStep → SessionPlay × Option Finding
  | .begin job => (p.startJob place n job false, none)
  | .lenses document cancelled =>
    if p.isExtension ∧ p.setup.settings.relatedFiles = false then (p, some .disabled)
    else (p.startJob place n (.lenses document) cancelled, none)
  | .children => (p.startJob place n (.children p.follower) false, none)
  | .deactivate => p.deactivate place n
  | .languages =>
    if p.isExtension ∧ p.setup.settings.relatedFiles = false then (p, some (.languages none))
    else (p, some (.languages (some p.setup.settings.codeLensLanguages)))
  | .editorChanged document =>
    let (p, finding) := { p with follower := p.follower.editorChanged document }.look
    (p, some finding)
  | .refresh =>
    let (p, finding) := { p with follower := p.follower.refresh }.look
    (p, some finding)
  | .server name => (p, some (serverFinding session name))
  | .status text => (p.showStatus text, some .nothing)
  | .context => (p, some (.context p.view.contextPath))
  | _ => (p, none)

/-- A step that needs no session. -/
def performOutside (p : SessionPlay) : SessionStep → Option SessionPlay
  | .serverSends launch bytes =>
    some (p.serverDoes launch fun scene server =>
      { scene with session := Stage.output scene.session server (.bytes bytes) })
  | .serverCloses launch =>
    some (p.serverDoes launch fun scene server =>
      { scene with session := Stage.output scene.session server .close })
  | .serverExits launch => some (p.serverDoes launch Stage.endServer)
  | .setActive document =>
    let view := { p.view with active := document }
    let p := { p with view }
    some ((List.range p.stage.scenes.length).foldl
      (fun p n => p.act n (.editorShows view)) p)
  | .addTyping typing =>
    some { p with stage := { p.stage with editor := p.stage.editor.addTyping typing } }
  | .cancel step =>
    some ((p.unreported.filter fun u => u.1 = step).foldl
      (fun p u => p.act u.2.1 (.cancel u.2.2)) p)
  | _ => none

/-- A step, the one at this place in the script. -/
def perform (p : SessionPlay) (place : Nat) (step : SessionStep) : SessionPlay × Option Finding :=
  match p.performOutside step with
  | some p => (p, none)
  | none =>
    match step with
    | .begin .activate =>
      let (p, n) := p.addScene
      (p.startJob place n .activate false, none)
    | step =>
      match p.present with
      | none => (p, some .inactive)
      | some n =>
        match p.stage.scenes[n]? with
        | none => (p, some .inactive)
        | some scene => p.performIn place n scene.session step

/-- The result of a task that is done. -/
def result? (p : SessionPlay) (u : Nat × Nat × Nat) : Option Session.Result :=
  p.stage.result? u.2.1 u.2.2

/-- Takes over what an activation led to. -/
def takeOver (p : SessionPlay) (u : Nat × Nat × Nat) : SessionPlay :=
  match p.result? u with
  | some (.activated (some _)) =>
    { p with present := some u.2.1, told := some u.2.1, follower := {}, seen := 0 }
  | _ => p

/-- Plays one step, the one at this place in the script. -/
def play (p : SessionPlay) (place : Nat) (step : SessionStep) : SessionPlay × SessionEntry :=
  let p := { p with stage := { p.stage with shown := [], log := [], wire := [] } }
  let (p, finding) := p.perform place step
  let p := { p with stage := p.stage.playOut }
  let done := p.unreported.filterMap fun u => (p.result? u).map fun r => (u.1, Finding.result r)
  let p := p.unreported.foldl takeOver p
  let p := { p with unreported := p.unreported.filter fun u => (p.result? u).isNone }
  (p,
    { calls := (finding.map fun f => (place, f)).toList ++ done
      shown := p.stage.shown
      log := p.stage.log
      wire := p.stage.wire
      state := (p.told.bind fun n => p.stage.scenes[n]?).map fun scene => scene.session.state })

/-- Plays a script from its first step. -/
def playAll (p : SessionPlay) (place : Nat) : List SessionStep → List SessionEntry
  | [] => []
  | step :: rest =>
    let (p, entry) := p.play place step
    entry :: playAll p (place + 1) rest

/-- The entries of a script, one per step. -/
def entries (p : SessionPlay) (steps : List SessionStep) : List SessionEntry :=
  if p.isExtension then p.playAll 0 steps
  else
    let (p, n) := p.addScene
    { p with present := some n, told := some n }.playAll 0 steps

end SessionPlay

end EmberClient.Script
