import EmberClient.Session.Handler
import EmberClient.Session.View

/-!
# Jobs

What a session can be asked to do from outside, and what comes of it. Each job is
one program; any number of them may be under way at once.
-/

namespace EmberClient.Session

/-- Something a session is asked to do. -/
inductive Job where
  /-- Looks whether the workspace holds a project, and starts if it does. -/
  | activate
  | start
  | restart
  | stop
  /-- Runs a command by its name. -/
  | execute (name : String) (arguments : List Json)
  /-- Runs a command on the current server, whatever its name. -/
  | executeOnServer (name : String) (arguments : List Json)
  | lenses (document : String)
  | relatedFiles (document : String)
  | kindUsages (document : String)
  /-- The usages of what the views follow. -/
  | children (follower : View.Follower)

/-- What came of a job. -/
inductive Result where
  | nothing
  | outcome (outcome : Except Fault Json)
  | activated (kind : Option ProjectKind)
  | lenses (lenses : Option (List Lens))
  | nodes (nodes : List ViewNode)
  deriving Inhabited

/-- The result of a program without a value of its own. -/
def Result.ofUnit (outcome : Except Fault Unit) : Result :=
  .outcome (outcome.map fun _ => .null)

/-- Activation: the kind of the project if there is one, after an attempt to
start. A server that does not start is no reason to stay inactive. -/
def activate (setup : Setup) : Prog (Option ProjectKind) := do
  match ← ask (.projectKind setup.root) with
  | .ok (some kind) =>
    StatusItem.set StatusItem.loading
    match setup.settings.debugPort with
    | some port => StatusItem.setDebugPort port
    | none => pure ()
    let _ ← Lifecycle.start setup
    return some kind
  | _ => return none

/-- The program of a job. -/
def Job.program (setup : Setup) : Job → Prog Result
  | .activate => return .activated (← Session.activate setup)
  | .start => return .ofUnit (← Lifecycle.start setup)
  | .restart => return .ofUnit (← Lifecycle.restart setup)
  | .stop => do
    Lifecycle.stop
    return .outcome (.ok .null)
  | .execute name arguments => return .outcome (← Dispatch.execute setup name arguments)
  | .executeOnServer name arguments =>
    return .outcome (← Dispatch.executeOnServer name arguments)
  | .lenses document => return .lenses (← View.lenses document)
  | .relatedFiles document => return .nodes (← View.relatedFiles document)
  | .kindUsages document => return .nodes (← View.kindUsages document)
  | .children follower => return .nodes (← follower.children)

end EmberClient.Session
