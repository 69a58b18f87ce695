import EmberClient.Command.Name
import EmberClient.Connection.Basic
import EmberClient.Session.Setup
import EmberClient.Session.StatusItem

/-!
# Starting, restarting and stopping the server

A start builds a fresh handler for the requests of a server, brings a fresh
server up with it, shakes hands with the server and puts it into the slot of the
current one; from then on it can be used. A start that fails leaves the
slot empty, is reported and is not tried again. A restart and a stop first empty
the slot and shut the server down that was in it.

These three are transitions: each holds the lock from its beginning to its end. A
server that exits by itself is noticed by its watcher, which does not wait for the
lock. It touches state and slot only while its server is still the current one: it
claims the slot, so that this stays so, and frees it empty.
-/

namespace EmberClient.Session.Lifecycle

/-- What the user is told when the server exits by itself. -/
def exitMessage : String := "Ember language server stopped unexpectedly"

/-- Runs a command on a server. -/
def execute (server : Nat) (command : String) (arguments : List Json) :
    Prog (Except Fault Json) :=
  request server Connection.executeMethod (Connection.executeParams command arguments)

/-- Shakes hands with a server that is up: the first request, and the note that
its answer has arrived. A server whose answer is an error or makes no sense is
ended. -/
def shakeHands (setup : Setup) (server : Nat) : Prog (Except Fault Unit) := do
  let answer ← request server "initialize" setup.initializeParams
  let commands := answer.bind fun v =>
    match setup.commands? v with
    | some commands => .ok commands
    | none => .error (.malformed "the answer to initialize")
  match commands with
  | .error fault =>
    ask (.terminate server)
    ask (.discard server)
    return .error fault
  | .ok commands =>
    match ← ask (.notify server "initialized" (.obj [])) with
    | .error fault =>
      -- the process is not waited for; letting go of it is all
      ask (.discard server)
      return .error fault
    | .ok () =>
      ask (.advertise server commands)
      return .ok ()

/-- Brings a server up with a handler of its own and shakes hands with it. -/
def bringUp (setup : Setup) : Prog (Except Fault Nat) := do
  let handler ← ask .buildHandler
  match ← ask (.launch handler) with
  | .error fault => return .error fault
  | .ok server =>
    match ← shakeHands setup server with
    | .error fault => return .error fault
    | .ok () => return .ok server

/-- Starts a server. The transition holds the lock. -/
def startLocked (setup : Setup) : Prog (Except Fault Unit) := do
  let state ← ask .state
  if state ≠ .stopped ∧ state ≠ .restarting then
    return .error (.invalidState state "start")
  else
    ask (.setState .starting)
    StatusItem.set StatusItem.loading
    match ← bringUp setup with
    | .error fault =>
      ask (.setState .stopped)
      StatusItem.set StatusItem.noServer
      return .error fault
    | .ok server =>
      ask (.setCurrent server)
      ask (.setState .ready)
      -- the server is ready already, whatever it makes of the settings
      let _ ← execute server Command.setConfig [setup.settings.toJson]
      StatusItem.set StatusItem.ready
      -- a server that has exited by now is noticed all the same
      ask (.watch server)
      return .ok ()

/-- Shuts a server down: it is asked to, told to exit, and ended. How it answers
makes no difference, nor that it does not. -/
def shutDown (server : Nat) : Prog Unit := do
  let place ← ask (.call server "shutdown" .null)
  let _ ← ask (.awaitBriefly server place)
  let _ ← ask (.notify server "exit" .null)
  ask (.terminate server)
  ask (.discard server)

/-- Empties the slot and shuts the server down that was in it. -/
def shutDownCurrent : Prog Unit := do
  match ← ask .takeCurrent with
  | some server => shutDown server
  | none => return ()

/-- A transition: a program that holds the lock. -/
def locked {α : Type} (p : Prog α) : Prog α := do
  ask .lock
  let a ← p
  ask .unlock
  return a

def start (setup : Setup) : Prog (Except Fault Unit) := locked (startLocked setup)

/-- Restarts the server, which must be ready. -/
def restart (setup : Setup) : Prog (Except Fault Unit) := locked do
  let state ← ask .state
  if state ≠ .ready then
    return .error (.invalidState state "restart")
  else
    ask (.setState .restarting)
    shutDownCurrent
    startLocked setup

/-- Stops the server, if there is one. -/
def stop : Prog Unit := locked do
  shutDownCurrent
  ask (.setState .stopped)

/-- Reports that a server exited by itself, and ends what is left of it. -/
def reportExit (server : Nat) : Prog Unit := do
  StatusItem.set StatusItem.noServer
  ask (.showError exitMessage)
  ask (.terminate server)
  ask (.discard server)

/-- Waits for a server to exit, and reports it if it was still the current
one. -/
def watchExit (server : Nat) : Prog Unit := do
  ask (.closed server)
  if ← ask (.claim server) then
    ask (.setState .stopped)
    ask .vacate
    reportExit server
  else return ()

end EmberClient.Session.Lifecycle
