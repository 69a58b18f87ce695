import EmberClient.Decimal.Power
import EmberClient.Session.Dispatch

/-!
# Answering the server

A server may ask the client to run a command, for its settings, and for a few
things that need no more than an acknowledgement. Every request is answered once.
Of its notifications those with a message for the log count.
-/

namespace EmberClient.Session.Handler

open Json

/-! ## Parameters -/

/-- A token of a long-running task: a number of thirty-two bits or a text. -/
def isToken (v : Json) : Bool :=
  match v with
  | .str _ => true
  | v =>
    match v.int? with
    | some n => Decimal.fitsSigned 32 n
    | none => false

/-- The command and its arguments. -/
def executeParams? (v : Json) : Option (String × List Json) := do
  match ← v.objectFields? [("command", .required), ("arguments", .defaulted),
      ("workDoneToken", .optional)] with
  | [some command, arguments, token] =>
    let _ ← decodeOption (fun v => if isToken v then some () else none) token
    return (← command.string?, ← decodeDefault [] (decodeList passThrough) arguments)
  | _ => none

/-- An item of the settings that are asked for: the name of a section. -/
def section? (v : Json) : Option (Option String) := do
  match ← v.fields? [("scopeUri", .optional), ("section", .optional)] with
  | [scope, name] =>
    let _ ← decodeOption
      (fun v => v.string?.bind fun uri => if Uri.isAbsolute uri then some () else none) scope
    decodeOption string? name
  | _ => none

/-- The sections that are asked for. -/
def sections? (v : Json) : Option (List (Option String)) := do
  match ← v.fields? [("items", .required)] with
  | [some items] => decodeList section? items
  | _ => none

/-- The settings that a section names: all of them, under the client's own name
or none. -/
def sectionValue (setup : Setup) : Option String → Json
  | none => setup.settings.toJson
  | some name => if name = "els" then setup.settings.toJson else .null

/-! ## Requests -/

/-- Requests that are only acknowledged. -/
def acknowledged : List String :=
  ["client/registerCapability", "client/unregisterCapability", "window/workDoneProgress/create",
    "window/showMessageRequest"]

/-- The answer to a request whose parameters make no sense. -/
def unreadable : Outcome := .error (.invalidParams "the parameters have not the shape of the method")

/-- Finds the answer to a request. -/
def answer (setup : Setup) (method : String) (params : Json) : Prog Outcome :=
  if method = Connection.executeMethod then
    match executeParams? params with
    | none => return unreadable
    | some (command, arguments) => do
      match ← ask (.run command arguments) with
      | .ok v => return .ok v
      | .error fault => return .error (.internal fault.message)
  else if method = "workspace/configuration" then
    match sections? params with
    | none => return unreadable
    | some names => return .ok (.arr (names.map (sectionValue setup)))
  else if acknowledged.contains method then return .ok .null
  else return .error (.methodNotFound method)

/-- Answers the request of a server. -/
def handle (setup : Setup) (server place : Nat) (method : String) (params : Json) :
    Prog Unit := do
  let outcome ← answer setup method params
  ask (.respond server place outcome)

/-! ## Notifications -/

/-- How important a line of the log is. -/
inductive LogLevel where
  | error | warning | info | debug
  deriving DecidableEq, Inhabited

def LogLevel.name : LogLevel → String
  | .error => "error"
  | .warning => "warn"
  | .info => "info"
  | .debug => "debug"

def LogLevel.ofType (n : Int) : LogLevel :=
  if n = 1 then .error else if n = 2 then .warning else if n = 3 then .info else .debug

/-- The line for the log that a notification holds. -/
def logLine? (method : String) (params : Json) : Option (LogLevel × String) :=
  if method = "window/logMessage" ∨ method = "window/showMessage" then do
    match ← params.fields? [("type", .required), ("message", .required)] with
    | [some type, some message] =>
      let n ← type.int?
      if Decimal.fitsSigned 32 n then return (.ofType n, ← message.string?) else none
    | _ => none
  else none

end EmberClient.Session.Handler
