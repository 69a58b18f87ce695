import EmberClient.Decimal.Power
import EmberClient.Json.Number
import EmberClient.Json.Record
import EmberClient.ServerState

/-!
# What can go wrong

Every failure of the client is one of the causes of `Fault`, and its wording is
in one place, `Fault.message`. A server reports its own failures as a
`ResponseError`, the error object of a response.
-/

namespace EmberClient

/-- What kind of trouble the operating system reports. -/
inductive IoKind where
  | notFound | notADirectory | isADirectory | invalidInput | invalidData | unexpectedEof
  | filesystemLoop | invalidFilename | other
  deriving DecidableEq, Inhabited

/-- The error object of a response. -/
structure ResponseError where
  code : Int
  message : String
  data : Option Json
  deriving Inhabited

namespace ResponseError

def invalidParamsCode : Int := -32602

def methodNotFoundCode : Int := -32601

def internalCode : Int := -32603

/-- The receiver does not know the method. -/
def methodNotFound (method : String) : ResponseError :=
  ⟨methodNotFoundCode, "unhandled method " ++ method, none⟩

/-- The parameters do not fit the method. -/
def invalidParams (message : String) : ResponseError :=
  ⟨invalidParamsCode, message, none⟩

/-- The method was tried and failed. -/
def internal (message : String) : ResponseError :=
  ⟨internalCode, message, none⟩

/-- The members of the error object; data that is absent is left out. -/
def toJson (e : ResponseError) : Json :=
  .obj ([("code", .ofInt e.code), ("message", .str e.message)] ++
    (e.data.map fun d => ("data", d)).toList)

/-- A code is a whole number in the range of a signed word. -/
def code? (v : Json) : Option Int := do
  let n ← v.int?
  if Decimal.fitsSigned 64 n then some n else none

open Json in
/-- Reads an error object. -/
def ofJson? (v : Json) : Option ResponseError := do
  match ← v.fields? [("code", .required), ("message", .required), ("data", .defaulted)] with
  | [some code, some message, data] =>
    return {
      code := ← code? code
      message := ← message.string?
      data := ← decodeOption passThrough data }
  | _ => none

end ResponseError

/-- Why an operation of the client failed. -/
inductive Fault where
  /-- The operating system refused. -/
  | io (kind : IoKind) (detail : String)
  /-- A payload has not the shape that was asked for. -/
  | malformed (detail : String)
  /-- The framing or the envelope of a message is broken. -/
  | protocol (detail : String)
  /-- The server answered with an error. -/
  | rpc (error : ResponseError)
  /-- The conversation is over. -/
  | connectionClosed
  /-- There is no server. -/
  | notRunning
  /-- The action is not allowed in this state. -/
  | invalidState (state : ServerState) (action : String)
  /-- The server could not be brought up. -/
  | launch (detail : String)
  /-- A command lacks an argument, or it has the wrong shape. -/
  | missingArgument (name : String)
  /-- The editor failed. -/
  | host (message : String)
  deriving Inhabited

/-- The text that a user or a server is shown. -/
def Fault.message : Fault → String
  | .io _ detail => "i/o error: " ++ detail
  | .malformed detail => "malformed payload: " ++ detail
  | .protocol detail => "protocol error: " ++ detail
  | .rpc error => "server error " ++ JsonNumber.intText error.code ++ ": " ++ error.message
  | .connectionClosed => "connection to the language server closed"
  | .notRunning => "language server is not running"
  | .invalidState state action =>
    "cannot " ++ action ++ " while the server is " ++ state.name
  | .launch detail => "failed to launch language server: " ++ detail
  | .missingArgument name => "missing or invalid argument `" ++ name ++ "`"
  | .host message => message

end EmberClient
