import EmberClient.Fault
import EmberClient.Json.Outline
import EmberClient.Json.Writer

/-!
# Messages

One record serves for requests, notifications and responses; which of them a
message is, is seen from the members it has. `Message.incoming` sorts them:

* an id and a method: a request,
* a method alone: a notification,
* an id alone: a response, whose error wins over its result,
* neither: no message of the protocol.

A member that is null counts as absent, in either direction: parameters that are
null are left out, because methods without parameters expect none.
-/

namespace EmberClient

/-- What a request led to: a result, or the error object of the answer. -/
abbrev Outcome := Except ResponseError Json

/-- An envelope. -/
structure Message where
  jsonrpc : String := "2.0"
  id : Option Json := none
  method : Option String := none
  params : Option Json := none
  result : Option Json := none
  error : Option ResponseError := none
  deriving Inhabited

/-- What an incoming message asks for. -/
inductive Incoming where
  | request (id : Json) (method : String) (params : Json)
  | notification (method : String) (params : Json)
  | response (id : Json) (outcome : Outcome)
  deriving Inhabited

namespace Message

/-- A value that is there, or nothing for null. -/
def present : Json → Option Json
  | .null => none
  | v => some v

def request (id : UInt64) (method : String) (params : Json) : Message :=
  { id := some (.ofNat id.toNat), method := some method, params := present params }

def notification (method : String) (params : Json) : Message :=
  { method := some method, params := present params }

def response (id : Json) : Outcome → Message
  | .ok result => { id := some id, result := some result }
  | .error error => { id := some id, error := some error }

/-- Tells what a message is. -/
def incoming (m : Message) : Except Fault Incoming :=
  match m.id, m.method with
  | some id, some method => .ok (.request id method (m.params.getD .null))
  | none, some method => .ok (.notification method (m.params.getD .null))
  | some id, none =>
    .ok (.response id (match m.error with
      | some error => .error error
      | none => .ok (m.result.getD .null)))
  | none, none => .error (.protocol "message has neither id nor method")

open Json in
/-- Reads an envelope; the error object inside must be one. -/
def ofJson? (v : Json) : Option Message := do
  match ← v.fields? [("jsonrpc", .required), ("id", .defaulted), ("method", .defaulted),
      ("params", .defaulted), ("result", .defaulted), ("error", .defaulted)] with
  | [some jsonrpc, id, method, params, result, error] =>
    return {
      jsonrpc := ← jsonrpc.string?
      id := ← decodeOption passThrough id
      method := ← decodeOption string? method
      params := ← decodeOption passThrough params
      result := ← decodeOption passThrough result
      error := ← decodeOption ResponseError.ofJson? error }
  | _ => none

/-- The members of an envelope and of the error object in it. -/
def outline : Json.Outline :=
  .record [("jsonrpc", .whole), ("id", .whole), ("method", .whole), ("params", .whole),
    ("result", .whole),
    ("error", .record [("code", .whole), ("message", .whole), ("data", .whole)])]

/-- Reads an envelope from its bytes. Members that it has not are passed over. -/
def ofBytes? (bytes : Text.Bytes) : Option Message :=
  (Json.readOutlined? outline bytes).bind ofJson?

/-- Writes an envelope; absent members are left out. -/
def toJson (m : Message) : Json :=
  let part (name : String) (v : Option Json) : List (String × Json) :=
    (v.map fun v => (name, v)).toList
  .obj ([("jsonrpc", .str m.jsonrpc)] ++ part "id" m.id ++ part "method" (m.method.map .str) ++
    part "params" m.params ++ part "result" m.result ++
    part "error" (m.error.map ResponseError.toJson))

end Message

end EmberClient
