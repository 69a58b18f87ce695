import EmberClient.FileSystem.Listing
import EmberClient.Script.Server

/-!
# Written servers

The script of a server as a JSON object. `commands` lists what the server
advertises; `on` holds, under the name of a command or a method, one list of moves
for each message of that name. A move is an object with one member.
-/

namespace EmberClient.Script

/-- The move that a JSON value stands for; what is not known ends the server. -/
def Move.ofJson : Json → Move
  | .obj [(name, argument)] =>
    match name with
    | "result" => .result argument
    | "error" => .error argument
    | "echo" => .echo
    | "reply" =>
      match argument with
      | .obj members => .reply members
      | _ => .reply []
    | "send" => .send argument
    | "raw" => .raw argument.bytes
    | "ask" =>
      .ask (((argument.member? "method").bind Json.string?).getD "") (argument.member? "params")
    | "answer" => .answer
    | "close" => .close
    | _ => .exit
  | _ => .exit

/-- The items of a list; none if the value is no list. -/
def itemsOf (v : Json) : List Json := v.items?.getD []

/-- The script that a JSON value stands for. -/
def ServerScript.ofJson (v : Json) : ServerScript :=
  { commands := (itemsOf ((v.member? "commands").getD .null)).filterMap Json.string?
    moves :=
      match v.member? "on" with
      | some (.obj members) =>
        members.map fun (name, lists) =>
          (name, (itemsOf lists).map fun moves => (itemsOf moves).map Move.ofJson)
      | _ => [] }

/-- What is written down for a launch: a text under `fail`, or the script of a
server. -/
def LaunchScript.ofJson (v : Json) : LaunchScript :=
  match v.member? "fail" with
  | some text => .fails (text.string?.getD "")
  | none => .serves (ServerScript.ofJson v)

end EmberClient.Script
