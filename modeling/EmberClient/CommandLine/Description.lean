import EmberClient.CommandLine.Run
import EmberClient.Script.Format

/-!
# Written surroundings

Surroundings as a JSON object: `directory` is the current one, `files` the tree
below it, `input` the text on the standard input, and `servers` tells by the name of
a program what starting it leads to. No other program is there.
-/

namespace EmberClient.CommandLine

open Text Script

/-- The current directory when none is given. -/
def Surroundings.defaultDirectory : String := "/workspace"

/-- What starting a program leads to, where these are there. -/
def launchAmong (servers : List (String × Json)) (command : LaunchCommand) : LaunchScript :=
  match servers.find? fun server => server.1 = command.program with
  | some (_, v) => .ofJson v
  | none => .fails (command.program ++ ": no such program")

/-- The surroundings that a JSON value stands for. -/
def Surroundings.ofJson (v : Json) : Surroundings :=
  let members (key : String) :=
    match v.member? key with
    | some (.obj members) => members
    | _ => []
  let directory := ((v.member? "directory").bind Json.string?).getD defaultDirectory
  let input := ((v.member? "input").bind Json.string?).getD ""
  { files := { root := (FileNode.directory []).insertListing directory (members "files"), directory }
    input := Terminal.reads (utf8 input)
    programs := launchAmong (members "servers") }

end EmberClient.CommandLine
