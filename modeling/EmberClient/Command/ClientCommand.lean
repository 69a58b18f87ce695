import EmberClient.Command.Name
import EmberClient.Fault
import EmberClient.InputBox

/-!
# Commands that the client runs itself

`ClientCommand.parse` reads a name and positional arguments. It answers `none`
for a name that is not the client's, and a fault only for a name of the client's
whose arguments do not fit. Of two arguments that do not fit, the first is named.
-/

namespace EmberClient

inductive ClientCommand where
  /-- A click on the status item: the server is asked to scan the project again. -/
  | reloadProject
  | restartServer
  /-- Asks for a command line and runs it. -/
  | runInCli (prefill : Option String)
  /-- Asks for a text and hands it to the command `callback`. -/
  | getUserInput (options : InputBoxOptions) (callback : String) (tail : Json)
  /-- Runs a command and hands its result to the command `callback`. -/
  | proxyCommand (command : String) (arguments : List Json) (callback : String) (tail : Json)
  | openRelatedFile (path : String)
  /-- The text of a file. -/
  | fileText (uri : String)
  /-- What is known about a file. -/
  | fileStat (uri : String)
  /-- The entries of a directory. -/
  | directoryEntries (uri : String)
  deriving Inhabited

namespace ClientCommand

/-- The text argument at a place. -/
def textArgument (arguments : List Json) (index : Nat) (name : String) : Except Fault String :=
  match (arguments[index]?).bind Json.string? with
  | some s => .ok s
  | none => .error (.missingArgument name)

/-- The texts joined, if all of them are texts. -/
def joinTexts? (parts : List Json) : Option String :=
  (parts.mapM Json.string?).map String.join

/-- The path to open. It comes as one text, as one text per character, or as one
array of such texts; the pieces are joined, and there must be something in
them. -/
def pathArgument (arguments : List Json) : Except Fault String :=
  let parts :=
    match arguments with
    | [.arr parts] => parts
    | parts => parts
  match joinTexts? parts with
  | some path => if path = "" then .error (.missingArgument "path") else .ok path
  | none => .error (.missingArgument "path")

/-- The options of a prompt; absent or null they are the usual ones. -/
def optionsArgument : Option Json → Except Fault InputBoxOptions
  | none | some .null => .ok {}
  | some v =>
    match InputBoxOptions.ofJson? v with
    | some options => .ok options
    | none => .error (.missingArgument "options")

/-- The arguments to pass on: an array, one value, or nothing. -/
def passedArguments : Option Json → List Json
  | none | some .null => []
  | some (.arr items) => items
  | some v => [v]

/-- Reads a command of the client's. -/
def parse (name : String) (arguments : List Json) : Except Fault (Option ClientCommand) := do
  if name = Command.setStatusBarText then return some .reloadProject
  else if name = Command.restartServer then return some .restartServer
  else if name = Command.runInCli then
    return some (.runInCli (arguments.head?.bind Json.string?))
  else if name = Command.getUserInput then
    let options ← optionsArgument arguments.head?
    let callback ← textArgument arguments 1 "callbackCommandName"
    return some (.getUserInput options callback (arguments[2]?.getD .null))
  else if name = Command.proxyCommand then
    let command ← textArgument arguments 0 "commandName"
    let callback ← textArgument arguments 2 "callbackCommandName"
    return some (.proxyCommand command (passedArguments arguments[1]?) callback
      (arguments[3]?.getD (.obj [])))
  else if name = Command.openRelatedFile then
    return some (.openRelatedFile (← pathArgument arguments))
  else if name = Command.readFile then
    return some (.fileText (← textArgument arguments 0 "uri"))
  else if name = Command.stat then
    return some (.fileStat (← textArgument arguments 0 "uri"))
  else if name = Command.readDirectory then
    return some (.directoryEntries (← textArgument arguments 0 "uri"))
  else return none

end ClientCommand

end EmberClient
