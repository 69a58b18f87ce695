import EmberClient.Command.ClientCommand
import EmberClient.Session.Lifecycle
import EmberClient.Text.Blank

/-!
# Running commands

`execute` runs a command by its name, whoever asks for it: the user, a callback
of another command, or the server. The name is resolved in order:

1. the commands of the client itself,
2. the commands that the current server advertised, and all under `els.`,
3. the commands of the editor.

Interactive commands never fail outward: their failures are shown to the user and
they yield null. Commands that look at files yield null without a word.
-/

namespace EmberClient.Session.Dispatch

open Text

/-- Runs a command on the current server. -/
def executeOnServer (name : String) (arguments : List Json) : Prog (Except Fault Json) := do
  match ← ask .current with
  | none => return .error .notRunning
  | some server => Lifecycle.execute server name arguments

/-- Shows a failure to the user. -/
def contain (outcome : Except Fault Unit) : Prog Unit :=
  match outcome with
  | .ok () => return ()
  | .error fault => ask (.showError fault.message)

/-- Whether a command is for this server: all under `els.` are, and those it
advertised. -/
def belongsTo (server : Nat) (name : String) : Prog Bool := do
  if Command.isServerOwned name then return true
  else
    let commands ← ask (.commands server)
    return commands.contains name

/-- Sends a command to where it belongs: the current server or the editor. -/
def route (name : String) (arguments : List Json) : Prog (Except Fault Json) := do
  match ← ask .current with
  | some server =>
    if ← belongsTo server name then Lifecycle.execute server name arguments
    else ask (.editorCommand name arguments)
  | none =>
    -- what is under `els.` is never the editor's
    if Command.isServerOwned name then return .error .notRunning
    else ask (.editorCommand name arguments)

/-! ## The commands of the client -/

/-- Where a callback is told that it was called from. -/
def context : Prog Json := do
  let view ← ask .view
  return .ofString? view.contextPath

/-- Runs a callback. -/
def callBack (name : String) (arguments : List Json) : Prog (Except Fault Unit) := do
  let result ← ask (.run name arguments)
  return result.map fun _ => ()

/-- Asks the server to scan the project again. -/
def reloadProject : Prog Unit := do
  StatusItem.set StatusItem.reloading
  let outcome ← executeOnServer Command.reloadProject []
  -- whatever came of it, and whether a server runs
  StatusItem.set StatusItem.ready
  contain (outcome.map fun _ => ())

/-- The prompt for a command line. -/
def cliPrompt (prefill : Option String) : InputBoxOptions :=
  { placeHolder := some "Enter ember-cli command", value := prefill }

/-- Asks for a command line and has the server run it; a blank one is not run. -/
def runInCli (prefill : Option String) : Prog (Except Fault Unit) := do
  match ← ask (.prompt (cliPrompt prefill)) with
  | .error fault => return .error fault
  | .ok none => return .ok ()
  | .ok (some input) =>
    if isBlankText input then return .ok ()
    else
      let place ← context
      let outcome ← executeOnServer Command.executeInCli [place, .str input]
      return outcome.map fun _ => ()

/-- Asks for a text and hands it to a callback. -/
def getUserInput (options : InputBoxOptions) (callback : String) (tail : Json) :
    Prog (Except Fault Unit) := do
  match ← ask (.prompt options) with
  | .error fault => return .error fault
  | .ok input =>
    let place ← context
    callBack callback [place, .ofString? input, tail]

/-- Runs a command and hands its result to a callback. -/
def proxyCommand (command : String) (arguments : List Json) (callback : String) (tail : Json) :
    Prog (Except Fault Unit) := do
  match ← ask (.run command arguments) with
  | .error fault => return .error fault
  | .ok result =>
    let place ← context
    callBack callback [place, result, tail]

/-- Asks something about the file that a URI names; null if there is no
answer. -/
def askFile {α : Type} (uri : String) (q : Bytes → Prog (Except IoKind α)) (encode : α → Json) :
    Prog Json := do
  match Uri.toPath? uri with
  | none => return .null
  | some path =>
    match ← q path with
    | .ok a => return encode a
    | .error _ => return .null

/-- The entries of a directory as pairs of name and type. -/
def entriesJson (entries : List (String × FileType)) : Json :=
  .arr (entries.map fun (name, type) => .arr [.str name, .ofNat type.code])

/-- Runs a program whose failure is shown, and yields null. -/
def contained (p : Prog (Except Fault Unit)) : Prog (Except Fault Json) := do
  contain (← p)
  return .ok .null

/-- Runs a command of the client. -/
def run (setup : Setup) : ClientCommand → Prog (Except Fault Json)
  | .reloadProject => do
    reloadProject
    return .ok .null
  | .restartServer => do
    let outcome ← Lifecycle.restart setup
    return outcome.map fun _ => .null
  | .runInCli prefill => contained (runInCli prefill)
  | .getUserInput options callback tail => contained (getUserInput options callback tail)
  | .proxyCommand command arguments callback tail =>
    contained (proxyCommand command arguments callback tail)
  | .openRelatedFile path => contained (ask (.openFile path))
  | .fileText uri => do
    return .ok (← askFile uri (fun p => ask (.content p)) fun bytes => .str (ofUtf8Lossy bytes))
  | .fileStat uri => do
    return .ok (← askFile uri (fun p => ask (.stat p)) FileStat.toJson)
  | .directoryEntries uri => do
    return .ok (← askFile uri (fun p => ask (.entries p)) entriesJson)

/-- Runs a command by its name. -/
def execute (setup : Setup) (name : String) (arguments : List Json) :
    Prog (Except Fault Json) :=
  match ClientCommand.parse name arguments with
  | .ok (some command) => run setup command
  | .ok none => route name arguments
  | .error fault =>
    -- arguments that do not fit are contained like any failure of these commands
    if Command.isInteractive name then do
      contain (.error fault)
      return .ok .null
    else if Command.isFileSystem name then return .ok .null
    else return .error fault

end EmberClient.Session.Dispatch
