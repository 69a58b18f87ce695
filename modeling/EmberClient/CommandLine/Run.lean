import EmberClient.CommandLine.Invocation
import EmberClient.Json.Reader
import EmberClient.Script.Stage
import EmberClient.Settings.Layer

/-!
# Running a command line

What a command line prints and how it ends, for given surroundings: the files, the
input, and what starting a program leads to. A query is a session of its own: it is
activated, asked once, and stopped; the terminal is its editor.
-/

namespace EmberClient.CommandLine

open Text Script

/-- Where a command line runs. -/
structure Surroundings where
  /-- The files, seen from the current directory. -/
  files : FileSystem
  /-- What each read of the input hands over. -/
  input : List Bytes := []
  /-- What starting a program leads to. -/
  programs : LaunchCommand → LaunchScript
  /-- The number of the process. -/
  processId : Nat := 1

/-- How a command line ended. -/
structure Outcome where
  /-- The exit code; none if the end never comes. -/
  code : Option Nat
  output : String := ""
  /-- What servers received. -/
  received : List Message := []

namespace Outcome

def success (output : String) : Outcome := { code := some 0, output }

def failure (output : String) : Outcome := { code := some 1, output }

/-- The command line was not understood. -/
def misuse : Outcome := { code := some 2 }

end Outcome

/-- Lines of output, each with its end. -/
def lines (list : List String) : String := String.join (list.map fun l => l ++ "\n")

/-! ## Without a server -/

/-- Tells whether the workspace holds a project. -/
def detect (s : Surroundings) (root : String) : Outcome :=
  match ProjectKind.detect s.files (utf8 root) with
  | .ok (some kind) => .success (lines [root ++ ": " ++ kind.name ++ " project"])
  | .ok none => .failure (lines [root ++ ": not an ember project"])
  | .error _ => .failure ""

/-- The files to label; none if they cannot be read. -/
def LensSource.files? (s : Surroundings) : LensSource → Option (List RelatedFile)
  | .paths list => some (list.map .legacy)
  | .json file => do
    let content ← (s.files.content (utf8 file)).toOption
    RelatedFile.listOfJson? (← Json.read? (← ofUtf8? content))

/-- How a labelled file is printed. -/
def labelLine (label path : String) : String := "[" ++ label ++ "]\t" ++ path

/-- Labels files. -/
def label (s : Surroundings) (active : String) (source : LensSource) : Outcome :=
  match source.files? s with
  | some files =>
    .success (lines ((RelatedFile.classify active files).map fun e => labelLine e.label e.path))
  | none => .failure ""

/-! ## Queries -/

/-- Something that a server is asked about a document. -/
inductive Query where
  | related | usages
  deriving DecidableEq

/-- The job that answers a query. Related files are shown as lenses where those are
on. -/
def Query.job (settings : ClientSettings) (document : String) : Query → Session.Job
  | .related => if settings.relatedFiles then .lenses document else .relatedFiles document
  | .usages => .children (Session.View.Follower.editorChanged {} (some document))

/-- How the answer to a query is printed. -/
def answerLines : Session.Result → List String
  | .lenses list => (list.getD []).map fun l => labelLine l.title l.path
  | .nodes list => list.map fun n => n.label ++ "\t" ++ n.description ++ "\t" ++ n.path
  | _ => []

/-- What the terminal prints of what the editor is made to show: the paths of files
to open. -/
def printed (shown : List Session.EditorEvent) : String :=
  lines (shown.filterMap fun
    | .opened path => some path
    | _ => none)

/-- The stage for a query: one session, with the terminal for an editor. -/
def stage (s : Surroundings) (setup : Setup) (document : String) : Stage :=
  let terminal : Terminal := { root := setup.root, active := some document, input := s.input }
  { editor := .terminal terminal
    launches := [s.programs (LaunchCommand.ofSettings setup.settings setup.root)]
    scenes := [{ session := { setup, files := s.files, view := terminal.view } }] }

/-- The session of a query has a server. -/
def hasServer (stage : Stage) : Bool :=
  stage.scenes.any fun scene => scene.session.slot.isSome

/-- How a query ends that has come this far. -/
def ended (stage : Stage) (code : Option Nat) (output : String) : Outcome :=
  { code, output, received := stage.wire.map (·.2) }

/-- Stops the session of a query, with an exit code and an output so far. -/
def finish (asked : Stage) (code : Nat) (output : String) : Outcome :=
  let (stopped, done) := asked.perform 0 .stop
  ended stopped (done.map fun _ => code)
    (output ++ printed (stopped.shown.drop asked.shown.length))

/-- Asks a server about a document. -/
def ask (s : Surroundings) (setup : Setup) (document : String) (query : Query) : Outcome :=
  let (active, activated) := (stage s setup document).perform 0 .activate
  match activated with
  | some (.activated (some _)) =>
    if hasServer active then
      let (asked, answer) := active.perform 0 (query.job setup.settings document)
      let output := printed asked.shown
      match answer with
      | some answer => finish asked 0 (output ++ lines (answerLines answer))
      | none => ended asked none output
    else finish active 1 (printed active.shown)
  | some _ => ended active (some 1) (printed active.shown)
  | none => ended active none (printed active.shown)

/-- Loads the settings of the workspace and of a file, and asks. -/
def answer (s : Surroundings) (root : String) (config : Option String) (file : String)
    (query : Query) : Outcome :=
  let layers := Layer.workspace root :: (config.map Layer.file).toList
  match ClientSettings.load s.files layers [] with
  | .error _ => .failure ""
  | .ok settings =>
    ask s { settings, root, processId := s.processId } (Path.joinText root file) query

/-! ## All of it -/

/-- Carries out what a command line asks for. -/
def Invocation.run (s : Surroundings) (i : Invocation) : Outcome :=
  let root := i.root.getD s.files.directory
  match i.subcommand with
  | .detect => detect s root
  | .lenses active source => label s active source
  | .related file => answer s root i.config file .related
  | .usages file => answer s root i.config file .usages

/-- Runs a command line. -/
def run (s : Surroundings) (words : List String) : Outcome :=
  match Invocation.ofWords words with
  | .ok invocation => invocation.run s
  | .error .misuse => .misuse
  | .error .version => .success versionText
  | .error (.help subcommand) => .success (helpText subcommand)

end EmberClient.CommandLine
