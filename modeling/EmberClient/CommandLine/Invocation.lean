import EmberClient.CommandLine.Words

/-!
# Invocations

The grammar of the command line: options that hold everywhere, before or after the
name of a subcommand, and what each subcommand takes. `Invocation.ofWords` is what
the words ask for, or why they are not carried out.
-/

namespace EmberClient.CommandLine

/-- Where the files to label come from. -/
inductive LensSource where
  | paths (paths : List String)
  /-- A file with a list of related files in JSON. -/
  | json (file : String)
  deriving DecidableEq

inductive Subcommand where
  /-- Tells whether the workspace holds a project. -/
  | detect
  /-- Labels files without a server. -/
  | lenses (active : String) (source : LensSource)
  /-- Asks the server for the related files of a document. -/
  | related (file : String)
  /-- Asks the server where the entity of a document is used. -/
  | usages (file : String)
  deriving DecidableEq

/-- What a command line asks for. -/
structure Invocation where
  /-- The root of the workspace; the current directory if none is given. -/
  root : Option String
  /-- A file with settings that go over those of the workspace. -/
  config : Option String
  verbose : Bool
  subcommand : Subcommand
  deriving DecidableEq

/-! ## The grammar -/

/-- The options that hold everywhere. -/
def globalFlags : List Flag := [
  { name := "root", kind := .value false
    about := "Workspace root (default: current directory)" },
  { name := "config", letter := some 'c', kind := .value false
    about := "Extra configuration file layered over the workspace's .els.toml" },
  { name := "verbose", letter := some 'v', kind := .switch
    about := "Log debug output to stderr" }]

def helpFlag (subcommand : Option String) : Flag :=
  { name := "help", letter := some 'h', kind := .stop (.help subcommand), about := "Print help" }

def versionFlag : Flag :=
  { name := "version", letter := some 'V', kind := .stop .version, about := "Print version" }

/-- The subcommands with what they do. -/
def subcommands : List (String × String) := [
  ("detect", "Check whether the workspace is an Ember project"),
  ("lenses", "Label related files without a server"),
  ("related", "Show the related files of a document"),
  ("usages", "Show where the entity defined by a document is used")]

/-- The name under which help on a subcommand is asked for. -/
def helpName : String := "help"

/-- The words before the name of a subcommand. -/
def topLevel : Level :=
  { flags := globalFlags ++ [helpFlag none, versionFlag]
    subcommands := subcommands.map (·.1) ++ [helpName] }

/-- The words after the name of a subcommand. -/
def levelOf (subcommand : String) : Level :=
  let own : List Flag :=
    if subcommand = "lenses" then [
      { name := "active", letter := some 'a', kind := .value true
        about := "Path of the document the lenses are shown in" },
      { name := "json", kind := .value false
        about := "JSON array of related files, as paths or \x7bpath, meta\x7d entries" }]
    else []
  let room :=
    if subcommand = "lenses" then none
    else if subcommand = "detect" then some 0
    else some 1
  { flags := own ++ globalFlags ++ [helpFlag (some subcommand)], room }

/-! ## Reading -/

/-- What the words after the name of a subcommand make of it. -/
def Subcommand.ofGiven (name : String) (g : Given) : Except Stop Subcommand :=
  match name, g.operands with
  | "detect", [] => .ok .detect
  | "related", [file] => .ok (.related file)
  | "usages", [file] => .ok (.usages file)
  | "lenses", paths =>
    match g.value? "active", g.value? "json", paths with
    | some active, some file, [] => .ok (.lenses active (.json file))
    | some active, none, p :: more => .ok (.lenses active (.paths (p :: more)))
    | _, _, _ => .error .misuse
  | _, _ => .error .misuse

/-- What asking for help on these names comes to. -/
def helpOn : List String → Stop
  | [] => .help none
  | [name] => if topLevel.subcommands.contains name then .help (some name) else .misuse
  | _ => .misuse

/-- What words ask for. An option after the name of the subcommand goes before the
same option in front of it. -/
def Invocation.ofWords (words : List String) : Except Stop Invocation := do
  let (before, rest) ← topLevel.scan words
  match rest with
  | [] => throw .misuse
  | name :: rest =>
    if name = helpName then throw (helpOn rest)
    let (after, _) ← (levelOf name).scan rest
    let subcommand ← Subcommand.ofGiven name after
    return {
      root := (after.value? "root").or (before.value? "root")
      config := (after.value? "config").or (before.value? "config")
      verbose := after.has "verbose" || before.has "verbose"
      subcommand }

/-! ## Texts -/

/-- The version of the program. -/
def versionText : String := "els 0.1.0\n"

/-- A column of names, padded to one width, with what they stand for. -/
def column (rows : List (String × String)) : String :=
  let width := (rows.map fun r => r.1.length).foldl max 0
  String.join (rows.map fun (name, about) =>
    "  " ++ name ++ String.ofList (List.replicate (width + 2 - name.length) ' ') ++ about ++ "\n")

/-- How an option is written. -/
def Flag.usage (f : Flag) : String :=
  let letter :=
    match f.letter with
    | some c => "-" ++ c.toString ++ ", "
    | none => "    "
  letter ++ "--" ++ f.name ++ (if f.takesValue then " <" ++ f.name ++ ">" else "")

/-- Help on a subcommand, or on all of it. -/
def helpText (subcommand : Option String) : String :=
  let options (flags : List Flag) :=
    "\nOptions:\n" ++ column (flags.map fun f => (f.usage, f.about))
  match subcommand with
  | none =>
    "Ember language server integration\n\nUsage: els [OPTIONS] <COMMAND>\n\nCommands:\n" ++
      column (subcommands ++
        [(helpName, "Print this message or the help of the given subcommand(s)")]) ++
      options topLevel.flags
  | some name =>
    let about := ((subcommands.find? fun s => s.1 = name).map (·.2)).getD ""
    about ++ "\n\nUsage: els " ++ name ++ " [OPTIONS]\n" ++ options (levelOf name).flags

end EmberClient.CommandLine
