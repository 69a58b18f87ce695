import EmberClient.Json.Basic

/-!
# The settings of the client

`ClientSettings` is what the client runs with: whether related files are shown,
and how the language server is started. In this shape they are also sent to the
server, with names in camel case.
-/

namespace EmberClient

/-- How the server can be debugged. -/
structure DebugSettings where
  enabled : Bool
  port : Nat
  deriving DecidableEq

/-- How the server is started. -/
structure ServerSettings where
  command : String
  args : List String
  /-- The editor that the server is told it works for. -/
  editor : String
  debug : DebugSettings
  deriving DecidableEq

structure ClientSettings where
  /-- Whether lenses for related files are shown and style files are watched. -/
  relatedFiles : Bool
  server : ServerSettings
  deriving DecidableEq

namespace ClientSettings

/-- The extensions of files that the server always hears about. -/
def baseExtensions : List String := ["js", "ts", "hbs"]

/-- The extensions of style files, which only related files need. -/
def styleExtensions : List String := ["less", "scss", "css"]

/-- The languages that the server works on. -/
def documentSelector : List String := ["handlebars", "javascript", "typescript"]

/-- The languages whose documents can have related files. -/
def lensLanguages : List String :=
  ["javascript", "typescript", "handlebars", "css", "less", "scss"]

/-- The extensions of files whose changes are reported to the server. -/
def syncExtensions (s : ClientSettings) : List String :=
  baseExtensions ++ (if s.relatedFiles then styleExtensions else [])

/-- The pattern of files whose changes are reported to the server. -/
def fileWatchGlob (s : ClientSettings) : String :=
  "**/*.\x7b" ++ String.intercalate "," s.syncExtensions ++ "\x7d"

/-- The languages whose documents get lenses. -/
def codeLensLanguages (s : ClientSettings) : List String :=
  if s.relatedFiles then lensLanguages else []

/-- The port that a debugger can connect to. -/
def debugPort (s : ClientSettings) : Option Nat :=
  if s.server.debug.enabled then some s.server.debug.port else none

/-- The settings as they are sent to the server. -/
def toJson (s : ClientSettings) : Json :=
  .object [
    ("codeLens", .object [("relatedFiles", .bool s.relatedFiles)]),
    ("server", .object [
      ("command", .str s.server.command),
      ("args", .arr (s.server.args.map .str)),
      ("editor", .str s.server.editor),
      ("debug", .object [
        ("enabled", .bool s.server.debug.enabled),
        ("port", .ofNat s.server.debug.port)])])]

end ClientSettings

/-- A program to start: its name, its arguments and the directory it works in. -/
structure LaunchCommand where
  program : String
  arguments : List String
  directory : String
  deriving DecidableEq

namespace LaunchCommand

/-- How the server is started for settings. For debugging, the options of the
inspector come before the arguments. -/
def ofSettings (s : ClientSettings) (directory : String) : LaunchCommand :=
  let inspector :=
    match s.debugPort with
    | some port => ["--nolazy", "--inspect=" ++ toString port]
    | none => []
  { program := s.server.command, arguments := inspector ++ s.server.args, directory }

end LaunchCommand

end EmberClient
