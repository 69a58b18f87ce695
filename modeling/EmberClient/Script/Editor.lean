import EmberClient.Session.Basic
import EmberClient.Terminal

/-!
# An editor by script

An editor whose answers are written down: a queue for its prompts, and what comes
of its commands. Where there is no editor, the terminal takes its place.
-/

namespace EmberClient.Script

/-- What the user does at a prompt. -/
inductive Typing where
  | typed (text : String)
  | dismissed
  /-- The prompt fails. -/
  | failed (text : String)
  /-- The prompt stays open for ever. -/
  | hang

/-- What a prompt answers; nothing if it stays open. -/
def Typing.answer? : Typing → Option (Except Fault (Option String))
  | .typed text => some (.ok (some text))
  | .dismissed => some (.ok none)
  | .failed text => some (.error (.host text))
  | .hang => none

/-- What comes of a command of the editor. -/
inductive CommandAnswer where
  | result (value : Json)
  /-- The arguments are the result. -/
  | echo
  | error (text : String)

structure EditorScript where
  typing : List Typing := []
  commands : List (String × CommandAnswer) := []
  /-- The text with which opening a file fails. -/
  openError : Option String := none
  deriving Inhabited

namespace EditorScript

/-- What comes of a command. -/
def run (e : EditorScript) (name : String) (arguments : List Json) : Except Fault Json :=
  match e.commands.find? fun c => c.1 = name with
  | some (_, .result v) => .ok v
  | some (_, .echo) => .ok (.arr arguments)
  | some (_, .error text) => .error (.host text)
  | none => .error (.host ("command '" ++ name ++ "' not found"))

/-- What comes of opening a file. -/
def openFile (e : EditorScript) : Except Fault Unit :=
  match e.openError with
  | some text => .error (.host text)
  | none => .ok ()

/-- What the user does at the next prompt. -/
def nextTyping (e : EditorScript) : Typing × EditorScript :=
  match e.typing with
  | [] => (.dismissed, e)
  | t :: rest => (t, { e with typing := rest })

end EditorScript

/-- What sessions on a stage have for an editor. -/
inductive Editor where
  | scripted (script : EditorScript)
  | terminal (terminal : Terminal)

instance : Inhabited Editor := ⟨.scripted {}⟩

namespace Editor

/-- What comes of a command. -/
def run : Editor → String → List Json → Except Fault Json
  | .scripted script, name, arguments => script.run name arguments
  | .terminal _, name, _ => .error (Terminal.commandFault name)

/-- What comes of opening a file. -/
def openFile : Editor → Except Fault Unit
  | .scripted script => script.openFile
  | .terminal _ => .ok ()

/-- What a prompt answers; nothing if it stays open. -/
def prompt : Editor → InputBoxOptions → Option (Except Fault (Option String)) × Editor
  | .scripted script, _ =>
    let (typing, script) := script.nextTyping
    (typing.answer?, .scripted script)
  | .terminal t, options =>
    let (answer, t) := t.prompt options
    (some answer, .terminal t)

/-- Adds to what a user by script will do. -/
def addTyping (typing : Typing) : Editor → Editor
  | .scripted script => .scripted { script with typing := script.typing ++ [typing] }
  | .terminal t => .terminal t

end Editor

end EmberClient.Script
