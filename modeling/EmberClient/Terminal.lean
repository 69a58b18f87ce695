import EmberClient.EditorView
import EmberClient.Fault
import EmberClient.InputBox
import EmberClient.Text.Utf8

/-!
# The terminal

An editor that is only a terminal. A prompt is answered by a line of the input,
opening a file prints its path, and there are no commands besides the client's.

The input comes in pieces, one per read. A prompt reads pieces until one of them
ends its line; what that piece holds beyond the line is lost, because every prompt
reads ahead for itself and keeps nothing. So the next prompt begins with the next
piece.
-/

namespace EmberClient

open Text

structure Terminal where
  /-- The root of the workspace, which is its only folder. -/
  root : String
  /-- The document that counts as the open one. -/
  active : Option String := none
  /-- What each read of the input will hand over. -/
  input : List Bytes := []
  deriving Inhabited

namespace Terminal

/-- The workspace as the terminal reports it. -/
def view (t : Terminal) : EditorView := ⟨some t.root, [t.root], t.active⟩

/-- A command that is not the client's own is not there. -/
def commandFault (name : String) : Fault :=
  .host ("command '" ++ name ++ "' is not available in the terminal")

/-! ## Input -/

/-- What one read hands over at most, in bytes. -/
def readSize : Nat := 8192

/-- Cuts bytes into pieces of a size; the last one may be shorter. -/
def cut (size : Nat) (bytes : Bytes) : List Bytes :=
  if _h : size = 0 ∨ bytes = [] then [] else bytes.take size :: cut size (bytes.drop size)
  termination_by bytes.length
  decreasing_by
    obtain ⟨positive, nonempty⟩ := not_or.mp _h
    have := List.length_pos_iff.mpr nonempty
    rw [List.length_drop]
    omega

/-- The reads of an input that is all there from the beginning. -/
def reads (bytes : Bytes) : List Bytes := cut readSize bytes

/-- The byte that ends a line. -/
def lineFeed : UInt8 := 10

/-- The beginning of a piece up to the end of its first line; none if no line ends
in it. -/
def firstLine? : Bytes → Option Bytes
  | [] => none
  | b :: rest => if b = lineFeed then some [b] else (firstLine? rest).map (b :: ·)

/-- Reads a line: its bytes, with the line feed if there is one, and the reads that
are left. The line is empty when the input has ended. -/
def line : List Bytes → Bytes × List Bytes
  | [] => ([], [])
  | piece :: rest =>
    match firstLine? piece with
    | some l => (l, rest)
    | none =>
      let (l, left) := line rest
      (piece ++ l, left)

/-- A line without the characters that end it. -/
def withoutEnd (text : String) : String :=
  String.ofList (text.toList.reverse.dropWhile fun c => c = '\r' || c = '\n').reverse

/-- Asks for a text. An empty line stands for what the box holds when it opens, and
the end of the input dismisses the prompt. -/
def prompt (t : Terminal) (options : InputBoxOptions) :
    Except Fault (Option String) × Terminal :=
  let (l, input) := line t.input
  let answer :=
    if l.isEmpty then .ok none
    else
      match ofUtf8? l with
      | none => .error (.io .invalidData "stream did not contain valid UTF-8")
      | some text =>
        let typed := withoutEnd text
        .ok (if typed.isEmpty then options.value else some typed)
  (answer, { t with input })

end Terminal

end EmberClient
