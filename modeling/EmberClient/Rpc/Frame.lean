import EmberClient.Decimal.Power
import EmberClient.Rpc.Message
import EmberClient.Text.Blank
import EmberClient.Text.Utf8

/-!
# Frames

On the wire a message is a block of header lines, a blank line, and a body of as
many bytes as the header `Content-Length` says. Other headers are accepted and
ignored, so are blank lines in front of the first header.

`Frame.read` takes the bytes that have come so far and whether more can come. It
never guesses: while the end of a message is not there and the stream is open it
answers `waiting`, and with more bytes it reads the same message from its start.
-/

namespace EmberClient.Frame

open Text

/-- What reading the front of a stream gives. -/
inductive Reading where
  /-- A message, and the bytes behind it. -/
  | message (m : Message) (rest : Bytes)
  /-- The stream ended between two messages. -/
  | finished
  /-- The stream is broken here. -/
  | failed (fault : Fault)
  /-- The length asks for more bytes than any body can have, and the reader dies. -/
  | oversized (length : Nat)
  /-- More bytes are needed. -/
  | waiting
  deriving Inhabited

/-- The most bytes that a body can have: the capacity of a vector of bytes. The memory of the
machine is taken to be without bounds, so a body up to this length always finds room. -/
def maxBody : Nat := Decimal.twoTo 63 - 1

/-! ## Writing -/

def header (length : Nat) : Bytes :=
  utf8 ("Content-Length: " ++ toString length ++ "\r\n\r\n")

/-- The bytes of a message. -/
def encode (m : Message) : Bytes :=
  let body := utf8 m.toJson.text
  header body.length ++ body

/-! ## Header lines -/

/-- A line with its line feed, and what follows; `none` while the line may still
go on. At the end of the stream whatever is left is a line. -/
def takeLine (ended : Bool) (input : Bytes) : Option (Bytes × Bytes) :=
  let front := input.takeWhile (· ≠ 10)
  match input.drop front.length with
  | lineFeed :: rest => some (front ++ [lineFeed], rest)
  | [] => if ended then some (front, []) else none

/-- A line takes at least one byte. -/
theorem length_lt_of_takeLine {ended : Bool} {input line rest : Bytes}
    (h : takeLine ended input = some (line, rest)) (more : ¬(ended && input.isEmpty)) :
    rest.length < input.length := by
  simp only [takeLine] at h
  cases tail : input.drop (input.takeWhile (· ≠ 10)).length with
  | cons lineFeed after =>
    have shorter := congrArg List.length tail
    simp only [List.length_drop, List.length_cons] at shorter
    rw [tail] at h
    obtain ⟨-, rfl⟩ := Prod.mk.inj (Option.some.inj h)
    omega
  | nil =>
    rw [tail] at h
    cases ended with
    | false => simp at h
    | true =>
      obtain ⟨-, rfl⟩ := Prod.mk.inj (Option.some.inj h)
      cases input with
      | nil => simp at more
      | cons _ _ => simp

def isLineEnd (c : Char) : Bool := c = '\r' || c = '\n'

/-- A line without the carriage returns and line feeds at its end. -/
def lineContent (line : String) : List Char :=
  dropEndWhile isLineEnd line.toList

/-- A digit or nothing. -/
def digitValue? (c : Char) : Option Nat :=
  if '0' ≤ c ∧ c ≤ '9' then some (c.toNat - '0'.toNat) else none

/-- A natural number below `2 ^ 64` in decimal digits, a plus sign allowed in
front. -/
def word? (cs : List Char) : Option Nat := do
  let digits :=
    match cs with
    | '+' :: rest => rest
    | cs => cs
  if digits.isEmpty then none
  else
    let ds ← digits.mapM digitValue?
    let n := ds.foldl (fun n d => n * 10 + d) 0
    if n < Decimal.twoTo 64 then some n else none

/-- The ASCII letters in lower case. -/
def lower (cs : List Char) : List Char := cs.map Char.toLower

/-- The value of a `Content-Length` line, trimmed; `none` for any other line. -/
def lengthText? (line : List Char) : Option (List Char) :=
  let name := line.takeWhile (· ≠ ':')
  match line.drop name.length with
  | _ :: value =>
    if lower (trimChars name) = "content-length".toList then some (trimChars value) else none
  | [] => none

/-- The length after one more line: what the line says, or what was known. -/
def lengthAfter (line : List Char) (length : Option Nat) : Except Fault (Option Nat) :=
  match lengthText? line with
  | none => .ok length
  | some value =>
    match word? value with
    | some n => .ok (some n)
    | none =>
      .error (.protocol ("invalid Content-Length `" ++ String.ofList value ++ "`"))

/-! ## Reading -/

/-- What the header block of a message gives. -/
inductive Block where
  /-- The block is complete: the last length it names, and the bytes behind it. -/
  | complete (length : Option Nat) (rest : Bytes)
  | finished
  | failed (fault : Fault)
  | waiting

/-- Reads header lines up to the blank line that ends them. `seen` says that a
line that is not blank has been read. -/
def readBlock (ended : Bool) (length : Option Nat) (seen : Bool) (input : Bytes) : Block :=
  if _more : ended && input.isEmpty then
    if seen then .failed (.protocol "stream ended inside message headers") else .finished
  else
    match _h : takeLine ended input with
    | none => .waiting
    | some (line, rest) =>
      match ofUtf8? line with
      | none => .failed (.io .invalidData "stream did not contain valid UTF-8")
      | some text =>
        let content := lineContent text
        if content.isEmpty then
          -- a blank line ends the block, or stands in front of it
          if seen then .complete length rest else readBlock ended length seen rest
        else
          match lengthAfter content length with
          | .error fault => .failed fault
          | .ok length => readBlock ended length true rest
  termination_by input.length
  decreasing_by all_goals exact length_lt_of_takeLine _h _more

/-- The message that a body is. -/
def decodeBody (body : Bytes) : Except Fault Message :=
  match Message.ofBytes? body with
  | some m => .ok m
  | none => .error (.malformed "the body is not a message")

/-- Reads the body of `length` bytes. -/
def readBody (ended : Bool) (length : Nat) (input : Bytes) : Reading :=
  -- room for the whole body is made before any of it is read
  if maxBody < length then .oversized length
  else if input.length < length then
    if ended then .failed (.io .unexpectedEof "early eof") else .waiting
  else
    match decodeBody (input.take length) with
    | .ok m => .message m (input.drop length)
    | .error fault => .failed fault

/-- Reads the message at the front of a stream. -/
def read (ended : Bool) (input : Bytes) : Reading :=
  match readBlock ended none false input with
  | .finished => .finished
  | .failed fault => .failed fault
  | .waiting => .waiting
  | .complete none _ => .failed (.protocol "message is missing Content-Length")
  | .complete (some length) rest => readBody ended length rest

end EmberClient.Frame
