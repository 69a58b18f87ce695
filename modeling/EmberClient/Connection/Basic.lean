import EmberClient.Rpc.Frame

/-!
# One conversation with a server

A connection is shared by many: callers that send requests and wait, a reader
that takes messages from the server, a writer that sends what is queued, and one
handler for each request of the server. `Connection` is all they share, and where
each of them stands.

Every operation here is one access to what is shared: the counter of ids, the
entries of the callers that wait (`pending`), the closing mark (`closed`), or the
queue. Two participants may interleave between any two of them, so a caller that
enters its id *before* it looks at the mark, and a reader that sets the mark
*before* it clears the entries, are what keeps a caller from waiting for ever.
-/

namespace EmberClient

open Text

/-- What became of an entry of a caller that waits. -/
inductive Answer where
  /-- The first response with the caller's id. -/
  | response (outcome : Outcome)
  /-- The entry was cleared when the connection closed. -/
  | dropped
  deriving Inhabited

/-- The result that an answer means to its caller. -/
def Answer.result : Answer → Except Fault Json
  | .response (.ok v) => .ok v
  | .response (.error e) => .error (.rpc e)
  | .dropped => .error .connectionClosed

/-- Where a caller stands in sending a request. -/
inductive Caller where
  /-- It has no id yet. -/
  | fresh (method : String) (params : Json)
  /-- It has an id, not yet entered. -/
  | numbered (id : UInt64) (method : String) (params : Json)
  /-- Its id is entered; it has not looked at the closing mark. -/
  | entered (id : UInt64) (method : String) (params : Json)
  /-- It saw no closing mark; its request is not queued yet. -/
  | admitted (id : UInt64) (method : String) (params : Json)
  /-- It must take its entry back, and fail. -/
  | refused (id : UInt64)
  /-- Its request is queued; it waits for the answer. -/
  | waiting (id : UInt64)
  /-- It is done. -/
  | finished (result : Except Fault Json)
  /-- It stopped waiting. Its entry stays, and an answer will find nobody. -/
  | abandoned
  deriving Inhabited

/-- A caller that may still take steps. -/
def Caller.isOpen : Caller → Bool
  | .finished _ | .abandoned => false
  | _ => true

/-- Where the reader stands. -/
inductive Reader where
  | reading
  /-- It has set the closing mark and not yet cleared the entries. -/
  | closing
  | ended
  /-- It died while it made room for a body, and closed nothing. -/
  | dead
  deriving DecidableEq, Inhabited

/-- Where giving up the connection stands. -/
inductive Release where
  | held
  /-- The reader and the writer are stopped. -/
  | stopping
  /-- The closing mark is set and the entries are not yet cleared. -/
  | closing
  | released
  deriving DecidableEq, Inhabited

/-- All that the participants share. -/
structure Connection where
  nextId : UInt64 := 1
  /-- The entries of callers that wait: an id, and the caller's place. -/
  pending : List (UInt64 × Nat) := []
  /-- What became of entries, by the places of callers that have not looked yet. -/
  answers : List (Nat × Answer) := []
  /-- The closing mark. Once set it stays. -/
  closed : Bool := false
  /-- Messages that the writer has not taken. -/
  queue : List Message := []
  /-- The writer is there to take them. -/
  writing : Bool := true
  /-- What the server has been sent, in order. -/
  written : List Message := []
  /-- The server still takes what is sent. -/
  serverReads : Bool := true
  /-- Bytes from the server that the reader has not taken. -/
  input : Bytes := []
  /-- The server has closed its output behind them. -/
  inputEnded : Bool := false
  reader : Reader := .reading
  release : Release := .held
  callers : List Caller := []
  /-- The ids of the server's requests, in order, each until it is answered. -/
  requests : List (Option Json) := []
  deriving Inhabited

namespace Connection

/-! ## Callers -/

/-- The method under which a server runs a command. -/
def executeMethod : String := "workspace/executeCommand"

/-- The parameters for running a command. -/
def executeParams (command : String) (arguments : List Json) : Json :=
  .object [("command", .str command), ("arguments", .arr arguments)]

/-- Takes the next id. -/
def allocate (c : Connection) : UInt64 × Connection :=
  (c.nextId, { c with nextId := c.nextId + 1 })

/-- Drops entries; their callers learn that the connection closed. -/
def dropEntries (c : Connection) (isDropped : UInt64 × Nat → Bool) : Connection :=
  { c with
    pending := c.pending.filter fun e => !isDropped e
    -- before older answers, so that the last one is found first
    answers := (c.pending.filter isDropped).map (fun e => (e.2, Answer.dropped)) ++ c.answers }

/-- Enters a caller under its id. An entry that stood under it is dropped. -/
def enter (c : Connection) (id : UInt64) (place : Nat) : Connection :=
  let c := c.dropEntries fun e => e.1 = id
  { c with pending := (id, place) :: c.pending }

/-- Takes the entry under an id back. -/
def withdraw (c : Connection) (id : UInt64) : Connection := c.dropEntries fun e => e.1 = id

/-- Queues a message; `none` when the writer is gone. -/
def enqueue (c : Connection) (m : Message) : Option Connection :=
  if c.writing then some { c with queue := c.queue ++ [m] } else none

/-- What became of the entry of the caller at this place. -/
def answer? (c : Connection) (place : Nat) : Option Answer :=
  (c.answers.find? fun a => a.1 = place).map (·.2)

/-- The next step of the caller at this place: its one access to what is shared,
and where it stands after that. `none` while it has to wait, and after the end. -/
def stepCaller (c : Connection) (place : Nat) : Caller → Option (Connection × Caller)
  | .fresh method params =>
    let (id, c) := c.allocate
    some (c, .numbered id method params)
  | .numbered id method params => some (c.enter id place, .entered id method params)
  | .entered id method params =>
    some (c, if c.closed then .refused id else .admitted id method params)
  | .admitted id method params =>
    match c.enqueue (.request id method params) with
    | some c => some (c, .waiting id)
    | none => some (c, .refused id)
  | .refused id => some (c.withdraw id, .finished (.error .connectionClosed))
  | .waiting _ =>
    match c.answer? place with
    | some answer =>
      some ({ c with answers := c.answers.filter fun a => a.1 ≠ place }, .finished (answer.result))
    | none => none
  | .finished _ => none
  | .abandoned => none

/-- Sends a notification; it fails only when the writer is gone. -/
def notify (c : Connection) (method : String) (params : Json) : Except Fault Connection :=
  match c.enqueue (.notification method params) with
  | some c => .ok c
  | none => .error .connectionClosed

/-! ## The reader -/

/-- What the reader hands on. -/
inductive Event where
  /-- A request of the server, by its place among its requests. -/
  | request (place : Nat) (method : String) (params : Json)
  | notification (method : String) (params : Json)

/-- Hands a response to the caller that waits under its id. A response whose id
is no unsigned word, or under which nobody waits, changes nothing. -/
def deliver (c : Connection) (id : Json) (outcome : Outcome) : Connection :=
  match id.word? with
  | none => c
  | some id =>
    match c.pending.find? fun e => e.1 = id with
    | none => c
    | some (_, place) =>
      { c with
        pending := c.pending.filter fun e => e.1 ≠ id
        answers := (place, .response outcome) :: c.answers }

/-- Deals with one message of the server. A message that is none is dropped. -/
def accept (c : Connection) (m : Message) : Connection × List Event :=
  match m.incoming with
  | .ok (.response id outcome) => (c.deliver id outcome, [])
  | .ok (.request id method params) =>
    ({ c with requests := c.requests ++ [some id] },
      [.request c.requests.length method params])
  | .ok (.notification method params) => (c, [.notification method params])
  | .error _ => (c, [])

/-- Sets the closing mark. -/
def markClosed (c : Connection) : Connection := { c with closed := true }

/-- Clears the entries; those who wait learn that the connection closed. -/
def clearPending (c : Connection) : Connection := c.dropEntries fun _ => true

/-- The reader takes the next message, or comes to its end. -/
def read (c : Connection) : Option (Connection × List Event) :=
  match c.reader with
  | .reading =>
    match Frame.read c.inputEnded c.input with
    | .message m rest => some ({ c with input := rest }.accept m)
    | .finished | .failed _ => some ({ c.markClosed with reader := .closing }, [])
    | .oversized _ => some ({ c with reader := .dead }, [])
    | .waiting => none
  | .closing => some ({ c.clearPending with reader := .ended }, [])
  | .ended | .dead => none

/-! ## The writer and the handlers -/

/-- The writer sends the next message. If the server no longer reads, the message
and all behind it are lost and the writer ends. -/
def write (c : Connection) : Option Connection :=
  match c.writing, c.queue with
  | true, m :: rest =>
    if c.serverReads then some { c with queue := rest, written := c.written ++ [m] }
    else some { c with queue := [], writing := false }
  | _, _ => none

/-- Answers the server's request at this place, once. When the writer is gone the
answer is lost. -/
def answer (c : Connection) (place : Nat) (outcome : Outcome) : Option Connection :=
  match c.requests[place]? with
  | some (some id) =>
    let c := { c with requests := c.requests.set place none }
    some ((c.enqueue (.response id outcome)).getD c)
  | _ => none

/-! ## Giving the connection up -/

/-- The next step of giving up: stop the reader and the writer, set the mark,
clear the entries. -/
def stepRelease (c : Connection) : Option Connection :=
  match c.release with
  | .held =>
    some { c with
      release := .stopping
      reader := if c.reader = .reading then .ended else c.reader
      writing := false
      queue := [] }
  | .stopping => some { c.markClosed with release := .closing }
  | .closing => some { c.clearPending with release := .released }
  | .released => none

end Connection

end EmberClient
