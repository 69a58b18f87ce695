import EmberClient.Connection.Step

/-!
# A conversation by script

One connection played from a script: steps of the client and of the server
alternate, and after each of them everybody moves until nobody can. The order is
fixed (callers, then the reader, then handlers, then the writer), so a script
has one outcome; it is one of the runs of `Connection.step`.
-/

namespace EmberClient.Script

open Text

/-- How a handler answers a request of the server. -/
inductive Reaction where
  | outcome (outcome : Outcome)
  /-- The parameters are the result. -/
  | echo
  /-- It never answers. -/
  | hang
  deriving Inhabited

/-- What a handler was given. -/
inductive Handled where
  | request (method : String) (params : Json)
  | notification (method : String) (params : Json)

/-- A connection with the handlers of a script. -/
structure Conversation where
  connection : Connection := {}
  reactions : List (String × Reaction) := []
  /-- Requests of the server whose handlers have not started. -/
  accepted : List (Nat × String × Json) := []
  handled : List Handled := []

namespace Conversation

/-- The first caller that can take a step, after it. -/
def advance? (c : Connection) : Option Connection :=
  (List.range c.callers.length).findSome? fun place => (c.step (.advance place)).map (·.1)

/-- Takes over what the reader hands on. -/
def take (t : Conversation) : Connection.Event → Conversation
  | .request place method params =>
    { t with accepted := t.accepted ++ [(place, method, params)] }
  | .notification method params =>
    { t with handled := t.handled ++ [.notification method params] }

/-- Runs the handler of a request. -/
def handle (t : Conversation) (place : Nat) (method : String) (params : Json) : Conversation :=
  let t := { t with handled := t.handled ++ [.request method params] }
  let outcome? : Option Outcome :=
    match t.reactions.find? fun r => r.1 = method with
    | some (_, .outcome outcome) => some outcome
    | some (_, .echo) => some (.ok params)
    | some (_, .hang) => none
    | none => some (.error (.methodNotFound method))
  match outcome? with
  | none => t
  | some outcome =>
    match t.connection.answer place outcome with
    | some connection => { t with connection }
    | none => t

/-- The next move, if anybody can make one. -/
def move? (t : Conversation) : Option Conversation :=
  match advance? t.connection with
  | some connection => some { t with connection }
  | none =>
    match t.connection.read with
    | some (connection, events) => some (events.foldl take { t with connection })
    | none =>
      match t.accepted with
      | (place, method, params) :: accepted =>
        some ({ t with accepted }.handle place method params)
      | [] => t.connection.write.map fun connection => { t with connection }

/-- Moves until nobody can, at most `bound` times. -/
def settle : Nat → Conversation → Conversation
  | 0, t => t
  | bound + 1, t =>
    match t.move? with
    | some t => settle bound t
    | none => t

/-! ## Steps of a script -/

inductive Step where
  | request (method : String) (params : Json)
  | execute (command : String) (arguments : List Json)
  | notify (method : String) (params : Json)
  | receive (bytes : Bytes)
  /-- The server closes its output. -/
  | closeOutput
  /-- The server stops reading. -/
  | closeInput

/-- What a step leads to. -/
structure Entry where
  /-- The result of a notification. -/
  notified : Option (Except Fault Unit)
  /-- The callers that finished, by the step in which they began. -/
  calls : List (Nat × Except Fault Json)
  sent : List Message
  handled : List Handled
  closed : Bool

/-- A script in progress: the conversation, and for every caller that has not
been reported the step in which it began. -/
structure Progress where
  talk : Conversation
  unreported : List (Nat × Nat) := []

/-- A bound on the moves of one step: every byte and every participant moves at
most a few times. -/
def bound (t : Conversation) : Nat :=
  100 + 20 * (t.connection.input.length + t.connection.callers.length +
    t.connection.queue.length + t.connection.requests.length)

/-- Sends a message for the client, or lets the server act. -/
def perform (c : Connection) : Step → Connection × Option (Except Fault Unit)
  | .request method params => (act (.call method params), none)
  | .execute command arguments =>
    (act (.call Connection.executeMethod (Connection.executeParams command arguments)), none)
  | .notify method params =>
    match c.notify method params with
    | .ok c => (c, some (.ok ()))
    | .error fault => (c, some (.error fault))
  | .receive bytes => (act (.receive bytes), none)
  | .closeOutput => (act .endInput, none)
  | .closeInput => (act .stopReading, none)
where
  act (a : Connection.Action) : Connection := ((c.step a).map (·.1)).getD c

/-- The step begins a caller. -/
def Step.calls : Step → Bool
  | .request .. | .execute .. => true
  | _ => false

/-- Plays one step, the one at this place in the script. -/
def play (p : Progress) (place : Nat) (step : Step) : Progress × Entry :=
  let before := p.talk.connection
  let (connection, notified) := perform before step
  let waiting := if step.calls then p.unreported ++ [(before.callers.length, place)] else p.unreported
  let start := { p.talk with connection, handled := [] }
  let talk := settle (bound start) start
  let done := waiting.filterMap fun (caller, began) =>
    (talk.connection.result? caller).map fun result => (began, result)
  let left := waiting.filter fun (caller, _) => (talk.connection.result? caller).isNone
  ({ talk, unreported := left },
    { notified
      calls := done
      sent := talk.connection.written.drop before.written.length
      handled := talk.handled
      closed := talk.connection.closed })

/-- Plays a script from its first step. -/
def playAll (p : Progress) (place : Nat) : List Step → List Entry
  | [] => []
  | step :: rest =>
    let (p, entry) := play p place step
    entry :: playAll p (place + 1) rest

/-- The entries of a script, one per step. -/
def entries (reactions : List (String × Reaction)) (steps : List Step) : List Entry :=
  playAll { talk := { reactions } } 0 steps

end Conversation

end EmberClient.Script
