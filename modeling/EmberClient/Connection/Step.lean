import EmberClient.Connection.Basic

/-!
# Steps of a conversation

Who may do what next. `Connection.step` performs one action, if it is possible
where things stand; a run is any sequence of them. Nothing is said about which
of the possible actions comes next, so what holds of every run holds under every
scheduling of callers, reader, writer and handlers, and of every server.
-/

namespace EmberClient.Connection

open Text

/-- One action of one participant. -/
inductive Action where
  /-- A new caller begins. -/
  | call (method : String) (params : Json)
  /-- The caller at this place takes its next step. -/
  | advance (place : Nat)
  /-- The caller at this place, which waits, stops waiting. -/
  | abandon (place : Nat)
  /-- A notification is sent. -/
  | notify (method : String) (params : Json)
  /-- The reader takes its next step. -/
  | read
  /-- The writer takes its next step. -/
  | write
  /-- The handler of the server's request at this place is done. -/
  | answer (place : Nat) (outcome : Outcome)
  /-- Giving up the connection takes its next step. -/
  | release
  /-- Bytes come from the server. -/
  | receive (bytes : Bytes)
  /-- The server closes its output. -/
  | endInput
  /-- The server stops taking what is sent. -/
  | stopReading

/-- Performs one action. -/
def step (c : Connection) : Action → Option (Connection × List Event)
  | .call method params => some ({ c with callers := c.callers ++ [.fresh method params] }, [])
  | .advance place => do
    let caller ← c.callers[place]?
    let (c, caller) ← c.stepCaller place caller
    return ({ c with callers := c.callers.set place caller }, [])
  | .abandon place =>
    match c.callers[place]? with
    | some (.waiting _) => some ({ c with callers := c.callers.set place .abandoned }, [])
    | _ => none
  | .notify method params =>
    match c.notify method params with
    | .ok c => some (c, [])
    -- the notification is lost, and its sender goes on
    | .error _ => some (c, [])
  | .read => c.read
  | .write => c.write.map (·, [])
  | .answer place outcome => (c.answer place outcome).map (·, [])
  | .release => c.stepRelease.map (·, [])
  | .receive bytes =>
    if c.inputEnded then none else some ({ c with input := c.input ++ bytes }, [])
  | .endInput => some ({ c with inputEnded := true }, [])
  | .stopReading => some ({ c with serverReads := false }, [])

/-- The connection after a sequence of actions, each of them possible. -/
def run : List Action → Connection → Option Connection
  | [], c => some c
  | a :: rest, c => (c.step a).bind fun (c, _) => run rest c

/-- A connection that some run leads to. -/
def Reachable (c : Connection) : Prop := ∃ actions, run actions {} = some c

/-! ## Results of callers -/

/-- The result of a caller that is done. -/
def result? (c : Connection) (place : Nat) : Option (Except Fault Json) :=
  match c.callers[place]? with
  | some (.finished result) => some result
  | _ => none

end EmberClient.Connection
