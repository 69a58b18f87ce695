import EmberClient.Connection.Step

/-!
# What a step of a connection can be

`Connection.happening` tells what an observer notes in an action: which caller was given which
id, when its entry was put, what it saw when it looked at the closing mark, which messages were
queued and taken, and when the connection was marked and cleared.

`Connection.step` is read here, once: `Stepped` has a case for each thing that an action can be,
with all that must hold for it, what happens in it, and what comes of it.

> `stepped_of_step`, `step_of_stepped`: a step is possible just if it is one of these.

Whatever every step keeps is shown along these cases.
-/

namespace EmberClient.Connection

open Text

/-! ## Happenings -/

/-- Who closes a connection. -/
inductive Closer where
  /-- The reader, when the server's output ends. -/
  | reader
  /-- Whoever gives the connection up. -/
  | release
  deriving DecidableEq

/-- One access to what is shared, as an observer notes it. -/
inductive Happening where
  /-- A caller was given its id. -/
  | numbered (place : Nat) (id : UInt64)
  /-- The entry of a caller was put. -/
  | entered (place : Nat) (id : UInt64)
  /-- A caller looked whether the closing mark is set. -/
  | looked (place : Nat) (closed : Bool)
  /-- The request of a caller was queued. -/
  | requested (place : Nat) (m : Message)
  /-- A caller is done. -/
  | resolved (place : Nat) (result : Except Fault Json)
  /-- A notification was queued. -/
  | notified (m : Message)
  /-- An answer to the server was queued. -/
  | responded (m : Message)
  /-- The reader took a message of the server. -/
  | took (m : Message)
  /-- The closing mark was set. -/
  | marked (who : Closer)
  /-- The entries were cleared. -/
  | cleared (who : Closer)

/-- What happens when the caller at this place takes its next step. -/
def callerHappening (c : Connection) (place : Nat) : Caller → Option Happening
  | .fresh _ _ => some (.numbered place c.nextId)
  | .numbered id _ _ => some (.entered place id)
  | .entered _ _ _ => some (.looked place c.closed)
  | .admitted id method params =>
    if c.writing then some (.requested place (.request id method params)) else none
  | .refused _ => some (.resolved place (.error .connectionClosed))
  | .waiting _ => (c.answer? place).map fun a => .resolved place a.result
  | .finished _ | .abandoned => none

/-- What happens in an action. -/
def happening (c : Connection) : Action → Option Happening
  | .advance place => (c.callers[place]?).bind (c.callerHappening place)
  | .notify method params =>
    if c.writing then some (.notified (.notification method params)) else none
  | .read =>
    match c.reader with
    | .reading =>
      match Frame.read c.inputEnded c.input with
      | .message m _ => some (.took m)
      | .finished | .failed _ => some (.marked .reader)
      | .oversized _ | .waiting => none
    | .closing => some (.cleared .reader)
    | .ended | .dead => none
  | .answer place outcome =>
    match c.requests[place]? with
    | some (some id) => if c.writing then some (.responded (.response id outcome)) else none
    | _ => none
  | .release =>
    match c.release with
    | .stopping => some (.marked .release)
    | .closing => some (.cleared .release)
    | .held | .released => none
  | _ => none

/-! ## What operations leave alone -/

/-- Taking a message reaches at most the entries, the answers and the requests. -/
theorem accept_eq (c : Connection) (m : Message) :
    ∃ pending answers requests, (c.accept m).1 = { c with pending, answers, requests } := by
  unfold accept
  split
  · unfold deliver
    split
    · exact ⟨_, _, _, rfl⟩
    · split
      · exact ⟨_, _, _, rfl⟩
      · exact ⟨_, _, _, rfl⟩
  · exact ⟨_, _, _, rfl⟩
  · exact ⟨_, _, _, rfl⟩
  · exact ⟨_, _, _, rfl⟩

/-- Taking a message leaves the callers and the marks alone. -/
theorem accept_fields (c : Connection) (m : Message) :
    (c.accept m).1.callers = c.callers ∧ (c.accept m).1.nextId = c.nextId ∧
      (c.accept m).1.closed = c.closed ∧ (c.accept m).1.reader = c.reader ∧
      (c.accept m).1.release = c.release ∧ (c.accept m).1.writing = c.writing := by
  obtain ⟨pending, answers, requests, same⟩ := accept_eq c m
  rw [same]
  exact ⟨rfl, rfl, rfl, rfl, rfl, rfl⟩

/-! ## Steps -/

/-- What a step can be: the action and what happens in it, and what comes of it with what the
reader hands on. -/
inductive Stepped (c : Connection) :
    Action → Option Happening → Connection → List Event → Prop where
  | calls (method : String) (params : Json) :
    Stepped c (.call method params) none
      { c with callers := c.callers ++ [.fresh method params] } []
  | numbers {place : Nat} {method : String} {params : Json}
      (stands : c.callers[place]? = some (.fresh method params)) :
    Stepped c (.advance place) (some (.numbered place c.nextId))
      { c with
        nextId := c.nextId + 1
        callers := c.callers.set place (.numbered c.nextId method params) } []
  | enters {place : Nat} {id : UInt64} {method : String} {params : Json}
      (stands : c.callers[place]? = some (.numbered id method params)) :
    Stepped c (.advance place) (some (.entered place id))
      { c.enter id place with callers := c.callers.set place (.entered id method params) } []
  | looks {place : Nat} {id : UInt64} {method : String} {params : Json}
      (stands : c.callers[place]? = some (.entered id method params)) :
    Stepped c (.advance place) (some (.looked place c.closed))
      { c with
        callers := c.callers.set place
          (if c.closed then .refused id else .admitted id method params) } []
  | queues {place : Nat} {id : UInt64} {method : String} {params : Json}
      (stands : c.callers[place]? = some (.admitted id method params)) (writing : c.writing = true) :
    Stepped c (.advance place) (some (.requested place (.request id method params)))
      { c with
        queue := c.queue ++ [.request id method params]
        callers := c.callers.set place (.waiting id) } []
  /-- The queue has lost its writer. -/
  | fails {place : Nat} {id : UInt64} {method : String} {params : Json}
      (stands : c.callers[place]? = some (.admitted id method params)) (gone : c.writing = false) :
    Stepped c (.advance place) none { c with callers := c.callers.set place (.refused id) } []
  | withdraws {place : Nat} {id : UInt64} (stands : c.callers[place]? = some (.refused id)) :
    Stepped c (.advance place) (some (.resolved place (.error .connectionClosed)))
      { c.withdraw id with
        callers := c.callers.set place (.finished (.error .connectionClosed)) } []
  | resolves {place : Nat} {id : UInt64} {a : Answer}
      (stands : c.callers[place]? = some (.waiting id)) (answer : c.answer? place = some a) :
    Stepped c (.advance place) (some (.resolved place a.result))
      { c with
        answers := c.answers.filter fun a => a.1 ≠ place
        callers := c.callers.set place (.finished a.result) } []
  | abandons {place : Nat} {id : UInt64} (stands : c.callers[place]? = some (.waiting id)) :
    Stepped c (.abandon place) none { c with callers := c.callers.set place .abandoned } []
  | notifies (method : String) (params : Json) (writing : c.writing = true) :
    Stepped c (.notify method params) (some (.notified (.notification method params)))
      { c with queue := c.queue ++ [.notification method params] } []
  /-- The writer is gone, and the notification is lost. -/
  | mutes (method : String) (params : Json) (gone : c.writing = false) :
    Stepped c (.notify method params) none c []
  | takes {m : Message} {rest : Bytes} (reading : c.reader = .reading)
      (front : Frame.read c.inputEnded c.input = .message m rest) :
    Stepped c .read (some (.took m)) ({ c with input := rest }.accept m).1
      ({ c with input := rest }.accept m).2
  | ends (reading : c.reader = .reading) (front : Frame.read c.inputEnded c.input = .finished) :
    Stepped c .read (some (.marked .reader)) { c.markClosed with reader := .closing } []
  | breaks {fault : Fault} (reading : c.reader = .reading)
      (front : Frame.read c.inputEnded c.input = .failed fault) :
    Stepped c .read (some (.marked .reader)) { c.markClosed with reader := .closing } []
  | dies {length : Nat} (reading : c.reader = .reading)
      (front : Frame.read c.inputEnded c.input = .oversized length) :
    Stepped c .read none { c with reader := .dead } []
  | clears (closing : c.reader = .closing) :
    Stepped c .read (some (.cleared .reader)) { c.clearPending with reader := .ended } []
  | writes {m : Message} {rest : List Message} (writing : c.writing = true)
      (queue : c.queue = m :: rest) (reads : c.serverReads = true) :
    Stepped c .write none { c with queue := rest, written := c.written ++ [m] } []
  /-- The server reads no more: the writer ends, and what waited with it. -/
  | loses {m : Message} {rest : List Message} (writing : c.writing = true)
      (queue : c.queue = m :: rest) (deaf : c.serverReads = false) :
    Stepped c .write none { c with queue := [], writing := false } []
  | answers {place : Nat} {id : Json} (outcome : Outcome)
      (stands : c.requests[place]? = some (some id)) (writing : c.writing = true) :
    Stepped c (.answer place outcome) (some (.responded (.response id outcome)))
      { c with
        requests := c.requests.set place none
        queue := c.queue ++ [.response id outcome] } []
  /-- The writer is gone, and the answer is lost. -/
  | forfeits {place : Nat} {id : Json} (outcome : Outcome)
      (stands : c.requests[place]? = some (some id)) (gone : c.writing = false) :
    Stepped c (.answer place outcome) none { c with requests := c.requests.set place none } []
  | letsGo (held : c.release = .held) :
    Stepped c .release none
      { c with
        release := .stopping
        reader := if c.reader = .reading then .ended else c.reader
        writing := false
        queue := [] } []
  | marksRelease (stopping : c.release = .stopping) :
    Stepped c .release (some (.marked .release)) { c.markClosed with release := .closing } []
  | clearsRelease (closing : c.release = .closing) :
    Stepped c .release (some (.cleared .release)) { c.clearPending with release := .released } []
  | receives (bytes : Bytes) (unended : c.inputEnded = false) :
    Stepped c (.receive bytes) none { c with input := c.input ++ bytes } []
  | closesInput : Stepped c .endInput none { c with inputEnded := true } []
  | stopsReading : Stepped c .stopReading none { c with serverReads := false } []

/-- Going on with a caller is a transition of the relation. -/
theorem stepped_of_stepCaller {c d : Connection} {place : Nat} {caller caller' : Caller}
    (stands : c.callers[place]? = some caller)
    (hstep : c.stepCaller place caller = some (d, caller')) :
    Stepped c (.advance place) (c.callerHappening place caller)
      { d with callers := d.callers.set place caller' } [] := by
  cases caller with
  | fresh method params =>
    obtain ⟨rfl, rfl⟩ := Prod.mk.inj (Option.some.inj hstep)
    exact .numbers stands
  | numbered id method params =>
    obtain ⟨rfl, rfl⟩ := Prod.mk.inj (Option.some.inj hstep)
    exact .enters stands
  | entered id method params =>
    obtain ⟨rfl, rfl⟩ := Prod.mk.inj (Option.some.inj hstep)
    exact .looks stands
  | admitted id method params =>
    simp only [stepCaller, enqueue] at hstep
    simp only [callerHappening]
    by_cases writing : c.writing = true
    · rw [if_pos writing] at hstep ⊢
      obtain ⟨rfl, rfl⟩ := Prod.mk.inj (Option.some.inj hstep)
      exact .queues stands writing
    · rw [if_neg writing] at hstep ⊢
      obtain ⟨rfl, rfl⟩ := Prod.mk.inj (Option.some.inj hstep)
      exact .fails stands (Bool.eq_false_iff.mpr writing)
  | refused id =>
    obtain ⟨rfl, rfl⟩ := Prod.mk.inj (Option.some.inj hstep)
    exact .withdraws stands
  | waiting id =>
    simp only [stepCaller] at hstep
    split at hstep
    · next a answer =>
      obtain ⟨rfl, rfl⟩ := Prod.mk.inj (Option.some.inj hstep)
      simp only [callerHappening, answer, Option.map_some]
      exact .resolves stands answer
    · contradiction
  | finished | abandoned => contradiction

theorem stepped_of_read {c c' : Connection} {events : List Event}
    (hstep : c.read = some (c', events)) : Stepped c .read (c.happening .read) c' events := by
  simp only [read] at hstep
  split at hstep
  · next reading =>
    split at hstep
    · next m rest front =>
      have happens : c.happening .read = some (.took m) := by simp only [happening, reading, front]
      rw [happens, (Prod.mk.inj (Option.some.inj hstep)).1.symm,
        (Prod.mk.inj (Option.some.inj hstep)).2.symm]
      exact .takes reading front
    · next front =>
      have happens : c.happening .read = some (.marked .reader) := by
        simp only [happening, reading, front]
      obtain ⟨rfl, rfl⟩ := Prod.mk.inj (Option.some.inj hstep)
      rw [happens]
      exact .ends reading front
    · next fault front =>
      have happens : c.happening .read = some (.marked .reader) := by
        simp only [happening, reading, front]
      obtain ⟨rfl, rfl⟩ := Prod.mk.inj (Option.some.inj hstep)
      rw [happens]
      exact .breaks reading front
    · next length front =>
      have happens : c.happening .read = none := by simp only [happening, reading, front]
      obtain ⟨rfl, rfl⟩ := Prod.mk.inj (Option.some.inj hstep)
      rw [happens]
      exact .dies reading front
    · contradiction
  · next closing =>
    have happens : c.happening .read = some (.cleared .reader) := by simp only [happening, closing]
    obtain ⟨rfl, rfl⟩ := Prod.mk.inj (Option.some.inj hstep)
    rw [happens]
    exact .clears closing
  · contradiction
  · contradiction

theorem stepped_of_write {c c' : Connection} (hstep : c.write = some c') :
    Stepped c .write none c' [] := by
  simp only [write] at hstep
  split at hstep
  · next writing queue =>
    split at hstep
    · next reads =>
      obtain rfl := Option.some.inj hstep
      exact .writes writing queue reads
    · next deaf =>
      obtain rfl := Option.some.inj hstep
      exact .loses writing queue (Bool.eq_false_iff.mpr deaf)
  · contradiction

theorem stepped_of_answer {c c' : Connection} {place : Nat} {outcome : Outcome}
    (hstep : c.answer place outcome = some c') :
    Stepped c (.answer place outcome) (c.happening (.answer place outcome)) c' [] := by
  simp only [answer] at hstep
  split at hstep
  · next id stands =>
    obtain rfl := Option.some.inj hstep
    simp only [happening, stands, enqueue]
    by_cases writing : c.writing = true
    · rw [if_pos writing, if_pos writing]
      exact .answers outcome stands writing
    · rw [if_neg writing, if_neg writing]
      exact .forfeits outcome stands (Bool.eq_false_iff.mpr writing)
  · contradiction

theorem stepped_of_stepRelease {c c' : Connection} (hstep : c.stepRelease = some c') :
    Stepped c .release (c.happening .release) c' [] := by
  simp only [stepRelease] at hstep
  simp only [happening]
  split at hstep
  · next held =>
    obtain rfl := Option.some.inj hstep
    simp only [held]
    exact .letsGo held
  · next stopping =>
    obtain rfl := Option.some.inj hstep
    simp only [stopping]
    exact .marksRelease stopping
  · next closing =>
    obtain rfl := Option.some.inj hstep
    simp only [closing]
    exact .clearsRelease closing
  · contradiction

/-- **Every step is one of these.** -/
theorem stepped_of_step {c c' : Connection} {a : Action} {events : List Event}
    (hstep : c.step a = some (c', events)) : Stepped c a (c.happening a) c' events := by
  cases a with
  | call method params =>
    obtain ⟨rfl, rfl⟩ := Prod.mk.inj (Option.some.inj hstep)
    exact .calls method params
  | advance place =>
    simp only [step, Option.bind_eq_bind, Option.pure_def, Option.bind_eq_some_iff] at hstep
    obtain ⟨caller, stands, ⟨d, caller'⟩, goes, hstep⟩ := hstep
    obtain ⟨rfl, rfl⟩ := Prod.mk.inj (Option.some.inj hstep)
    simp only [happening, stands, Option.bind_some]
    exact stepped_of_stepCaller stands goes
  | abandon place =>
    simp only [step] at hstep
    split at hstep
    · next id stands =>
      obtain ⟨rfl, rfl⟩ := Prod.mk.inj (Option.some.inj hstep)
      exact .abandons stands
    · contradiction
  | notify method params =>
    simp only [step, Connection.notify, enqueue] at hstep
    simp only [happening]
    by_cases writing : c.writing = true
    · rw [if_pos writing] at hstep ⊢
      obtain ⟨rfl, rfl⟩ := Prod.mk.inj (Option.some.inj hstep)
      exact .notifies method params writing
    · rw [if_neg writing] at hstep ⊢
      obtain ⟨rfl, rfl⟩ := Prod.mk.inj (Option.some.inj hstep)
      exact .mutes method params (Bool.eq_false_iff.mpr writing)
  | read => exact stepped_of_read hstep
  | write =>
    obtain ⟨d, written, same⟩ := Option.map_eq_some_iff.mp hstep
    obtain ⟨rfl, rfl⟩ := Prod.mk.inj same
    exact stepped_of_write written
  | answer place outcome =>
    obtain ⟨d, answered, same⟩ := Option.map_eq_some_iff.mp hstep
    obtain ⟨rfl, rfl⟩ := Prod.mk.inj same
    exact stepped_of_answer answered
  | release =>
    obtain ⟨d, released, same⟩ := Option.map_eq_some_iff.mp hstep
    obtain ⟨rfl, rfl⟩ := Prod.mk.inj same
    exact stepped_of_stepRelease released
  | receive bytes =>
    obtain ⟨unended, same⟩ := Option.ite_none_left_eq_some.mp hstep
    obtain ⟨rfl, rfl⟩ := Prod.mk.inj (Option.some.inj same)
    exact .receives bytes (Bool.eq_false_iff.mpr unended)
  | endInput =>
    obtain ⟨rfl, rfl⟩ := Prod.mk.inj (Option.some.inj hstep)
    exact .closesInput
  | stopReading =>
    obtain ⟨rfl, rfl⟩ := Prod.mk.inj (Option.some.inj hstep)
    exact .stopsReading

/-- Each of these is a step that is possible, and in which that happens. -/
theorem step_of_stepped {c c' : Connection} {a : Action} {e : Option Happening}
    {events : List Event} (stepped : Stepped c a e c' events) :
    c.step a = some (c', events) ∧ c.happening a = e := by
  cases stepped with
  | numbers stands | enters stands | looks stands | withdraws stands =>
    simp only [step, happening, stands, Option.bind_eq_bind, Option.bind_some]
    exact ⟨rfl, rfl⟩
  | queues stands writing =>
    simp only [step, happening, stepCaller, callerHappening, enqueue, stands, writing, if_true,
      Option.bind_eq_bind, Option.bind_some]
    exact ⟨rfl, trivial⟩
  | fails stands gone =>
    simp only [step, happening, stepCaller, callerHappening, enqueue, stands, gone,
      Bool.false_eq_true, if_false, Option.bind_eq_bind, Option.bind_some]
    exact ⟨rfl, trivial⟩
  | resolves stands answer =>
    simp only [step, happening, stepCaller, callerHappening, stands, answer, Option.bind_eq_bind,
      Option.bind_some, Option.map_some]
    exact ⟨rfl, trivial⟩
  | abandons stands => simp only [step, stands, happening, and_self]
  | notifies _ _ writing =>
    simp only [step, happening, Connection.notify, enqueue, writing, if_true, and_self]
  | mutes _ _ gone =>
    simp only [step, happening, Connection.notify, enqueue, gone, Bool.false_eq_true, if_false,
      and_self]
  | takes reading front | ends reading front | breaks reading front | dies reading front =>
    simp only [step, read, happening, reading, front, and_self]
  | clears closing => simp only [step, read, happening, closing, and_self]
  | writes writing queue reads =>
    simp only [step, write, writing, queue, reads, if_true]
    exact ⟨rfl, rfl⟩
  | loses writing queue deaf =>
    simp only [step, write, writing, queue, deaf, Bool.false_eq_true, if_false]
    exact ⟨rfl, rfl⟩
  | answers outcome stands writing =>
    simp only [step, answer, happening, enqueue, stands, writing, if_true]
    exact ⟨rfl, trivial⟩
  | forfeits outcome stands gone =>
    simp only [step, answer, happening, enqueue, stands, gone, Bool.false_eq_true, if_false]
    exact ⟨rfl, trivial⟩
  | letsGo at_ | marksRelease at_ | clearsRelease at_ =>
    simp only [step, stepRelease, happening, at_]
    exact ⟨rfl, trivial⟩
  | receives bytes unended =>
    simp only [step, unended]
    exact ⟨rfl, rfl⟩
  | _ => exact ⟨rfl, rfl⟩

/-- A happening of a caller comes with a transition. -/
theorem stepped_of_callerHappening {c : Connection} {place : Nat} {caller : Caller}
    {e : Happening} (stands : c.callers[place]? = some caller)
    (happens : c.callerHappening place caller = some e) :
    ∃ c' events, Stepped c (.advance place) (some e) c' events := by
  cases caller with
  | fresh =>
    obtain rfl := Option.some.inj happens
    exact ⟨_, _, .numbers stands⟩
  | numbered =>
    obtain rfl := Option.some.inj happens
    exact ⟨_, _, .enters stands⟩
  | entered =>
    obtain rfl := Option.some.inj happens
    exact ⟨_, _, .looks stands⟩
  | admitted =>
    obtain ⟨writing, same⟩ := Option.ite_none_right_eq_some.mp happens
    obtain rfl := Option.some.inj same
    exact ⟨_, _, .queues stands writing⟩
  | refused =>
    obtain rfl := Option.some.inj happens
    exact ⟨_, _, .withdraws stands⟩
  | waiting =>
    obtain ⟨answer, found, rfl⟩ := Option.map_eq_some_iff.mp happens
    exact ⟨_, _, .resolves stands found⟩
  | finished | abandoned => contradiction

theorem stepped_of_readHappening {c : Connection} {e : Happening}
    (happens : c.happening .read = some e) : ∃ c' events, Stepped c .read (some e) c' events := by
  simp only [happening] at happens
  split at happens
  · next reading =>
    split at happens
    · next front =>
      obtain rfl := Option.some.inj happens
      exact ⟨_, _, .takes reading front⟩
    · next front =>
      obtain rfl := Option.some.inj happens
      exact ⟨_, _, .ends reading front⟩
    · next front =>
      obtain rfl := Option.some.inj happens
      exact ⟨_, _, .breaks reading front⟩
    · contradiction
    · contradiction
  · next closing =>
    obtain rfl := Option.some.inj happens
    exact ⟨_, _, .clears closing⟩
  · contradiction
  · contradiction

/-- Whatever happens, happens in a step that is possible. -/
theorem stepped_of_happening {c : Connection} {a : Action} {e : Happening}
    (happens : c.happening a = some e) : ∃ c' events, Stepped c a (some e) c' events := by
  cases a with
  | advance place =>
    obtain ⟨caller, stands, happens⟩ := Option.bind_eq_some_iff.mp happens
    exact stepped_of_callerHappening stands happens
  | notify method params =>
    obtain ⟨writing, same⟩ := Option.ite_none_right_eq_some.mp happens
    obtain rfl := Option.some.inj same
    exact ⟨_, _, .notifies method params writing⟩
  | read => exact stepped_of_readHappening happens
  | answer place outcome =>
    simp only [happening] at happens
    split at happens
    · next stands =>
      obtain ⟨writing, same⟩ := Option.ite_none_right_eq_some.mp happens
      obtain rfl := Option.some.inj same
      exact ⟨_, _, .answers outcome stands writing⟩
    · contradiction
  | release =>
    simp only [happening] at happens
    split at happens
    · next stopping =>
      obtain rfl := Option.some.inj happens
      exact ⟨_, _, .marksRelease stopping⟩
    · next closing =>
      obtain rfl := Option.some.inj happens
      exact ⟨_, _, .clearsRelease closing⟩
    · contradiction
    · contradiction
  | _ => contradiction

end EmberClient.Connection
