import EmberClient.Proofs.Connection.Requests
import EmberClient.Proofs.Rpc.Envelope

/-!
# Requests in, responses out

What the reader does with a message depends on the two members that tell what it is. A
request is handed on, once, with its place; whatever else the message is, nothing is, and
the reader goes on with what stands behind it (`reads_on`). The messages without a method
among those that were queued for the server are the responses, in the order in which they
were given:

> `responses_of_run`: as long as the writer is there, none of them is lost and none is added.
-/

namespace EmberClient

open Json

/-! ## Ids -/

/-- A member that was settled is never null. -/
theorem settle_ne_null (member : Option Json) : settle member ≠ some .null := by
  cases member with
  | none => simp [settle]
  | some v => cases v <;> simp [settle, Message.present, Json.canonical]

namespace Message

/-- An id that is null is none. -/
theorem id_of_ofJson? {v : Json} {m : Message} (reads : ofJson? v = some m) :
    m.id ≠ some .null := by
  simp only [ofJson?, Option.bind_eq_bind, Option.bind_eq_some_iff] at reads
  obtain ⟨fields, -, reads⟩ := reads
  split at reads
  · simp only [decodeOption_passThrough, Option.bind_some, Option.bind_eq_some_iff] at reads
    obtain ⟨jsonrpc, -, method, -, error, -, reads⟩ := reads
    obtain rfl := Option.some.inj reads
    exact settle_ne_null _
  · contradiction

/-- A message with a method and an id is a request, and no other is. -/
theorem request?_iff {m : Message} {id : Json} {method : String} {params : Json} :
    m.request? = some (id, method, params) ↔
      m.id = some id ∧ m.method = some method ∧ params = m.params.getD .null := by
  unfold request? incoming
  cases m.id with
  | none => cases m.method <;> simp
  | some id' =>
    cases m.method with
    | none => simp
    | some method' => simp [eq_comm]

/-- A message without a method, such as a response is. -/
def isAnswer (m : Message) : Bool := m.method.isNone

/-- What a response to a request consists of: the id, and the outcome in one of two members. -/
structure Responds (m : Message) (id : Json) (outcome : Outcome) : Prop where
  version : m.jsonrpc = "2.0"
  id : m.id = some id
  bare : m.method = none ∧ m.params = none
  result : ∀ v, m.result = some v ↔ outcome = .ok v
  error : ∀ e, m.error = some e ↔ outcome = .error e

theorem responds_response (id : Json) (outcome : Outcome) :
    (response id outcome).Responds id outcome := by
  cases outcome with
  | ok v => exact ⟨rfl, rfl, ⟨rfl, rfl⟩, by simp [response], by simp [response]⟩
  | error e => exact ⟨rfl, rfl, ⟨rfl, rfl⟩, by simp [response], by simp [response]⟩

/-- A response is an answer and no request. -/
theorem isAnswer_response (id : Json) (outcome : Outcome) : (response id outcome).isAnswer = true := by
  cases outcome <;> rfl

end Message

/-- A message that was read has no null for its id. -/
theorem Frame.id_of_read {ended : Bool} {input rest : Text.Bytes} {m : Message}
    (reads : Frame.read ended input = .message m rest) : m.id ≠ some .null := by
  simp only [Frame.read] at reads
  split at reads
  all_goals try contradiction
  simp only [Frame.readBody] at reads
  split_ifs at reads
  split at reads
  · next decoded =>
    obtain ⟨rfl, -⟩ := Reading.message.inj reads
    simp only [Frame.decodeBody] at decoded
    split at decoded
    · next whole =>
      obtain rfl := Except.ok.inj decoded
      obtain ⟨v, -, reads⟩ := Option.bind_eq_some_iff.mp whole
      exact Message.id_of_ofJson? reads
    · contradiction
  · contradiction

namespace Connection

/-! ## What the reader hands on -/

/-- The request that an event hands on: its place, its method and its parameters. -/
def Event.request? : Event → Option (Nat × String × Json)
  | .request place method params => some (place, method, params)
  | .notification .. => none

/-- A message that is a request is passed on, with the place for its answer. -/
theorem accept_events (c : Connection) (m : Message) :
    (c.accept m).2.filterMap Event.request? =
      (m.request?.map fun (_, asked) => (c.requests.length, asked)).toList := by
  unfold accept Message.request?
  split <;> next incoming => rw [incoming]; rfl

/-- Only the reader takes requests. -/
theorem untaken_of_other {c : Connection} {a : Action} (other : a ≠ .read) :
    (c.happening a).bind takenRequest? = none := by
  cases happens : c.happening a with
  | none => rfl
  | some e =>
    obtain ⟨c', events, stepped⟩ := stepped_of_happening happens
    cases stepped with
    | takes => exact absurd rfl other
    | _ => rfl

/-- What is handed on in a step are the requests that are taken in it. -/
theorem events_requests {c c' : Connection} {a : Action} {events : List Event}
    (hstep : c.step a = some (c', events)) :
    events.filterMap Event.request? =
      (((c.happening a).bind takenRequest?).map fun (_, asked) =>
        (c.requests.length, asked)).toList := by
  have stepped := stepped_of_step hstep
  generalize c.happening a = e at stepped ⊢
  cases stepped with
  | @takes m rest => exact accept_events { c with input := rest } m
  | _ => rfl

/-- Whatever message stands at the front of the input, the reader takes it, goes on behind
it, and leaves what is on its way to the server alone. -/
theorem reads_on {c : Connection} {m : Message} {rest : Text.Bytes} (reading : c.reader = .reading)
    (front : Frame.read c.inputEnded c.input = .message m rest) :
    ∃ c' events, c.step .read = some (c', events) ∧ c.happening .read = some (.took m) ∧
      c'.reader = .reading ∧ c'.input = rest ∧ c'.written = c.written ∧ c'.queue = c.queue ∧
      c'.writing = c.writing := by
  obtain ⟨taken, happens⟩ := step_of_stepped (.takes reading front)
  obtain ⟨-, -, -, reader, -, writing⟩ := accept_fields { c with input := rest } m
  obtain ⟨written, queue, -⟩ := accept_outgoing { c with input := rest } m
  exact ⟨_, _, taken, happens, reader.trans reading,
    (accept_input { c with input := rest } m).1, written, queue, writing⟩

/-- Where nothing is answered, a place is left as it was, or is new and holds an id. -/
theorem stands_of_step {c c' : Connection} {a : Action} {events : List Event} {place : Nat}
    (hstep : c.step a = some (c', events)) (other : ∀ place outcome, a ≠ .answer place outcome)
    (inside : place < c'.requests.length) :
    (place < c.requests.length ∧ c'.requests[place]? = c.requests[place]?) ∨
      ∃ id, c'.requests[place]? = some (some id) := by
  have stepped := stepped_of_step hstep
  generalize c.happening a = e at stepped
  cases stepped with
  | @takes m rest =>
    rw [accept_requests] at inside ⊢
    by_cases old : place < c.requests.length
    · exact .inl ⟨old, List.getElem?_append_left old⟩
    · cases asked : m.request? with
      | none => exact absurd inside (by simpa [asked] using old)
      | some request =>
        simp only [asked, Option.map_some, Option.toList_some, List.length_append,
          List.length_singleton] at inside
        obtain rfl : place = c.requests.length := by omega
        exact .inr ⟨request.1, List.getElem?_concat_length⟩
  | answers | forfeits => exact absurd rfl (other _ _)
  | _ => exact .inl ⟨inside, rfl⟩

/-- The requests that are taken have ids. -/
theorem ids_of_run {actions : List Action} {c : Connection} (hrun : run actions {} = some c) :
    ∀ asked ∈ requestsTaken (history actions {}), asked.1 ≠ .null := by
  have start : ∀ asked ∈ requestsTaken [], asked.1 ≠ .null :=
    fun _ mem => absurd mem List.not_mem_nil
  have inv := run_keeps (P := fun h _ => ∀ asked ∈ requestsTaken h, asked.1 ≠ .null) ?_ start hrun
  · rwa [List.nil_append] at inv
  · intro h c c' a events old hstep asked mem
    rw [requestsTaken_append] at mem
    rcases List.mem_append.mp mem with before | new
    · exact old asked before
    · obtain ⟨e, happens, taken⟩ := Option.bind_eq_some_iff.mp (Option.mem_toList.mp new)
      obtain ⟨_, _, stepped⟩ := stepped_of_happening happens
      cases stepped with
      | takes _ front =>
        have here := (Message.request?_iff.mp taken).1
        exact fun null => Frame.id_of_read front (here.trans (congrArg some null))
      | _ => contradiction

/-! ## Responses -/

/-- The writer does not come back. -/
theorem writing_before {c c' : Connection} {a : Action} {events : List Event}
    (hstep : c.step a = some (c', events)) (writing : c'.writing = true) : c.writing = true := by
  by_contra gone
  have gone := (spares_of_step hstep).writing (Bool.eq_false_iff.mpr gone)
  rw [gone] at writing
  contradiction

/-- The response that is given when this happens. -/
def responded? : Happening → Option Message
  | .responded m => some m
  | _ => none

/-- The responses that were given, in order. -/
def responses (h : List Happening) : List Message := h.filterMap responded?

/-- What happens next adds at most one response. -/
theorem responses_append (h : List Happening) (e : Option Happening) :
    responses (h ++ e.toList) = responses h ++ (e.bind responded?).toList :=
  filterMap_append_toList responded? h e

/-- Only an answer makes a response. -/
theorem unresponded_of_other {c : Connection} {a : Action}
    (other : ∀ place outcome, a ≠ .answer place outcome) :
    (c.happening a).bind responded? = none := by
  cases happens : c.happening a with
  | none => rfl
  | some e =>
    cases e with
    | responded m =>
      obtain ⟨place, outcome, -, same, -⟩ := responded_of_step happens
      exact absurd same (other place outcome)
    | _ => rfl

/-- Of what is queued the answers are what is responded. -/
theorem queued_answers {c : Connection} {a : Action} :
    ((c.happening a).bind queued?).toList.filter Message.isAnswer =
      ((c.happening a).bind responded?).toList := by
  cases happens : c.happening a with
  | none => rfl
  | some e =>
    cases e with
    | responded m =>
      obtain ⟨place, outcome, id, -, -, rfl⟩ := responded_of_step happens
      simp [queued?, responded?, Message.isAnswer_response]
    | requested place m | notified m =>
      have spoken : m.method.isSome = true := method_of_own happens rfl
      have other : m.isAnswer = false := by
        rw [Message.isAnswer, Option.isNone_eq_false_iff]
        exact spoken
      simp [queued?, responded?, other]
    | _ => rfl

/-- While the writer is there, what is sent or waits to be, without a method, are the
responses that were given, in order. -/
theorem responses_of_run {actions : List Action} {c : Connection} (hrun : run actions {} = some c)
    (writing : c.writing = true) :
    (c.written ++ c.queue).filter Message.isAnswer = responses (history actions {}) := by
  rw [(sending_of_run hrun).complete writing]
  have start : (sent []).filter Message.isAnswer = responses [] := rfl
  have inv := run_keeps (P := fun h _ => (sent h).filter Message.isAnswer = responses h) ?_ start hrun
  · rwa [List.nil_append] at inv
  · intro h c c' a events old hstep
    rw [sent_append, responses_append, List.filter_append, old, queued_answers]

/-- A place that holds an id can be answered, and the response goes out under the id. -/
theorem answers_of_id {c : Connection} {place : Nat} {id : Json} (outcome : Outcome)
    (stands : c.requests[place]? = some (some id)) :
    (c.answer place outcome).isSome = true ∧
      (c.writing = true →
        c.happening (.answer place outcome) = some (.responded (.response id outcome))) := by
  constructor
  · simp only [answer, stands, Option.isSome_some]
  · intro writing
    simp only [happening, stands, writing, if_true]

end Connection

end EmberClient
