import EmberClient.Proofs.Json.Records
import EmberClient.Proofs.Json.RoundTrip
import EmberClient.Rpc.Message

/-!
# What is written as an envelope reads back

An envelope has six members and the error object in it three. They are written where
they are there, and where one is missing the reader takes it as absent; null it takes as
absent too. So not the message itself comes back but what it amounts to, `settled`: no
member that is null, and every value canonical.

> `ofJson?_toJson`: the envelope of any message reads back as the settled message.

To whoever it is addressed this is the same message (`incoming_settled`), as long as the
null was not there to be told from an absence.
-/

namespace EmberClient

open Json

/-- What an optional member amounts to when it is read: null is absence, and only the
value of a document counts. -/
def settle (member : Option Json) : Option Json :=
  (member.bind Message.present).map canonical

/-- A member that is passed through is settled. -/
theorem decodeOption_passThrough (member : Option Json) :
    decodeOption passThrough member = some (settle member) := by
  cases member with
  | none => rfl
  | some v => cases v <;> rfl

/-- A member that is there and not null is settled to its value. -/
theorem settle_some {v : Json} (there : v.isNull = false) : settle (some v) = some v.canonical := by
  cases v with
  | null => contradiction
  | _ => rfl

theorem settle_of_told {member : Option Json} (told : member.all (!·.isNull) = true) :
    settle member = member.map canonical := by
  cases member with
  | none => rfl
  | some v => exact settle_some (by simpa using told)

theorem getD_present (v : Json) : (Message.present v).getD .null = v := by
  cases v <;> rfl

theorem getD_settle_present (v : Json) : (settle (Message.present v)).getD .null = v.canonical := by
  cases v <;> rfl

theorem getD_settle (v : Json) : (settle (some v)).getD .null = v.canonical := by
  cases v <;> rfl

namespace ResponseError

/-- What an error object amounts to when it is read. -/
def settled (e : ResponseError) : ResponseError :=
  { e with data := settle e.data }

end ResponseError

namespace Message

/-- What a message amounts to when it is read. -/
def settled (m : Message) : Message :=
  { m with
    id := settle m.id
    params := settle m.params
    result := settle m.result
    error := m.error.map ResponseError.settled }

end Message

/-! ## Members -/

namespace ResponseError

theorem fields?_toJson (e : ResponseError) :
    e.toJson.fields? [("code", .required), ("message", .required), ("data", .defaulted)] =
      some [some (.ofInt e.code), some (.str e.message), e.data] := by
  simp only [fields?, toJson, List.mapM_cons, List.mapM_nil]
  rw [memberField?_required (v := .ofInt e.code) (by simp),
    memberField?_required (v := .str e.message) (by simp),
    memberField?_defaulted (x := e.data) (by simp)]
  rfl

/-- An error object whose code fits a signed word reads back. -/
theorem ofJson?_toJson {e : ResponseError} (fits : Decimal.fitsSigned 64 e.code = true) :
    ofJson? e.toJson = some e.settled := by
  have code : code? (.ofInt e.code) = some e.code := by
    simp [code?, int?, ofInt, fits]
  simp [ofJson?, fields?_toJson, code, string?, decodeOption_passThrough, settled]

/-- An error object that was written is read back, if its code fits. -/
theorem decodeOption_toJson {error : Option ResponseError}
    (fits : error.all (fun e => Decimal.fitsSigned 64 e.code) = true) :
    decodeOption ofJson? (error.map toJson) = some (error.map settled) := by
  cases error with
  | none => rfl
  | some e =>
    have : decodeOption ofJson? (some e.toJson) = (ofJson? e.toJson).map some := rfl
    rw [Option.map_some, this, ofJson?_toJson fits]
    rfl

end ResponseError

namespace Message

theorem fields?_toJson (m : Message) :
    m.toJson.fields? [("jsonrpc", .required), ("id", .defaulted), ("method", .defaulted),
        ("params", .defaulted), ("result", .defaulted), ("error", .defaulted)] =
      some [some (.str m.jsonrpc), m.id, m.method.map .str, m.params, m.result,
        m.error.map ResponseError.toJson] := by
  simp only [fields?, toJson, List.mapM_cons, List.mapM_nil]
  rw [memberField?_required (v := .str m.jsonrpc) (by simp [-Option.map_map]),
    memberField?_defaulted (x := m.id) (by simp [-Option.map_map]),
    memberField?_defaulted (x := m.method.map .str) (by simp [-Option.map_map]),
    memberField?_defaulted (x := m.params) (by simp [-Option.map_map]),
    memberField?_defaulted (x := m.result) (by simp [-Option.map_map]),
    memberField?_defaulted (x := m.error.map ResponseError.toJson) (by simp [-Option.map_map])]
  rfl

/-- The envelope of any message reads back as what the message amounts to. -/
theorem ofJson?_toJson {m : Message}
    (fits : m.error.all (fun e => Decimal.fitsSigned 64 e.code) = true) :
    ofJson? m.toJson = some m.settled := by
  have method : decodeOption string? (m.method.map .str) = some m.method := by
    cases m.method <;> rfl
  simp [ofJson?, fields?_toJson, string?, method, decodeOption_passThrough,
    ResponseError.decodeOption_toJson fits, settled]

end Message

/-! ## Whom a message is addressed to -/

/-- The error object with canonical data. -/
def ResponseError.canonical (e : ResponseError) : ResponseError :=
  { e with data := e.data.map Json.canonical }

/-- What a message asks for, with every document in it canonical. -/
def Incoming.canonical : Incoming → Incoming
  | .request id method params => .request id.canonical method params.canonical
  | .notification method params => .notification method params.canonical
  | .response id (.ok result) => .response id.canonical (.ok result.canonical)
  | .response id (.error error) => .response id.canonical (.error error.canonical)

namespace Message

/-- The messages that the client makes. No id of a response is null, and neither are the
data of an error: both would be taken for absent. -/
inductive Made : Message → Prop where
  | request (id : UInt64) (method : String) (params : Json) : Made (.request id method params)
  | notification (method : String) (params : Json) : Made (.notification method params)
  | result (id result : Json) (named : id.isNull = false) : Made (.response id (.ok result))
  | error (id : Json) (e : ResponseError) (named : id.isNull = false)
      (told : e.data.all (!·.isNull) = true) : Made (.response id (.error e))

/-- The documents that a message carries. -/
def carried (m : Message) : List Json :=
  m.id.toList ++ m.params.toList ++ m.result.toList ++ (m.error.bind (·.data)).toList

/-- A message that was made says the same after it was read, up to the order of members in
the documents that it carries. -/
theorem Made.incoming_settled {m : Message} (made : m.Made) :
    m.settled.incoming = m.incoming.map Incoming.canonical := by
  cases made with
  | request id method params =>
    have numbered : settle (some (ofNat id.toNat)) = some (ofNat id.toNat).canonical := rfl
    simp [settled, incoming, Message.request, numbered, getD_settle_present, getD_present, Except.map,
      Incoming.canonical]
  | notification method params =>
    have unnumbered : settle none = none := rfl
    simp [settled, incoming, Message.notification, unnumbered, getD_settle_present, getD_present,
      Except.map, Incoming.canonical]
  | result id result named =>
    simp [settled, incoming, Message.response, settle_some named, getD_settle, Except.map,
      Incoming.canonical]
  | error id e named told =>
    simp [settled, incoming, Message.response, settle_some named, ResponseError.settled,
      settle_of_told told, Except.map, Incoming.canonical, ResponseError.canonical]

/-- Canonical documents are said as they are. -/
theorem Made.canonical_incoming {m : Message} (made : m.Made)
    (canonical : ∀ v ∈ m.carried, v.canonical = v) :
    m.incoming.map Incoming.canonical = m.incoming := by
  -- lists and objects are carried as they are; a single value is canonical by itself
  cases made with
  | request id method params =>
    have value : params.canonical = params := by
      cases params with
      | arr | obj => exact canonical _ (by simp [carried, Message.request, present])
      | _ => rfl
    have number : (ofNat id.toNat).canonical = ofNat id.toNat := rfl
    simp [incoming, Message.request, getD_present, Except.map, Incoming.canonical, value, number]
  | notification method params =>
    have value : params.canonical = params := by
      cases params with
      | arr | obj => exact canonical _ (by simp [carried, Message.notification, present])
      | _ => rfl
    simp [incoming, Message.notification, getD_present, Except.map, Incoming.canonical, value]
  | result id result =>
    have name := canonical id (by simp [carried, Message.response])
    have value := canonical result (by simp [carried, Message.response])
    simp [incoming, Message.response, Except.map, Incoming.canonical, name, value]
  | error id e =>
    have name := canonical id (by simp [carried, Message.response])
    have data : e.data.map Json.canonical = e.data := by
      cases shape : e.data with
      | none => rfl
      | some v => rw [Option.map_some, canonical v (by simp [carried, Message.response, shape])]
    simp [incoming, Message.response, Except.map, Incoming.canonical, ResponseError.canonical, name, data]

end Message

end EmberClient
