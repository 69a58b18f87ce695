import EmberClient.Proofs.Rpc.Envelope
import Mathlib.Logic.Relation

/-!
# One reading for all that says the same

An envelope may reach its reader in many shapes: as an array or as an object, with a null
or nothing where a member may be missing, with members that no envelope has, written anew by
everyone who passes it on. What is read is settled (`settled_eq_of_read`), hence

> `reading_is_canonical`: what was read is read again from what is written of it, and from
> every document that comes of it on such a way. It is addressed as before, too.

One step of the way is `Relay`, and what it leads to is read as what it came from
(`Relay.reads`). For a change of an object this is seen from `Tells`, where each member is
asked for what it tells and not how. The error object inside has its own, one level down.
-/

namespace EmberClient

open Json

/-! ## What is read is settled -/

theorem settle_settle (x : Option Json) : settle (settle x) = settle x := by
  match x with
  | none | some .null | some (.bool _) | some (.num _) | some (.str _) => rfl
  | some (.arr items) =>
    show some (Json.arr items).canonical.canonical = some (Json.arr items).canonical
    rw [canonical_canonical]
  | some (.obj members) =>
    show some (Json.obj members).canonical.canonical = some (Json.obj members).canonical
    rw [canonical_canonical]

theorem settle_of_read {x a : Option Json} (read : decodeOption passThrough x = some a) :
    settle a = a := by
  rw [decodeOption_passThrough] at read
  rw [← Option.some.inj read, settle_settle]

namespace ResponseError

variable {v : Json} {e : ResponseError} {members retouched : List (String × Json)}

/-- The three fields of an error object, and what each of them holds. -/
theorem ofJson?_eq_some_iff : ofJson? v = some e ↔ ∃ code data,
    v.fields? [("code", .required), ("message", .required), ("data", .defaulted)] =
        some [some code, some (.str e.message), data] ∧
      code? code = some e.code ∧ decodeOption passThrough data = some e.data := by
  rw [ofJson?]
  constructor
  · intro read
    obtain ⟨entries, found, read⟩ := Option.bind_eq_some_iff.mp read
    split at read
    · next code message data =>
      simp only [Option.bind_eq_bind, Option.bind_eq_some_iff, Option.pure_def,
        Option.some.injEq] at read
      obtain ⟨n, number, text, said, _, told, rfl⟩ := read
      cases message with
      | str s =>
        obtain rfl := Option.some.inj said
        exact ⟨code, data, found, number, told⟩
      | _ => contradiction
    · contradiction
  · rintro ⟨code, data, found, number, told⟩
    simp [found, number, told, string?]

/-- An error object that was read is settled as a whole. -/
theorem settled_eq_of_read (read : ofJson? v = some e) : e.settled = e := by
  obtain ⟨code, data, -, -, told⟩ := ofJson?_eq_some_iff.mp read
  rw [settled, settle_of_read told]

theorem fits_of_read (read : ofJson? v = some e) : Decimal.fitsSigned 64 e.code = true := by
  obtain ⟨code, data, -, number, -⟩ := ofJson?_eq_some_iff.mp read
  obtain ⟨n, -, fits⟩ := Option.bind_eq_some_iff.mp number
  split at fits
  · next fitting => exact Option.some.inj fits ▸ fitting
  · contradiction

theorem stable_code? : Stable code? := fun v n read => by
  cases v with
  | num => exact read
  | _ => contradiction

/-- The value alone decides which error object is read. -/
theorem stable_ofJson? : Stable ofJson? := fun v e read => by
  obtain ⟨code, data, found, number, told⟩ := ofJson?_eq_some_iff.mp read
  exact ofJson?_eq_some_iff.mpr ⟨_, _, fields?_canonical found, stable_code? _ _ number,
    decodeOption_canonical stable_passThrough told⟩

/-- What the members of an object say if it is this error object. -/
structure Tells (members : List (String × Json)) (e : ResponseError) : Prop where
  code : ∃ code, valuesAt "code" members = [code] ∧ code? code = some e.code
  message : valuesAt "message" members = [.str e.message]
  data : said? passThrough "data" members = some e.data

/-- An object reads as the error object that its members tell. -/
theorem ofJson?_obj : ofJson? (.obj members) = some e ↔ Tells members e := by
  rw [ofJson?_eq_some_iff]
  simp only [fields?, mapM_eq_some_iff, List.map_cons, List.map_nil, List.cons.injEq, and_true]
  constructor
  · rintro ⟨code, data, ⟨numbered, named, kept⟩, number, told⟩
    exact ⟨⟨code, (memberField?_eq_some_iff.mp numbered).1, number⟩,
      (memberField?_eq_some_iff.mp named).1, Option.bind_eq_some_iff.mpr ⟨data, kept, told⟩⟩
  · rintro ⟨⟨code, numbered, number⟩, named, said⟩
    obtain ⟨data, kept, told⟩ := Option.bind_eq_some_iff.mp said
    exact ⟨code, data, ⟨memberField?_required numbered, memberField?_required named, kept⟩, number,
      told⟩

/-- One change of an error object that its reader does not notice. -/
abbrev Retouch : List (String × Json) → List (String × Json) → Prop :=
  Json.Retouch ["code", "message"] ["data"]

theorem Retouch.tells (step : Retouch members retouched) (tells : Tells members e) :
    Tells retouched e := by
  have stays {key : String} (declared : key ∈ ["code", "message"]) :=
    Json.Retouch.valuesAt_required step (by simp) declared
  exact {
    code := by rw [stays (by simp)]; exact tells.code
    message := by rw [stays (by simp)]; exact tells.message
    data := step.said? (by simp) tells.data }

end ResponseError

namespace Message

variable {v w : Json} {m : Message} {members retouched : List (String × Json)}

/-- What the optional fields of an envelope hold if it is this message. -/
structure Holds (id method params result error : Option Json) (m : Message) : Prop where
  id : decodeOption passThrough id = some m.id
  method : decodeOption string? method = some m.method
  params : decodeOption passThrough params = some m.params
  result : decodeOption passThrough result = some m.result
  error : decodeOption ResponseError.ofJson? error = some m.error

/-- The six fields of an envelope, and what each of them holds. -/
theorem ofJson?_eq_some_iff : ofJson? v = some m ↔ ∃ id method params result error,
    v.fields? [("jsonrpc", .required), ("id", .defaulted), ("method", .defaulted),
        ("params", .defaulted), ("result", .defaulted), ("error", .defaulted)] =
        some [some (.str m.jsonrpc), id, method, params, result, error] ∧
      Holds id method params result error m := by
  rw [ofJson?]
  constructor
  · intro read
    obtain ⟨entries, found, read⟩ := Option.bind_eq_some_iff.mp read
    split at read
    · next jsonrpc id method params result error =>
      simp only [Option.bind_eq_bind, Option.bind_eq_some_iff, Option.pure_def,
        Option.some.injEq] at read
      obtain ⟨version, said, _, hasId, _, hasMethod, _, hasParams, _, hasResult, _, hasError, rfl⟩ :=
        read
      cases jsonrpc with
      | str s =>
        obtain rfl := Option.some.inj said
        exact ⟨id, method, params, result, error, found, hasId, hasMethod, hasParams, hasResult,
          hasError⟩
      | _ => contradiction
    · contradiction
  · rintro ⟨id, method, params, result, error, found, holds⟩
    simp [found, holds.id, holds.method, holds.params, holds.result, holds.error, string?]

/-- What is read has no null in it, and only canonical documents. -/
theorem settled_eq_of_read (read : ofJson? v = some m) : m.settled = m := by
  obtain ⟨id, method, params, result, error, -, holds⟩ := ofJson?_eq_some_iff.mp read
  have inside : m.error.map ResponseError.settled = m.error := by
    cases told : m.error with
    | none => rfl
    | some e =>
      obtain ⟨w, -, read⟩ := exists_of_decodeOption (told ▸ holds.error)
      rw [Option.map_some, ResponseError.settled_eq_of_read read]
  rw [settled, settle_of_read holds.id, settle_of_read holds.params, settle_of_read holds.result,
    inside]

theorem fits_of_read (read : ofJson? v = some m) :
    m.error.all (fun e => Decimal.fitsSigned 64 e.code) = true := by
  obtain ⟨id, method, params, result, error, -, holds⟩ := ofJson?_eq_some_iff.mp read
  cases told : m.error with
  | none => rfl
  | some e =>
    obtain ⟨w, -, read⟩ := exists_of_decodeOption (told ▸ holds.error)
    exact ResponseError.fits_of_read read

/-- What was read is read again from what is written of it. -/
theorem ofJson?_toJson_of_read (read : ofJson? v = some m) : ofJson? m.toJson = some m := by
  rw [ofJson?_toJson (fits_of_read read), settled_eq_of_read read]

/-- Nor does the reader of messages see more than the value. -/
theorem stable_ofJson? : Stable ofJson? := fun v m read => by
  obtain ⟨id, method, params, result, error, found, holds⟩ := ofJson?_eq_some_iff.mp read
  exact ofJson?_eq_some_iff.mpr ⟨_, _, _, _, _, fields?_canonical found, {
    id := decodeOption_canonical stable_passThrough holds.id
    method := decodeOption_canonical stable_string? holds.method
    params := decodeOption_canonical stable_passThrough holds.params
    result := decodeOption_canonical stable_passThrough holds.result
    error := decodeOption_canonical ResponseError.stable_ofJson? holds.error }⟩

/-! ## What the members say -/

/-- What the members of an object say if it is this message. -/
structure Tells (members : List (String × Json)) (m : Message) : Prop where
  jsonrpc : valuesAt "jsonrpc" members = [.str m.jsonrpc]
  id : said? passThrough "id" members = some m.id
  method : said? string? "method" members = some m.method
  params : said? passThrough "params" members = some m.params
  result : said? passThrough "result" members = some m.result
  error : said? ResponseError.ofJson? "error" members = some m.error

/-- An object reads as the message that its members tell. -/
theorem ofJson?_obj : ofJson? (.obj members) = some m ↔ Tells members m := by
  rw [ofJson?_eq_some_iff]
  simp only [fields?, mapM_eq_some_iff, List.map_cons, List.map_nil, List.cons.injEq, and_true]
  constructor
  · rintro ⟨id, method, params, result, error, ⟨version, atId, atMethod, atParams, atResult, atError⟩,
      holds⟩
    exact {
      jsonrpc := (memberField?_eq_some_iff.mp version).1
      id := Option.bind_eq_some_iff.mpr ⟨id, atId, holds.id⟩
      method := Option.bind_eq_some_iff.mpr ⟨method, atMethod, holds.method⟩
      params := Option.bind_eq_some_iff.mpr ⟨params, atParams, holds.params⟩
      result := Option.bind_eq_some_iff.mpr ⟨result, atResult, holds.result⟩
      error := Option.bind_eq_some_iff.mpr ⟨error, atError, holds.error⟩ }
  · intro tells
    obtain ⟨id, atId, hasId⟩ := Option.bind_eq_some_iff.mp tells.id
    obtain ⟨method, atMethod, hasMethod⟩ := Option.bind_eq_some_iff.mp tells.method
    obtain ⟨params, atParams, hasParams⟩ := Option.bind_eq_some_iff.mp tells.params
    obtain ⟨result, atResult, hasResult⟩ := Option.bind_eq_some_iff.mp tells.result
    obtain ⟨error, atError, hasError⟩ := Option.bind_eq_some_iff.mp tells.error
    exact ⟨id, method, params, result, error,
      ⟨memberField?_required tells.jsonrpc, atId, atMethod, atParams, atResult, atError⟩,
      hasId, hasMethod, hasParams, hasResult, hasError⟩

/-! ## On the way -/

/-- One change of an envelope that its reader does not notice, in the envelope itself or in
the error object in it. -/
inductive Retouch : List (String × Json) → List (String × Json) → Prop where
  | own {members retouched : List (String × Json)}
      (step : Json.Retouch ["jsonrpc"] ["id", "method", "params", "result", "error"] members
        retouched) :
      Retouch members retouched
  | inError (front back : List (String × Json)) {members retouched : List (String × Json)}
      (step : ResponseError.Retouch members retouched) :
      Retouch (front ++ ("error", .obj members) :: back) (front ++ ("error", .obj retouched) :: back)

/-- A change in the error object is not noticed in the envelope. -/
theorem Tells.inError {front back : List (String × Json)}
    (step : ResponseError.Retouch members retouched)
    (tells : Tells (front ++ ("error", .obj members) :: back) m) :
    Tells (front ++ ("error", .obj retouched) :: back) m := by
  have stays {key : String} (other : "error" ≠ key) :
      valuesAt key (front ++ ("error", Json.obj retouched) :: back) =
        valuesAt key (front ++ ("error", Json.obj members) :: back) := by
    rw [valuesAt_middle_of_ne other, valuesAt_middle_of_ne other]
  have error : said? ResponseError.ofJson? "error" (front ++ ("error", Json.obj retouched) :: back) =
      some m.error := by
    obtain ⟨before, after⟩ := valuesAt_middle_of_said? tells.error
    have said := tells.error
    rw [said?_middle before after] at said ⊢
    obtain ⟨e, read, told⟩ := Option.map_eq_some_iff.mp said
    have same := ResponseError.ofJson?_obj.mpr (step.tells (ResponseError.ofJson?_obj.mp read))
    exact Option.map_eq_some_iff.mpr ⟨e, same, told⟩
  exact {
    jsonrpc := by rw [stays (by decide)]; exact tells.jsonrpc
    id := by rw [said?_congr (stays (by decide))]; exact tells.id
    method := by rw [said?_congr (stays (by decide))]; exact tells.method
    params := by rw [said?_congr (stays (by decide))]; exact tells.params
    result := by rw [said?_congr (stays (by decide))]; exact tells.result
    error }

theorem Retouch.tells (step : Retouch members retouched) (tells : Tells members m) :
    Tells retouched m := by
  cases step with
  | own step =>
    exact {
      jsonrpc := by rw [step.valuesAt_required (by simp) (by simp)]; exact tells.jsonrpc
      id := step.said? (by simp) tells.id
      method := step.said? (by simp) tells.method
      params := step.said? (by simp) tells.params
      result := step.said? (by simp) tells.result
      error := step.said? (by simp) tells.error }
  | inError front back step => exact tells.inError step

/-- What may happen to a document on its way: an object is retouched, only the value is
passed on, or it is read and written anew. -/
inductive Relay : Json → Json → Prop where
  | retouched {members retouched : List (String × Json)} (step : Retouch members retouched) :
      Relay (.obj members) (.obj retouched)
  | value (v : Json) : Relay v v.canonical
  | anew {v : Json} {m : Message} (read : ofJson? v = some m) : Relay v m.toJson

/-- A message is read as before, whatever happened to it on its way. -/
theorem Relay.reads (step : Relay v w) (read : ofJson? v = some m) : ofJson? w = some m := by
  cases step with
  | retouched step => exact ofJson?_obj.mpr (step.tells (ofJson?_obj.mp read))
  | value => exact stable_ofJson? _ _ read
  | anew again =>
    obtain rfl := Option.some.inj (again.symm.trans read)
    exact ofJson?_toJson_of_read read

/-- A document that decodes to a message stays that message on all of its way. -/
theorem reads_of_relayed (way : Relation.ReflTransGen Relay v w) (read : ofJson? v = some m) :
    ofJson? w = some m := by
  induction way with
  | refl => exact read
  | tail _ step ih => exact step.reads ih

/-- What is read from a document is read again when it is written, as a document and as its
value, and whatever comes of the document on its way is read as the same message, addressed
as before. -/
theorem reading_is_canonical (read : ofJson? v = some m) :
    ofJson? m.toJson = some m ∧ ofJson? m.toJson.canonical = some m ∧
      ∀ w, Relation.ReflTransGen Relay v w →
        ofJson? w = some m ∧ (ofJson? w).map incoming = (ofJson? v).map incoming := by
  refine ⟨ofJson?_toJson_of_read read, stable_ofJson? _ _ (ofJson?_toJson_of_read read),
    fun w way => ?_⟩
  have same := reads_of_relayed way read
  exact ⟨same, by rw [same, read]⟩

/-- A notification with a null id and an error that nobody asked for. On its way the nulls
are left out, another one is put in, and so are members that no envelope has. -/
theorem reading_is_canonical_padded :
    let v : Json := .obj [("id", .null), ("jsonrpc", .str "2.0"), ("method", .str "a"),
      ("params", .obj [("b", .ofInt 1), ("a", .null)]),
      ("error", .obj [("code", .ofInt 1), ("data", .null), ("message", .str "e")])]
    let w : Json := .obj [("jsonrpc", .str "2.0"), ("method", .str "a"), ("trace", .ofInt 7),
      ("params", .obj [("b", .ofInt 1), ("a", .null)]),
      ("error", .obj [("code", .ofInt 1), ("message", .str "e")]), ("result", .null)]
    let m : Message := {
      method := some "a"
      params := some (.obj [("a", .null), ("b", .ofInt 1)])
      error := some ⟨1, "e", none⟩ }
    ofJson? v = some m ∧ ofJson? m.toJson = some m ∧ ofJson? m.toJson.canonical = some m ∧
      ofJson? w = some m ∧ (ofJson? w).map incoming = (ofJson? v).map incoming := by
  intro v w m
  have read : ofJson? v = some m := rfl
  let front : List (String × Json) := [("jsonrpc", .str "2.0"), ("method", .str "a")]
  let params : String × Json := ("params", .obj [("b", .ofInt 1), ("a", .null)])
  let padded : List (String × Json) := [("code", .ofInt 1), ("data", .null), ("message", .str "e")]
  let plain : List (String × Json) := [("code", .ofInt 1), ("message", .str "e")]
  have idGone : Relay v (.obj (front ++ [params, ("error", .obj padded)])) :=
    .retouched (.own (.nullGone [] _ (by simp)))
  have dataGone : Relay (.obj (front ++ [params, ("error", .obj padded)]))
      (.obj (front ++ [params, ("error", .obj plain)])) :=
    .retouched (.inError (front ++ [params]) [] (.nullGone [_] [_] (by simp)))
  have traceCome : Relay (.obj (front ++ [params, ("error", .obj plain)]))
      (.obj (front ++ [("trace", .ofInt 7), params, ("error", .obj plain)])) :=
    .retouched (.own (.strayCome front [params, _] _ (by simp)))
  have resultCome : Relay (.obj (front ++ [("trace", .ofInt 7), params, ("error", .obj plain)])) w :=
    .retouched (.own (.nullCome (front ++ [_, params, _]) [] (by simp) rfl))
  -- four changes that say nothing lead from the one to the other
  have way : Relation.ReflTransGen Relay v w :=
    .tail (.tail (.tail (.single idGone) dataGone) traceCome) resultCome
  obtain ⟨again, value, onward⟩ := reading_is_canonical read
  exact ⟨read, again, value, onward w way⟩

end Message

end EmberClient
