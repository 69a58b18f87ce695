import EmberClient.Json.Basic

/-!
# Records in JSON

A record with declared fields is read from an object or from an array.

* In an object the keys of the fields count and others do not. One of them
  standing twice is an error, so is a required one that is missing.
* In an array the items are the fields in their order. There may be fewer only
  if all fields that are left have a default, and never more.

`fields?` returns one entry per declared field, `none` where it is absent;
decoding what an entry holds is the caller's work.
-/

namespace EmberClient.Json

/-- When a field may be absent. -/
inductive Presence where
  /-- Never. -/
  | required
  /-- From an object; an array names its fields by place, so there it must be. -/
  | optional
  /-- From an object, and from the end of an array. -/
  | defaulted
  deriving DecidableEq

/-- The value of a declared field among the members of an object. -/
def memberField? (members : List (String × Json)) (field : String × Presence) :
    Option (Option Json) :=
  match valuesAt field.1 members with
  | [] => if field.2 = .required then none else some none
  | [v] => some (some v)
  | _ => none

/-- An entry is what stands under the key, one value or none. -/
theorem memberField?_eq_some_iff {members : List (String × Json)} {field : String × Presence}
    {x : Option Json} :
    memberField? members field = some x ↔
      valuesAt field.1 members = x.toList ∧ (x = none → field.2 ≠ .required) := by
  rw [memberField?]
  match valuesAt field.1 members, x with
  | [], none => simp
  | [], some v => simp
  | [w], none => simp
  | [w], some v => simp
  | _ :: _ :: _, none => simp
  | _ :: _ :: _, some v => simp

/-- The values of declared fields among the items of an array. -/
def itemFields? : List (String × Presence) → List Json → Option (List (Option Json))
  | [], [] => some []
  | [], _ :: _ => none
  | (_, presence) :: fields, [] =>
    if presence = .defaulted then (itemFields? fields []).map (none :: ·) else none
  | _ :: fields, v :: items => (itemFields? fields items).map (some v :: ·)

/-- The values of the declared fields of a record. -/
def fields? (declared : List (String × Presence)) : Json → Option (List (Option Json))
  | .obj members => declared.mapM (memberField? members)
  | .arr items => itemFields? declared items
  | _ => none

/-- The values of the declared fields of a record that is written as an object
only. -/
def objectFields? (declared : List (String × Presence)) : Json → Option (List (Option Json))
  | .obj members => declared.mapM (memberField? members)
  | _ => none

/-! ## What a field holds -/

/-- An absent field and null both mean that there is none. -/
def decodeOption {α : Type} (decode : Json → Option α) : Option Json → Option (Option α)
  | none => some none
  | some .null => some none
  | some v => (decode v).map some

/-- An absent field has its default; null is no value of it. -/
def decodeDefault {α : Type} (default : α) (decode : Json → Option α) :
    Option Json → Option α
  | none => some default
  | some v => decode v

/-- An item of an enumeration: its name, or an object whose only key is its name
and whose value is null. -/
def variantName? : Json → Option String
  | .str name => some name
  | .obj [(name, .null)] => some name
  | _ => none

/-- Every item of a list, decoded. -/
def decodeList {α : Type} (decode : Json → Option α) : Json → Option (List α)
  | .arr items => items.mapM decode
  | _ => none

/-- A list reads as texts when all of it is texts. -/
theorem mapM_string?_eq_some_iff {items : List Json} {texts : List String} :
    items.mapM string? = some texts ↔ items = texts.map .str := by
  have text : ∀ {v : Json} {s : String}, v.string? = some s ↔ v = .str s := by
    intro v s
    cases v <;> simp [string?]
  induction items generalizing texts with
  | nil => cases texts <;> simp
  | cons item items ih => cases texts <;> simp [Option.bind_eq_some_iff, text, ih]

/-- A value that is passed through; only its value counts. -/
def passThrough (v : Json) : Option Json := some v.canonical

end EmberClient.Json
