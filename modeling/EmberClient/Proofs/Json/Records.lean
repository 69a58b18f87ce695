import EmberClient.Proofs.Json.Canonical
import EmberClient.Proofs.Lists

/-!
# What reading a record depends on

A record is read from its document, but two things about the document are not to make a
difference.

* Only the value counts: the fields of the canonical document are the canonical fields
  (`fields?_canonical`), and to a decoder that is `Stable` they say the same
  (`decodeOption_canonical`).
* In an object a member that is null under a key that may be missing says what its absence
  says, and members that the record has not say nothing. `Retouch` is one change of that
  kind.

> `Retouch.said?`: an object that was retouched says the same under each declared key.
-/

namespace EmberClient.Json

variable {α : Type} {decode : Json → Option α} {a : Option α} {x : Option Json}
  {key other : String} {v : Json} {members retouched front back : List (String × Json)}

/-! ## Entries -/

/-- A field that may be missing is there as its member, or not at all. -/
theorem memberField?_defaulted (here : valuesAt key members = x.toList) :
    memberField? members (key, .defaulted) = some x :=
  memberField?_eq_some_iff.mpr ⟨here, fun _ => nofun⟩

/-- A field that has to be there is its one member. -/
theorem memberField?_required (here : valuesAt key members = [v]) :
    memberField? members (key, .required) = some (some v) :=
  memberField?_eq_some_iff.mpr ⟨here, by simp⟩

/-- The items of an array are the fields in their order, when each of these may be missing. -/
theorem itemFields?_defaulted {declared : List (String × Presence)}
    (missable : ∀ field ∈ declared, field.2 = .defaulted) {items : List Json}
    {entries : List (Option Json)} :
    itemFields? declared items = some entries ↔
      items.length ≤ declared.length ∧
        (List.range declared.length).map (items[·]?) = entries := by
  -- along the declared fields; each takes the first of the items that are left
  induction declared generalizing items entries with
  | nil => cases items <;> simp [itemFields?]
  | cons field fields ih =>
    obtain ⟨first, others⟩ := List.forall_mem_cons.mp missable
    cases items with
    | nil =>
      rw [itemFields?, if_pos first, Option.map_eq_some_iff]
      simp [ih others, List.range_succ_eq_map, Function.comp_def]
    | cons item items =>
      rw [itemFields?, Option.map_eq_some_iff]
      simp [ih others, List.range_succ_eq_map, Function.comp_def, and_assoc]

/-- A value that decodes is one that is there. -/
theorem exists_of_decodeOption {b : α} (read : decodeOption decode x = some (some b)) :
    ∃ v, x = some v ∧ decode v = some b := by
  match x, read with
  | some (.bool _), read | some (.num _), read | some (.str _), read | some (.arr _), read
  | some (.obj _), read => exact ⟨_, rfl, by simpa [decodeOption] using read⟩

/-! ## Only the value counts -/

/-- The decoder does not tell documents of one value apart. -/
def Stable (decode : Json → Option α) : Prop :=
  ∀ v b, decode v = some b → decode v.canonical = some b

theorem stable_passThrough : Stable passThrough := fun v b read => by
  rw [passThrough, canonical_canonical]
  exact read

theorem stable_string? : Stable string? := fun v b read => by
  cases v with
  | str => exact read
  | _ => contradiction

/-- A stable decoder reads a field of the canonical object the same. -/
theorem decodeOption_canonical (stable : Stable decode) (read : decodeOption decode x = some a) :
    decodeOption decode (x.map canonical) = some a := by
  cases x with
  | none => exact read
  | some v =>
    cases v with
    | arr | obj =>
      obtain ⟨b, decoded, rfl⟩ := Option.map_eq_some_iff.mp read
      exact Option.map_eq_some_iff.mpr ⟨b, stable _ _ decoded, rfl⟩
    | _ => exact read

/-- The canonical object has the same fields, made canonical. -/
theorem memberField?_canonical {field : String × Presence}
    (read : memberField? members field = some x) :
    memberField? (sortMembers (canonicalMembers members)) field = some (x.map canonical) := by
  obtain ⟨here, present⟩ := memberField?_eq_some_iff.mp read
  refine memberField?_eq_some_iff.mpr ⟨?_, fun none => present (Option.map_eq_none_iff.mp none)⟩
  rw [valuesAt_canonical, here]
  cases x <;> rfl

theorem itemFields?_map (f : Json → Json) (declared : List (String × Presence)) (items : List Json) :
    itemFields? declared (items.map f) = (itemFields? declared items).map (·.map (·.map f)) := by
  -- along the declared fields; items that are missing at the end count as absent
  induction declared generalizing items with
  | nil => cases items <;> rfl
  | cons field fields ih =>
    cases items with
    | nil =>
      have rest : itemFields? fields [] = (itemFields? fields []).map (·.map (·.map f)) := ih []
      rw [List.map_nil, itemFields?]
      split
      · nth_rewrite 1 [rest]
        rw [Option.map_map, Option.map_map]
        rfl
      · rfl
    | cons v items =>
      rw [List.map_cons, itemFields?, itemFields?, ih, Option.map_map, Option.map_map]
      rfl

/-- The canonical document has the canonical fields, in either form. -/
theorem fields?_canonical {declared : List (String × Presence)} {entries : List (Option Json)}
    (read : fields? declared v = some entries) :
    fields? declared v.canonical = some (entries.map (·.map canonical)) := by
  cases v with
  | obj members => exact mapM_map (fun _ _ => memberField?_canonical) read
  | arr items =>
    rw [canonical, canonicalItems_eq_map, fields?, itemFields?_map]
    exact Option.map_eq_some_iff.mpr ⟨entries, read, rfl⟩
  | _ => contradiction

/-! ## What may come and go -/

/-- What an object says under a key that may be missing. -/
def said? (decode : Json → Option α) (key : String) (members : List (String × Json)) :
    Option (Option α) :=
  (memberField? members (key, .defaulted)).bind (decodeOption decode)

/-- One change of an object with these keys, in any place: a null comes or goes under a key
that may be missing, or a member that the record has not comes or goes. -/
inductive Retouch (required optional : List String) :
    List (String × Json) → List (String × Json) → Prop where
  | nullGone (front back : List (String × Json)) {key : String} (missable : key ∈ optional) :
      Retouch required optional (front ++ (key, .null) :: back) (front ++ back)
  | nullCome (front back : List (String × Json)) {key : String} (missable : key ∈ optional)
      (missing : valuesAt key (front ++ back) = []) :
      Retouch required optional (front ++ back) (front ++ (key, .null) :: back)
  | strayGone (front back : List (String × Json)) {key : String} (v : Json)
      (stray : key ∉ required ++ optional) :
      Retouch required optional (front ++ (key, v) :: back) (front ++ back)
  | strayCome (front back : List (String × Json)) {key : String} (v : Json)
      (stray : key ∉ required ++ optional) :
      Retouch required optional (front ++ back) (front ++ (key, v) :: back)

theorem valuesAt_middle_of_ne (apart : key ≠ other) :
    valuesAt other (front ++ (key, v) :: back) = valuesAt other (front ++ back) := by
  rw [valuesAt_append, valuesAt_append, valuesAt_cons_of_ne apart]

/-- What a key says depends on its values alone. -/
theorem said?_congr (same : valuesAt key retouched = valuesAt key members) :
    said? decode key retouched = said? decode key members := by
  rw [said?, said?, memberField?, memberField?, same]

/-- A member that is there once says what it decodes to. -/
theorem said?_of_valuesAt (here : valuesAt key members = x.toList) :
    said? decode key members = decodeOption decode x := by
  rw [said?, memberField?_defaulted here, Option.bind_some]

/-- Where a member says something, it is the only one with its key. -/
theorem valuesAt_middle_of_said? (said : said? decode key (front ++ (key, v) :: back) = some a) :
    valuesAt key front = [] ∧ valuesAt key back = [] := by
  obtain ⟨x, found, -⟩ := Option.bind_eq_some_iff.mp said
  obtain ⟨here, -⟩ := memberField?_eq_some_iff.mp found
  have alone : (valuesAt key front ++ v :: valuesAt key back).length ≤ 1 := by
    rw [valuesAt_append, valuesAt_cons, if_pos rfl] at here
    rw [here]
    cases x <;> simp
  rw [List.length_append, List.length_cons] at alone
  exact ⟨List.length_eq_zero_iff.mp (by omega), List.length_eq_zero_iff.mp (by omega)⟩

/-- The only member with its key says what its value says. -/
theorem said?_middle (before : valuesAt key front = []) (after : valuesAt key back = []) :
    said? decode key (front ++ (key, v) :: back) = decodeOption decode (some v) :=
  said?_of_valuesAt (by simp [before, after])

namespace Retouch

variable {required optional : List String}

/-- A member that may not be missing stays as it is. -/
theorem valuesAt_required (step : Retouch required optional members retouched)
    (apart : required.Disjoint optional) (declared : key ∈ required) :
    valuesAt key retouched = valuesAt key members := by
  cases step with
  | nullGone front back missable | nullCome front back missable =>
    rw [valuesAt_middle_of_ne]
    rintro rfl
    exact apart declared missable
  | strayGone front back v stray | strayCome front back v stray =>
    rw [valuesAt_middle_of_ne]
    rintro rfl
    exact stray (List.mem_append_left _ declared)

/-- An object that was retouched says the same. -/
theorem said? (step : Retouch required optional members retouched) (declared : key ∈ optional)
    (said : Json.said? decode key members = some a) : Json.said? decode key retouched = some a := by
  cases step with
  | @nullGone front back name missable =>
    by_cases same : name = key
    · subst same
      obtain ⟨before, after⟩ := valuesAt_middle_of_said? said
      rw [said?_middle before after] at said
      rw [said?_of_valuesAt (x := none) (by simp [before, after])]
      exact said
    · rw [← said, said?_congr (valuesAt_middle_of_ne same).symm]
  | @nullCome front back name missable missing =>
    by_cases same : name = key
    · subst same
      rw [said?_of_valuesAt (x := none) missing] at said
      obtain ⟨before, after⟩ := List.append_eq_nil_iff.mp (valuesAt_append.symm.trans missing)
      rw [said?_middle before after]
      exact said
    · rw [← said, said?_congr (valuesAt_middle_of_ne same)]
  | strayGone front back v stray | strayCome front back v stray =>
    rw [← said]
    refine said?_congr ?_
    rw [valuesAt_middle_of_ne]
    rintro rfl
    exact stray (List.mem_append_right _ declared)

end Retouch

end EmberClient.Json
