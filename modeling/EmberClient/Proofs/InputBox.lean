import EmberClient.InputBox
import EmberClient.Proofs.Json.Records

/-!
# What a document tells about a prompt

The options of a prompt stand under their names in an object, or at their places in an array. A
text may be null there, a flag may not; either may be missing.

> `ofJson?_eq_some_iff`: the options that are read are the ones that the document tells.
-/

namespace EmberClient.InputBoxOptions

open Json

variable {v : Json} {o : InputBoxOptions}

/-- What is given for a text; null gives none. -/
inductive Text : Option Json → Option String → Prop where
  | missing : Text none none
  | null : Text (some .null) none
  | text (s : String) : Text (some (.str s)) (some s)

/-- What is given for a flag; without it the flag is down, and null is no flag. -/
inductive Flag : Option Json → Bool → Prop where
  | missing : Flag none false
  | flag (b : Bool) : Flag (some (.bool b)) b

/-- The five options, from what is given for each of them, by place and name. -/
structure Given (given : Nat → String → Option Json → Prop) (o : InputBoxOptions) : Prop where
  prompt : ∃ x, given 0 "prompt" x ∧ Text x o.prompt
  placeHolder : ∃ x, given 1 "placeHolder" x ∧ Text x o.placeHolder
  value : ∃ x, given 2 "value" x ∧ Text x o.value
  password : ∃ x, given 3 "password" x ∧ Flag x o.password
  ignoreFocusOut : ∃ x, given 4 "ignoreFocusOut" x ∧ Flag x o.ignoreFocusOut

/-- What a document tells about the prompt. -/
inductive Tells : Json → InputBoxOptions → Prop where
  /-- In an object a name stands once or not at all, and other names do not count. -/
  | members {members : List (String × Json)} {o : InputBoxOptions}
      (given : Given (fun _ name x => valuesAt name members = x.toList) o) : Tells (.obj members) o
  | items {items : List Json} {o : InputBoxOptions} (few : items.length ≤ 5)
      (given : Given (fun place _ x => items[place]? = x) o) : Tells (.arr items) o

/-- A text is read from what `Text` allows. -/
theorem decodeOption_string?_iff {x : Option Json} {text : Option String} :
    decodeOption string? x = some text ↔ Text x text := by
  constructor
  · intro read
    match x with
    | none =>
      obtain rfl := Option.some.inj read
      exact .missing
    | some .null =>
      obtain rfl := Option.some.inj read
      exact .null
    | some (.str s) =>
      obtain rfl := Option.some.inj read
      exact .text s
    | some (.bool _) | some (.num _) | some (.arr _) | some (.obj _) => contradiction
  · intro given
    cases given <;> rfl

/-- A flag is read from what `Flag` allows. -/
theorem decodeDefault_bool?_iff {x : Option Json} {flag : Bool} :
    decodeDefault false bool? x = some flag ↔ Flag x flag := by
  constructor
  · intro read
    match x with
    | none =>
      obtain rfl := Option.some.inj read
      exact .missing
    | some (.bool b) =>
      obtain rfl := Option.some.inj read
      exact .flag b
    | some .null | some (.num _) | some (.str _) | some (.arr _) | some (.obj _) => contradiction
  · intro given
    cases given <;> rfl

/-- The options are read from what is given for the five fields. -/
theorem ofJson?_iff_given {given : Nat → String → Option Json → Prop}
    (found : ∀ {prompt placeHolder value password ignoreFocusOut},
      v.fields? [("prompt", .defaulted), ("placeHolder", .defaulted), ("value", .defaulted),
          ("password", .defaulted), ("ignoreFocusOut", .defaulted)] =
        some [prompt, placeHolder, value, password, ignoreFocusOut] ↔
      given 0 "prompt" prompt ∧ given 1 "placeHolder" placeHolder ∧ given 2 "value" value ∧
        given 3 "password" password ∧ given 4 "ignoreFocusOut" ignoreFocusOut) :
    ofJson? v = some o ↔ Given given o := by
  rw [ofJson?]
  constructor
  · intro read
    obtain ⟨entries, fields, read⟩ := Option.bind_eq_some_iff.mp read
    split at read
    · next prompt placeHolder value password ignoreFocusOut =>
      obtain ⟨first, second, third, fourth, fifth⟩ := found.mp fields
      simp only [Option.bind_eq_bind, Option.bind_eq_some_iff, Option.pure_def,
        Option.some.injEq] at read
      obtain ⟨_, prompts, _, hints, _, held, _, hides, _, stays, rfl⟩ := read
      exact {
        prompt := ⟨_, first, decodeOption_string?_iff.mp prompts⟩
        placeHolder := ⟨_, second, decodeOption_string?_iff.mp hints⟩
        value := ⟨_, third, decodeOption_string?_iff.mp held⟩
        password := ⟨_, fourth, decodeDefault_bool?_iff.mp hides⟩
        ignoreFocusOut := ⟨_, fifth, decodeDefault_bool?_iff.mp stays⟩ }
    · contradiction
  · rintro ⟨⟨_, first, prompts⟩, ⟨_, second, hints⟩, ⟨_, third, held⟩, ⟨_, fourth, hides⟩,
      ⟨_, fifth, stays⟩⟩
    simp [found.mpr ⟨first, second, third, fourth, fifth⟩, decodeOption_string?_iff.mpr prompts,
      decodeOption_string?_iff.mpr hints, decodeOption_string?_iff.mpr held,
      decodeDefault_bool?_iff.mpr hides, decodeDefault_bool?_iff.mpr stays]

/-- The members of an object give the options by name. -/
theorem ofJson?_obj {members : List (String × Json)} :
    ofJson? (.obj members) = some o ↔
      Given (fun _ name x => valuesAt name members = x.toList) o := by
  refine ofJson?_iff_given ?_
  simp only [fields?, mapM_eq_some_iff]
  simp [memberField?_eq_some_iff]

/-- The items of an array give them by place, and there are no others. -/
theorem ofJson?_arr {items : List Json} :
    ofJson? (.arr items) = some o ↔
      items.length ≤ 5 ∧ Given (fun place _ x => items[place]? = x) o := by
  by_cases few : items.length ≤ 5
  · have given : ofJson? (.arr items) = some o ↔ Given (fun place _ x => items[place]? = x) o :=
      ofJson?_iff_given (by simp [fields?, itemFields?_defaulted, few, List.range_succ_eq_map])
    exact given.trans (and_iff_right few).symm
  · refine iff_of_false (fun read => few ?_) fun told => few told.1
    obtain ⟨entries, fields, -⟩ := Option.bind_eq_some_iff.mp read
    exact ((itemFields?_defaulted (by simp)).mp fields).1

/-- The options that are read are those that the document tells, in either form. -/
theorem ofJson?_eq_some_iff : ofJson? v = some o ↔ Tells v o := by
  cases v with
  | obj members => exact ofJson?_obj.trans ⟨.members, fun | .members given => given⟩
  | arr items =>
    exact ofJson?_arr.trans ⟨fun told => .items told.1 told.2, fun | .items few given => ⟨few, given⟩⟩
  | _ => exact iff_of_false nofun nofun

end EmberClient.InputBoxOptions
