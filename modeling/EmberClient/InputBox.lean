import EmberClient.Json.Record

/-!
# The input box

What a prompt shows and how it behaves. A server sends the options as a JSON
record; only an object or an array is one, and a flag must be true or false.
-/

namespace EmberClient

/-- Options of a prompt. -/
structure InputBoxOptions where
  prompt : Option String := none
  placeHolder : Option String := none
  /-- What the box holds when it opens. -/
  value : Option String := none
  password : Bool := false
  ignoreFocusOut : Bool := false
  deriving DecidableEq, Inhabited

namespace InputBoxOptions

open Json in
/-- Reads the options; every one of them may be missing. -/
def ofJson? (v : Json) : Option InputBoxOptions := do
  match ← v.fields? [("prompt", .defaulted), ("placeHolder", .defaulted), ("value", .defaulted),
      ("password", .defaulted), ("ignoreFocusOut", .defaulted)] with
  | [prompt, placeHolder, value, password, ignoreFocusOut] =>
    return {
      prompt := ← decodeOption string? prompt
      placeHolder := ← decodeOption string? placeHolder
      value := ← decodeOption string? value
      password := ← decodeDefault false bool? password
      ignoreFocusOut := ← decodeDefault false bool? ignoreFocusOut }
  | _ => none

/-- Writes the options; texts that are absent are left out. -/
def toJson (o : InputBoxOptions) : Json :=
  let text (name : String) (value : Option String) : List (String × Json) :=
    (value.map fun s => (name, Json.str s)).toList
  .object (text "prompt" o.prompt ++ text "placeHolder" o.placeHolder ++ text "value" o.value ++
    [("password", .bool o.password), ("ignoreFocusOut", .bool o.ignoreFocusOut)])

end InputBoxOptions

end EmberClient
