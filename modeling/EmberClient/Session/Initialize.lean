import EmberClient.Json.Record

/-!
# The answer to the first request

In the answer to the first request a server tells what it can do. The client uses one
thing of it: the commands that the server runs.

Which answers have the shape that the protocol lays down is the matter of a library of
the protocol's types. To the client that is an `InitializeReader`, of which it knows one
law: what is read about commands is what stands in the answer. `InitializeReader.outlined`
keeps to that law. It looks at no more of an answer than the commands and the name of the
server, so it takes some that a stricter reader refuses.
-/

namespace EmberClient

open Json

/-- What a server tells about its commands. -/
structure CommandProvider where
  commands : List String

/-- What a server can do, as far as the client asks. -/
structure ServerCapabilities where
  commandProvider : Option CommandProvider := none

/-- The answer to the first request. -/
structure InitializeResult where
  capabilities : ServerCapabilities := {}

/-- The commands that a server advertises; none if it tells nothing about them. -/
def InitializeResult.commands (r : InitializeResult) : List String :=
  match r.capabilities.commandProvider with
  | some provider => provider.commands
  | none => []

/-- What the members of the capabilities tell about commands. -/
inductive CommandProvider.Told (capabilities : List (String × Json)) :
    Option CommandProvider → Prop where
  /-- Nothing stands there, or null. -/
  | nothing (silent : ∀ v ∈ valuesAt "executeCommandProvider" capabilities, v = .null) :
    Told capabilities none
  | commands {provider : List (String × Json)} {names : List String}
      (provides : .obj provider ∈ valuesAt "executeCommandProvider" capabilities)
      (lists : .arr (names.map .str) ∈ valuesAt "commands" provider) :
    Told capabilities (some ⟨names⟩)

/-- How the answer to the first request is read; `none` if it has not the shape that the
protocol lays down. -/
structure InitializeReader where
  read : Json → Option InitializeResult
  /-- What is read about commands is what the answer tells about them. -/
  told : ∀ {answer capabilities : List (String × Json)} {result : InitializeResult},
    read (.obj answer) = some result → .obj capabilities ∈ valuesAt "capabilities" answer →
      CommandProvider.Told capabilities result.capabilities.commandProvider

/-! ## A reader of the outline -/

namespace InitializeReader

/-- Who the server is. -/
def isServerInfo (v : Json) : Bool :=
  (do
    match ← v.fields? [("name", .required), ("version", .optional)] with
    | [some name, version] =>
      let _ ← name.string?
      decodeOption string? version
    | _ => none).isSome

def commandProvider? (v : Json) : Option CommandProvider := do
  match ← v.objectFields? [("commands", .required), ("workDoneProgress", .optional)] with
  | [some commands, progress] =>
    let _ ← decodeOption bool? progress
    return { commands := ← decodeList string? commands }
  | _ => none

/-- The capabilities; a server may have none. -/
def capabilities? (v : Json) : Option ServerCapabilities := do
  match ← v.objectFields? [("executeCommandProvider", .optional)] with
  | [provider] => return { commandProvider := ← decodeOption commandProvider? provider }
  | _ => none

/-- The answer, as far as the client uses it. -/
def result? (v : Json) : Option InitializeResult := do
  match ← v.fields? [("capabilities", .required), ("serverInfo", .optional)] with
  | [some capabilities, info] =>
    let _ ← decodeOption (fun v => if isServerInfo v then some () else none) info
    return { capabilities := ← capabilities? capabilities }
  | _ => none

/-! ### Its law -/

variable {members answer capabilities : List (String × Json)} {x : Option Json} {v : Json}

/-- The fields of an object with two of them. -/
theorem fields_of_pair {first second : String × Presence} {fields : List (Option Json)}
    (read : [first, second].mapM (memberField? members) = some fields) :
    ∃ x y, fields = [x, y] ∧ valuesAt first.1 members = x.toList := by
  simp only [List.mapM_cons, List.mapM_nil, bind, Option.bind_eq_some_iff, pure,
    Option.some.injEq] at read
  obtain ⟨x, here, _, ⟨y, _, _, rfl, rfl⟩, rfl⟩ := read
  exact ⟨x, y, rfl, (memberField?_eq_some_iff.mp here).1⟩

/-- A provider that is read lists its commands. -/
theorem exists_of_commandProvider? {provider : CommandProvider}
    (read : commandProvider? v = some provider) :
    ∃ members, v = .obj members ∧
      .arr (provider.commands.map .str) ∈ valuesAt "commands" members := by
  simp only [commandProvider?, bind, Option.bind_eq_some_iff] at read
  obtain ⟨fields, present, read⟩ := read
  cases v with
  | obj members =>
    obtain ⟨x, y, rfl, here⟩ := fields_of_pair present
    cases x with
    | none => contradiction
    | some commands =>
      simp only [Option.bind_eq_some_iff, pure, Option.some.injEq] at read
      obtain ⟨-, -, names, reads, rfl⟩ := read
      refine ⟨members, rfl, ?_⟩
      cases commands with
      | arr items =>
        rw [here, ← mapM_string?_eq_some_iff.mp reads]
        exact List.mem_singleton_self _
      | _ => contradiction
  | _ => contradiction

theorem told_of_capabilities? {result : ServerCapabilities}
    (read : capabilities? (.obj capabilities) = some result) :
    CommandProvider.Told capabilities result.commandProvider := by
  simp only [capabilities?, objectFields?, List.mapM_cons, List.mapM_nil, Option.bind_eq_bind,
    Option.pure_def, Option.bind_eq_some_iff, Option.some.injEq] at read
  obtain ⟨_, ⟨x, present, _, rfl, rfl⟩, read⟩ := read
  obtain ⟨provider, decoded, read⟩ := Option.bind_eq_some_iff.mp read
  obtain rfl := Option.some.inj read
  have here := (memberField?_eq_some_iff.mp present).1
  -- the provider is missing, null, or one that lists its commands
  match x, decoded with
  | none, rfl => exact .nothing fun v mem => by simp [here] at mem
  | some .null, rfl => exact .nothing fun v mem => by simpa [here] using mem
  | some (.obj members), decoded =>
    obtain ⟨provider, reads, rfl⟩ := Option.map_eq_some_iff.mp decoded
    obtain ⟨_, same, lists⟩ := exists_of_commandProvider? reads
    obtain rfl := Json.obj.inj same
    exact .commands (by simp [here]) lists
  | some (.bool _), decoded | some (.num _), decoded | some (.str _), decoded
  | some (.arr _), decoded => contradiction

/-- A reader that looks at no more than the commands and the name of the server. -/
def outlined : InitializeReader where
  read := result?
  told {answer capabilities result} read mem := by
    simp only [result?, fields?, bind, Option.bind_eq_some_iff] at read
    obtain ⟨fields, present, read⟩ := read
    obtain ⟨x, info, rfl, here⟩ := fields_of_pair present
    rw [here, Option.mem_toList] at mem
    obtain rfl := mem
    simp only [Option.bind_eq_some_iff, pure, Option.some.injEq] at read
    obtain ⟨-, -, told, reads, rfl⟩ := read
    exact told_of_capabilities? reads

end InitializeReader

end EmberClient
