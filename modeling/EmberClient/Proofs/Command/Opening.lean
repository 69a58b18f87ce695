import EmberClient.Lens
import EmberClient.Session.Dispatch

/-!
# A click on a lens opens its file

A lens hands the path of its file over as one text. Older ones sent it in pieces, as
arguments of their own or in one array, and one decoder takes all of them. A sole array is
always opened, never an argument itself, so the three forms do not get in each other's way
(`pathParts_eq_iff`), and what is left is to join texts (`joinTexts?_eq_some_iff`).

> `click_opens_file`: the pieces of a path give the path, however it was cut, and nothing
> else gives one.
-/

namespace EmberClient

open Json

/-- The command and the arguments that stand in a lens as the protocol writes it. -/
def Json.clicked? (codeLens : Json) : Option (String × List Json) := do
  let command ← codeLens.member? "command"
  let name ← (← command.member? "command").string?
  let arguments ← (← command.member? "arguments").items?
  return (name, arguments)

/-- A click on a lens that was sent gets the command that the lens carries. -/
theorem Lens.clicked?_toJson (lens : Lens) : lens.toJson.clicked? = some lens.command := rfl

namespace ClientCommand

/-! ## Pieces of a path -/

/-- The arguments hand over these pieces: each as an argument, or all in one array. -/
inductive HandsOver (pieces : List String) : List Json → Prop where
  | spread : HandsOver pieces (pieces.map .str)
  | nested : HandsOver pieces [.arr (pieces.map .str)]

/-- Where the pieces of a path are looked for. -/
def pathParts : List Json → List Json
  | [.arr parts] => parts
  | arguments => arguments

theorem pathParts_texts (pieces : List String) : pathParts (pieces.map .str) = pieces.map .str := by
  unfold pathParts
  split
  · next parts same =>
    -- texts are no array
    cases pieces with
    | nil => contradiction
    | cons piece pieces => exact absurd (List.cons.inj same).1 (by simp)
  · rfl

/-- The parts of a path are the pieces that were handed over, nested or not. -/
theorem pathParts_eq_iff {arguments : List Json} {pieces : List String} :
    pathParts arguments = pieces.map .str ↔ HandsOver pieces arguments := by
  constructor
  · intro same
    unfold pathParts at same
    split at same
    · rw [same]
      exact .nested
    · rw [same]
      exact .spread
  · rintro (_ | _)
    · exact pathParts_texts pieces
    · rfl

/-- Parts join to a path when all of them are texts. -/
theorem joinTexts?_eq_some_iff {parts : List Json} {path : String} :
    joinTexts? parts = some path ↔ ∃ pieces, parts = pieces.map .str ∧ String.join pieces = path := by
  simp only [joinTexts?, Option.map_eq_some_iff, mapM_string?_eq_some_iff]

/-- What the pieces of a path must be, whatever they are handed over as. -/
theorem joinTexts?_pathParts {arguments : List Json} {path : String} :
    joinTexts? (pathParts arguments) = some path ↔
      ∃ pieces, HandsOver pieces arguments ∧ String.join pieces = path := by
  simp only [joinTexts?_eq_some_iff, pathParts_eq_iff]

/-! ## What is read as a path -/

theorem pathArgument_eq (arguments : List Json) :
    pathArgument arguments =
      match joinTexts? (pathParts arguments) with
      | some path => if path = "" then .error (.missingArgument "path") else .ok path
      | none => .error (.missingArgument "path") := rfl

/-- Pieces that join to something are the path. -/
theorem pathArgument_of_joins {pieces : List String} {arguments : List Json}
    (hands : HandsOver pieces arguments) (something : String.join pieces ≠ "") :
    pathArgument arguments = .ok (String.join pieces) := by
  have joined := joinTexts?_pathParts.mpr ⟨pieces, hands, rfl⟩
  simp only [pathArgument_eq, joined, if_neg something]

/-- Where nothing joins, the path is missing. -/
theorem pathArgument_of_nothing {arguments : List Json}
    (nothing : ∀ pieces, HandsOver pieces arguments → String.join pieces = "") :
    pathArgument arguments = .error (.missingArgument "path") := by
  rw [pathArgument_eq]
  cases joined : joinTexts? (pathParts arguments) with
  | none => rfl
  | some path =>
    obtain ⟨pieces, hands, rfl⟩ := joinTexts?_pathParts.mp joined
    exact if_pos (nothing pieces hands)

theorem parse_openRelatedFile (arguments : List Json) :
    parse Command.openRelatedFile arguments =
      (pathArgument arguments).map fun path => some (.openRelatedFile path) := by
  cases read : pathArgument arguments <;> simp [parse, read] <;> rfl

/-- Pieces that join to something are what the command opens. -/
theorem parse_of_joins {pieces : List String} {arguments : List Json}
    (hands : HandsOver pieces arguments) (something : String.join pieces ≠ "") :
    parse Command.openRelatedFile arguments = .ok (some (.openRelatedFile (String.join pieces))) := by
  rw [parse_openRelatedFile, pathArgument_of_joins hands something]
  rfl

/-- Without a path the command is missing its argument. -/
theorem parse_of_nothing {arguments : List Json}
    (nothing : ∀ pieces, HandsOver pieces arguments → String.join pieces = "") :
    parse Command.openRelatedFile arguments = .error (.missingArgument "path") := by
  rw [parse_openRelatedFile, pathArgument_of_nothing nothing]
  rfl

/-- Arguments hand over the pieces of a path, or they give none. -/
theorem joins_or_nothing (arguments : List Json) :
    (∃ pieces, HandsOver pieces arguments ∧ String.join pieces ≠ "") ∨
      ∀ pieces, HandsOver pieces arguments → String.join pieces = "" := by
  by_cases joins : ∃ pieces, HandsOver pieces arguments ∧ String.join pieces ≠ ""
  · exact .inl joins
  · refine .inr fun pieces hands => Classical.byContradiction fun something => ?_
    exact joins ⟨pieces, hands, something⟩

/-- A path that is read is what the pieces join to. -/
theorem parse_eq_ok_iff {arguments : List Json} {command : Option ClientCommand} :
    parse Command.openRelatedFile arguments = .ok command ↔
      ∃ pieces, HandsOver pieces arguments ∧ String.join pieces ≠ "" ∧
        command = some (.openRelatedFile (String.join pieces)) := by
  constructor
  · intro parsed
    rcases joins_or_nothing arguments with ⟨pieces, hands, something⟩ | nothing
    · rw [parse_of_joins hands something] at parsed
      exact ⟨pieces, hands, something, (Except.ok.inj parsed).symm⟩
    · rw [parse_of_nothing nothing] at parsed
      contradiction
  · rintro ⟨pieces, hands, something, rfl⟩
    exact parse_of_joins hands something

/-- The only fault is the missing path, and it is there when nothing joins. -/
theorem parse_eq_error_iff {arguments : List Json} {fault : Fault} :
    parse Command.openRelatedFile arguments = .error fault ↔
      (∀ pieces, HandsOver pieces arguments → String.join pieces = "") ∧
        fault = .missingArgument "path" := by
  constructor
  · intro refused
    rcases joins_or_nothing arguments with ⟨pieces, hands, something⟩ | nothing
    · rw [parse_of_joins hands something] at refused
      contradiction
    · rw [parse_of_nothing nothing] at refused
      exact ⟨nothing, (Except.error.inj refused).symm⟩
  · rintro ⟨nothing, rfl⟩
    exact parse_of_nothing nothing

/-! ## Clicks -/

open Session in
/-- What is read as a path is opened; a failure to do so is only shown. -/
theorem execute_of_parse {name path : String} {arguments : List Json} (setup : Setup)
    (parsed : parse name arguments = .ok (some (.openRelatedFile path))) :
    Dispatch.execute setup name arguments = Dispatch.contained (ask (.openFile path)) := by
  simp only [Dispatch.execute, parsed, Dispatch.run]

open Session in
/-- **A click on a lens opens the file that the lens names.** The command that stands in the
lens of a labelled file is read as the order to open that very path, and whoever runs it
opens the path. So it is with the same path in any pieces, each an argument of its own or all
in one array; and arguments that are no such pieces, or pieces of nothing, are refused for
the lack of a path. -/
theorem click_opens_file :
    (∀ entry : RelatedFile.Entry, entry.path ≠ "" →
      ∃ name arguments, (Lens.ofEntry entry).toJson.clicked? = some (name, arguments) ∧
        parse name arguments = .ok (some (.openRelatedFile entry.path)) ∧
        ∀ setup, Dispatch.execute setup name arguments =
          Dispatch.contained (ask (.openFile entry.path))) ∧
    (∀ path pieces, path ≠ "" → String.join pieces = path →
      parse Command.openRelatedFile (pieces.map .str) = .ok (some (.openRelatedFile path)) ∧
      parse Command.openRelatedFile [.arr (pieces.map .str)] =
        .ok (some (.openRelatedFile path))) ∧
    ∀ arguments,
      (∀ command, parse Command.openRelatedFile arguments = .ok command ↔
        ∃ pieces, HandsOver pieces arguments ∧ String.join pieces ≠ "" ∧
          command = some (.openRelatedFile (String.join pieces))) ∧
      ∀ fault, parse Command.openRelatedFile arguments = .error fault ↔
        (∀ pieces, HandsOver pieces arguments → String.join pieces = "") ∧
          fault = .missingArgument "path" := by
  refine ⟨fun entry named => ?_, ?_, fun arguments => ⟨fun _ => parse_eq_ok_iff, fun _ => parse_eq_error_iff⟩⟩
  · have whole : String.join [entry.path] = entry.path := by simp [String.join]
    have hands : HandsOver [entry.path] [.str entry.path] := .spread
    have parsed := parse_of_joins hands (whole.symm ▸ named)
    rw [whole] at parsed
    exact ⟨_, _, Lens.clicked?_toJson _, parsed, fun setup => execute_of_parse setup parsed⟩
  · rintro path pieces something rfl
    exact ⟨parse_of_joins .spread something, parse_of_joins .nested something⟩

/-- `click_opens_file` at one path in its three forms: whole in a lens, in pieces of which one
is empty, and in an array of them. -/
theorem click_opens_file_pieces :
    (∃ name arguments,
      Json.clicked? (Lens.ofEntry ⟨"template", "/app/é.hbs"⟩).toJson = some (name, arguments) ∧
        parse name arguments = .ok (some (.openRelatedFile "/app/é.hbs"))) ∧
    parse Command.openRelatedFile [.str "/app/", .str "", .str "é", .str ".hbs"] =
      .ok (some (.openRelatedFile "/app/é.hbs")) ∧
    parse Command.openRelatedFile [.arr [.str "/app/", .str "", .str "é", .str ".hbs"]] =
      .ok (some (.openRelatedFile "/app/é.hbs")) := by
  obtain ⟨clicks, joins, -⟩ := click_opens_file
  obtain ⟨name, arguments, clicked, parsed, -⟩ := clicks ⟨"template", "/app/é.hbs"⟩ (by decide)
  have pieces := joins "/app/é.hbs" ["/app/", "", "é", ".hbs"] (by decide) (by decide)
  exact ⟨⟨name, arguments, clicked, parsed⟩, pieces⟩

end ClientCommand

end EmberClient
