import EmberClient.Proofs.Path.Spelling
import EmberClient.RelatedFile.Label

/-!
# Labels beside the open document

A label is put together from words and cut down again, by the first occurrence of a part in it.
What the words are is known, so what can be left of them is, whatever the path and the rest of
the list: no word has an underscore, and cutting brings in nothing but words. So the underscores
around the label of the open document are its own, and tell it from every other label.

The rest of the list matters to a label in one way only, by what the server says of the document
itself. Inserting a file that is not the document does not touch that, and the separators that
paths are written with make no difference to whether a file is the document.

> `classify_laws`: one label for each file of a longer list, marked just if it is the document's,
> and left alone by separators and by what is inserted beside it.

The type of a file is among the words of its label just if the file is on a route's path. So off
it there is nothing for the rule to cut that leaves out a type which the document shares, and
nothing to write a script by (`structuredLabel_of_offRoute`):

> `labelled_by_rule_iff`: beside a document whose type is known, such a script is labelled by the
> rule just if it has that type.
-/

namespace EmberClient

namespace Text

variable {c : Char} {cs part new : List Char}

/-! ## Trimming and replacing -/

/-- Replacing brings in nothing but the new text. -/
theorem mem_of_mem_replaceFirstChars (h : c ∈ replaceFirstChars part new cs) :
    c ∈ new ∨ c ∈ cs := by
  -- along the text, up to where the part stands
  induction cs with
  | nil =>
    unfold replaceFirstChars at h
    split at h
    · exact .inl h
    · exact .inr h
  | cons d cs ih =>
    unfold replaceFirstChars at h
    split at h
    · rcases List.mem_append.mp h with inNew | later
      · exact .inl inNew
      · exact .inr (List.mem_of_mem_drop later)
    · rcases List.mem_cons.mp h with rfl | later
      · exact .inr List.mem_cons_self
      · exact (ih later).imp_right (List.mem_cons_of_mem d)

theorem replaceFirstChars_of_not_occurs (h : occurs part cs = false) :
    replaceFirstChars part new cs = cs := by
  induction cs with
  | nil =>
    have nonempty : part.isEmpty = false := h
    simp [replaceFirstChars, nonempty]
  | cons d cs ih =>
    simp only [occurs, Bool.or_eq_false_iff] at h
    simp [replaceFirstChars, h.1, ih h.2]

/-- A part that does not occur is not replaced. -/
theorem replaceFirst_of_not_contains {s part new : String} (h : contains s part = false) :
    replaceFirst s part new = s := by
  rw [replaceFirst, replaceFirstChars_of_not_occurs h, String.ofList_toList]

theorem mem_of_mem_trimChars (h : c ∈ trimChars cs) : c ∈ cs := by
  have inner : c ∈ (cs.dropWhile isBlank).reverse.dropWhile isBlank := List.mem_reverse.mp h
  have back := List.mem_reverse.mp ((List.dropWhile_sublist isBlank).mem inner)
  exact (List.dropWhile_sublist isBlank).mem back

/-- There is nothing to trim from a text between two characters that are not blank. -/
theorem trimChars_between {a b : Char} (ha : isBlank a = false) (hb : isBlank b = false)
    (cs : List Char) : trimChars (a :: (cs ++ [b])) = a :: (cs ++ [b]) := by
  have front : (a :: (cs ++ [b])).dropWhile isBlank = a :: (cs ++ [b]) := by
    rw [List.dropWhile_cons_of_neg (by simp [ha])]
  have back : (a :: (cs ++ [b])).reverse.dropWhile isBlank = (a :: (cs ++ [b])).reverse := by
    simp [hb]
  rw [trimChars, front, dropEndWhile, back, List.reverse_reverse]

end Text

namespace RelatedFile

open Text

variable {active active' : String} {files files' before after : List RelatedFile}
  {file file' : RelatedFile} {s t : String}

/-! ## Labels without underscores -/

/-- A text without underscores. -/
def Plain (s : String) : Prop := '_' ∉ s.toList

instance (s : String) : Decidable (Plain s) := inferInstanceAs (Decidable (¬_))

theorem Plain.append (hs : Plain s) (ht : Plain t) : Plain (s ++ t) := by
  rw [Plain, String.toList_append, List.mem_append]
  exact fun h => h.elim hs ht

/-- A plain text stays plain when a part is replaced by plain text. -/
theorem Plain.replaceFirst (hs : Plain s) {new : String} (hnew : Plain new) (part : String) :
    Plain (replaceFirst s part new) := by
  rw [Plain, Text.replaceFirst, String.toList_ofList]
  exact fun h => (mem_of_mem_replaceFirstChars h).elim hnew hs

theorem Plain.trim (hs : Plain s) : Plain (trim s) := by
  rw [Plain, Text.trim, String.toList_ofList]
  exact fun h => hs (mem_of_mem_trimChars h)

theorem plain_type (type : EntityType) : Plain type.name := by cases type <;> decide

theorem plain_scope (scope : FileScope) : Plain scope.name := by cases scope <;> decide

theorem plain_kind (kind : FileKind) : Plain kind.name := by cases kind <;> decide

theorem plain_placement (path : String) (info : FileMeta) : Plain (placement path info).1 := by
  unfold placement
  split
  · exact (by decide : Plain "addon-app")
  · split
    · exact (by decide : Plain "dummy-app")
    · exact plain_scope info.scope

/-- The full label is the place, the type for a route path, and the kind. -/
theorem fullLabel_eq (path : String) (info : FileMeta) :
    fullLabel path info =
      (placement path info).1 ++ ":" ++
        (if info.type.isRoutePath then info.type.name ++ ":" else "") ++
        (placement path info).2.name := by
  unfold fullLabel
  generalize placement path info = place
  obtain ⟨scope, kind⟩ := place
  dsimp only
  split <;> simp [String.append_assoc]

/-- Every word of a full label is plain, so the label is. -/
theorem plain_fullLabel (path : String) (info : FileMeta) : Plain (fullLabel path info) := by
  have colon : Plain ":" := by decide
  have type : Plain (if info.type.isRoutePath then info.type.name ++ ":" else "") := by
    split
    · exact (plain_type info.type).append colon
    · decide
  rw [fullLabel_eq]
  exact (((plain_placement path info).append colon).append type).append (plain_kind _)

theorem plain_withoutUsual (h : Plain s) : Plain (withoutUsual s) :=
  (h.replaceFirst (by decide) _).replaceFirst (by decide) _

/-- Taking the type out of a label leaves it plain. -/
theorem plain_withoutType (h : Plain s) (activeInfo : Option FileMeta) (type : EntityType) :
    Plain (withoutType activeInfo type s) := by
  unfold withoutType
  refine Plain.replaceFirst ?_ (plain_type type) _
  split
  · exact h.replaceFirst (by decide) _
  · exact h

theorem plain_legacyKind (path : String) : Plain (legacyKind path) := by
  unfold legacyKind
  split_ifs <;> decide

/-! ## The mark of the open document -/

/-- Stands between underscores and has no others. -/
def Marked (label : String) : Prop := ∃ inner, label = "_" ++ inner ++ "_" ∧ Plain inner

/-- A label is marked, or has no underscore at all. -/
def Marks (isActive : Bool) (label : String) : Prop :=
  if isActive then Marked label else Plain label

theorem trim_between_underscores (s : String) : trim ("_" ++ s ++ "_") = "_" ++ s ++ "_" := by
  have chars : ("_" ++ s ++ "_").toList = '_' :: (s.toList ++ ['_']) := by
    simp [String.toList_append]
  rw [trim, chars, trimChars_between (by decide) (by decide), ← chars, String.ofList_toList]

/-- A label made from a meta is marked for the active document alone. -/
theorem marks_structuredLabel (path : String) (info : FileMeta) (activeInfo : Option FileMeta)
    (isActive : Bool) : Marks isActive (structuredLabel path info activeInfo isActive) := by
  have plain : Plain (withoutType activeInfo info.type (withoutUsual
      (fullLabel (Path.normalize path) info))) :=
    plain_withoutType (plain_withoutUsual (plain_fullLabel _ _)) _ _
  -- the mark is put on last, and trimming does not reach through it
  cases isActive with
  | true => exact ⟨_, trim_between_underscores _, plain⟩
  | false => exact plain.trim

theorem marks_legacyLabel (path : String) (isActive : Bool) :
    Marks isActive (legacyLabel path isActive) := by
  unfold legacyLabel
  extract_lets path kind placed tested
  have kindPlain : Plain kind := plain_legacyKind path
  have placedPlain : Plain placed := by
    unfold placed
    split
    · exact Plain.append (by decide) kindPlain
    · exact kindPlain
  have testedPlain : Plain tested := by
    unfold tested
    split_ifs
    · decide
    · exact placedPlain.append (by decide)
    · exact placedPlain
  cases isActive with
  | true => exact ⟨tested, rfl, testedPlain⟩
  | false =>
    have blank : Plain " " := by decide
    exact (blank.append testedPlain).append blank

/-- Every label is marked for the active document alone. -/
theorem marks_label (active : String) (activeInfo : Option FileMeta) (file : RelatedFile) :
    Marks (Path.same file.path active) (label active activeInfo file) := by
  cases file with
  | legacy path => exact marks_legacyLabel path _
  | structured path info => exact marks_structuredLabel path info activeInfo _

/-! ## Separators make no difference -/

/-- One file, its path written with other separators. -/
inductive Respelled : RelatedFile → RelatedFile → Prop where
  | legacy {p q : String} (h : Path.Respelled p q) : Respelled (.legacy p) (.legacy q)
  | structured {p q : String} (h : Path.Respelled p q) (info : FileMeta) :
    Respelled (.structured p info) (.structured q info)

/-- Files that are respelled have respelled paths. -/
theorem Respelled.path (h : Respelled file file') : Path.Respelled file.path file'.path := by
  cases h with
  | legacy h => exact h
  | structured h => exact h

theorem Respelled.info? (h : Respelled file file') : file.info? = file'.info? := by
  cases h <;> rfl

/-- A label does not depend on how paths are spelled. -/
theorem label_respelled (document : Path.Respelled active active') (h : Respelled file file')
    (activeInfo : Option FileMeta) :
    label active activeInfo file = label active' activeInfo file' := by
  have marks : Path.same file.path active = Path.same file'.path active' :=
    Path.same_congr h.path document
  cases h with
  | legacy h =>
    have normal := Path.respelled_iff_normalize.mp h
    simp only [label, legacyLabel, normal, marks]
  | structured h info =>
    have normal := Path.respelled_iff_normalize.mp h
    simp only [label, structuredLabel, normal, marks]

/-- Nor does the meta of the active document. -/
theorem activeInfo?_respelled (document : Path.Respelled active active')
    (h : List.Forall₂ Respelled files files') :
    activeInfo? active files = activeInfo? active' files' := by
  induction h with
  | nil => rfl
  | @cons file file' files files' first rest ih =>
    have marks : Path.same file.path active = Path.same file'.path active' :=
      Path.same_congr first.path document
    unfold activeInfo? at ih ⊢
    rw [List.find?_cons, List.find?_cons, marks]
    split
    · exact first.info?
    · exact ih

theorem labels_respelled (document : Path.Respelled active active')
    (h : List.Forall₂ Respelled files files') :
    (classify active files).map Entry.label = (classify active' files').map Entry.label := by
  have each (activeInfo : Option FileMeta) :
      files.map (label active activeInfo) = files'.map (label active' activeInfo) := by
    induction h with
    | nil => rw [List.map_nil, List.map_nil]
    | cons first rest ih => rw [List.map_cons, List.map_cons, label_respelled document first, ih]
  unfold classify
  rw [h.length_eq, activeInfo?_respelled document h]
  split
  · rfl
  · rw [List.map_map, List.map_map]
    exact each _

/-! ## Files beside each other -/

/-- A file that is not the active document does not change that meta. -/
theorem activeInfo?_insert (other : Path.same file.path active = false) :
    activeInfo? active (before ++ file :: after) = activeInfo? active (before ++ after) := by
  unfold activeInfo?
  rw [List.find?_append, List.find?_append, List.find?_cons, other]

/-- Unless it is a single file, each file of a list has its entry. -/
theorem classify_of_several (several : files.length ≠ 1) :
    classify active files = files.map fun file =>
      { label := label active (activeInfo? active files) file, path := file.path } :=
  if_neg several

/-- So a file that is put in leaves the other entries as they were. -/
theorem classify_insert (other : Path.same file.path active = false)
    (several : 2 ≤ (before ++ after).length) :
    (classify active (before ++ file :: after)).eraseIdx before.length =
      classify active (before ++ after) := by
  have longer : (before ++ file :: after).length ≠ 1 := by
    simp only [List.length_append, List.length_cons] at several ⊢
    omega
  rw [classify_of_several longer, classify_of_several (by omega), activeInfo?_insert other]
  simp [List.eraseIdx_append_of_length_le]

/-- What is labelled at a place of a list. -/
theorem classify_getElem? (several : files.length ≠ 1) {i : Nat} (here : files[i]? = some file) :
    (classify active files)[i]? =
      some { label := label active (activeInfo? active files) file, path := file.path } := by
  rw [classify_of_several several, List.getElem?_map, here]
  rfl

/-- **The labels of a list of files**, of any two kinds mixed and with duplicates:

* a file alone gets none; a longer list, and an empty one, gives one entry for each file, in
  order, with its path;
* the label of a file that is the open document stands between underscores, and no other has
  one;
* the document and the files may be written with other separators, some or all of them;
* a file that is not the document may be put anywhere into a list of at least two. -/
theorem classify_laws :
    (∀ active file, classify active [file] = []) ∧
    (∀ active files, files.length ≠ 1 → (classify active files).map Entry.path = files.map path) ∧
    (∀ active files (i : Nat) file entry, files[i]? = some file →
      (classify active files)[i]? = some entry → Marks (Path.same file.path active) entry.label) ∧
    (∀ active active' files files', Path.Respelled active active' →
      List.Forall₂ Respelled files files' →
      (classify active files).map Entry.label = (classify active' files').map Entry.label) ∧
    ∀ active before file after, Path.same file.path active = false →
      2 ≤ (before ++ after).length →
      (classify active (before ++ file :: after)).eraseIdx before.length =
        classify active (before ++ after) := by
  refine ⟨fun _ _ => rfl, ?_, ?_, fun _ _ _ _ => labels_respelled,
    fun _ _ _ _ => classify_insert⟩
  · intro active files several
    rw [classify_of_several several, List.map_map]
    rfl
  · intro active files i file entry here labelled
    by_cases alone : files.length = 1
    · rw [classify, if_pos alone] at labelled
      contradiction
    · rw [classify_getElem? alone here] at labelled
      obtain rfl := Option.some.inj labelled
      exact marks_label active _ file

/-- A component's script is open, and its template is listed without a word about it, and
with backslashes. -/
def componentFiles : List RelatedFile :=
  [.structured "/app/components/a.js" ⟨.component, "a", .application, .script⟩,
    .legacy "\\app\\components\\a.hbs"]

/-- `classify_laws` where a test is put between two files: of the two entries beside it one is
marked. -/
theorem classify_laws_component :
    (classify "\\app\\components\\a.js"
      (componentFiles.take 1 ++ .legacy "/tests/unit/a-test.js" :: componentFiles.drop 1)).eraseIdx 1 =
        [⟨"_script_", "/app/components/a.js"⟩, ⟨" template ", "\\app\\components\\a.hbs"⟩] := by
  have inserted := classify_laws.2.2.2.2 "\\app\\components\\a.js" (componentFiles.take 1)
    (.legacy "/tests/unit/a-test.js") (componentFiles.drop 1) (by decide) (by decide)
  exact inserted.trans (by decide +kernel)

/-! ## The type in a label -/

/-- Off a route's path there is no type in a label to leave out: no place and no kind is the name
of such a type. -/
theorem contains_type_of_offRoute :
    ∀ place ∈ ["addon-app", "dummy-app", "addon", "application"],
      ∀ kind ∈ [FileKind.test, .script, .template, .style],
        ∀ type ∈ EntityType.all, type.isRoutePath = false →
          contains (withoutUsual (place ++ ":" ++ kind.name)) (type.name ++ ":") = false ∧
            contains (withoutUsual (place ++ ":" ++ kind.name)) (type.name ++ ":script") = false := by
  decide +kernel

/-- There are four places in all. -/
theorem placement_mem (path : String) (info : FileMeta) :
    (placement path info).1 ∈ ["addon-app", "dummy-app", "addon", "application"] := by
  unfold placement
  split
  · simp
  · split
    · simp
    · cases info.scope <;> simp [FileScope.name]

/-- Off a route's path a label is the place and the kind. -/
theorem structuredLabel_of_offRoute {info : FileMeta} (offRoute : info.type.isRoutePath = false)
    (path : String) (activeInfo : Option FileMeta) (isActive : Bool) :
    structuredLabel path info activeInfo isActive =
      trim (marked isActive (withoutUsual ((placement (Path.normalize path) info).1 ++ ":" ++
        (placement (Path.normalize path) info).2.name))) := by
  have kind : (placement (Path.normalize path) info).2 ∈
      [FileKind.test, .script, .template, .style] := by
    cases (placement (Path.normalize path) info).2 <;> simp
  have type : info.type ∈ EntityType.all := by
    cases info.type <;> simp [EntityType.all]
  -- neither replacement finds its part, whether or not the first is tried
  obtain ⟨untyped, unscripted⟩ :=
    contains_type_of_offRoute _ (placement_mem (Path.normalize path) info) _ kind _ type offRoute
  rw [structuredLabel, fullLabel_eq, if_neg (by simp [offRoute]), String.append_empty, withoutType,
    replaceFirst_of_not_contains untyped, ite_self, replaceFirst_of_not_contains unscripted]

/-- A script of the application off a route's path is labelled as a script. -/
theorem structuredLabel_script {info : FileMeta} (offRoute : info.type.isRoutePath = false)
    (scope : info.scope = .application) (kind : info.kind = .script) {path : String}
    (undummied : contains (Path.normalize path) "/tests/dummy/" = false)
    (activeInfo : Option FileMeta) : structuredLabel path info activeInfo false = "script" := by
  have place : placement (Path.normalize path) info = ("application", .script) := by
    simp [placement, scope, kind, undummied, FileScope.name]
  have text : trim (marked false (withoutUsual ("application" ++ ":" ++ FileKind.script.name))) =
      "script" := by decide +kernel
  rw [structuredLabel_of_offRoute offRoute, place, text]

/-- How the rule about types writes a script of the application beside the open document: by its
type, unless the document has that type too. -/
def ruledLabel (type shown : EntityType) : String := if type = shown then "script" else type.name

/-- By the rule `script` is the label of the shown type alone. -/
theorem ruledLabel_eq_script_iff (type shown : EntityType) :
    ruledLabel type shown = "script" ↔ type = shown := by
  have named : type.name ≠ "script" := by cases type <;> decide
  unfold ruledLabel
  split
  · next shared => exact ⟨fun _ => shared, fun _ => rfl⟩
  · next apart => exact ⟨fun same => absurd same named, fun same => absurd same apart⟩

/-- **Beside a document whose type is known**, a script of the application off a route's path is
labelled as a script, whatever its type and the document's. So it is labelled by the rule just if
the document has its type too. -/
theorem labelled_by_rule_iff {active : String} {files : List RelatedFile} {i : Nat} {path : String}
    {info : FileMeta} {shown : EntityType} (several : 2 ≤ files.length)
    (document : (activeInfo? active files).map FileMeta.type = some shown)
    (here : files[i]? = some (.structured path info))
    (offRoute : info.type.isRoutePath = false) (scope : info.scope = .application)
    (kind : info.kind = .script)
    (undummied : contains (Path.normalize path) "/tests/dummy/" = false)
    (other : Path.same path active = false) :
    (classify active files)[i]? = some { label := "script", path } ∧
      ((classify active files)[i]? = some { label := ruledLabel info.type shown, path } ↔
        (activeInfo? active files).map FileMeta.type = some info.type) := by
  have labelled : label active (activeInfo? active files) (.structured path info) = "script" := by
    simp only [label, RelatedFile.path, other]
    exact structuredLabel_script offRoute scope kind undummied _
  have entry : (classify active files)[i]? = some { label := "script", path } := by
    rw [classify_getElem? (by omega) here, labelled]
    rfl
  refine ⟨entry, ?_⟩
  rw [entry, document, Option.some.injEq, Option.some.injEq, Entry.mk.injEq]
  constructor
  · rintro ⟨ruled, -⟩
    exact ((ruledLabel_eq_script_iff _ _).mp ruled.symm).symm
  · intro shared
    exact ⟨((ruledLabel_eq_script_iff _ _).mpr shared.symm).symm, rfl⟩

/-- A route and a model of one name. -/
def routeAndModel : List RelatedFile :=
  [.structured "/app/routes/foo.js" ⟨.route, "foo", .application, .script⟩,
    .structured "/app/models/foo.js" ⟨.model, "foo", .application, .script⟩]

/-- `labelled_by_rule_iff` where a route is open: the model beside it is not labelled as one. -/
theorem labelled_by_rule_iff_model :
    (classify "/app/routes/foo.js" routeAndModel)[1]? = some ⟨"script", "/app/models/foo.js"⟩ ∧
      (classify "/app/routes/foo.js" routeAndModel)[1]? ≠ some ⟨"model", "/app/models/foo.js"⟩ := by
  have document : (activeInfo? "/app/routes/foo.js" routeAndModel).map FileMeta.type =
      some .route := by decide
  have here : routeAndModel[1]? =
      some (.structured "/app/models/foo.js" ⟨.model, "foo", .application, .script⟩) := rfl
  have ruled := labelled_by_rule_iff (by decide) document here rfl rfl rfl (by decide) (by decide)
  refine ⟨ruled.1, fun named => ?_⟩
  have shared := document.symm.trans (ruled.2.mp named)
  exact absurd shared (by decide)

/-- The label of the model does not tell that it is one, although the open document has another
type. -/
theorem model_beside_route :
    classify "/app/routes/foo.js" routeAndModel =
        [⟨"_route_", "/app/routes/foo.js"⟩, ⟨"script", "/app/models/foo.js"⟩] ∧
      EntityType.route ≠ .model ∧ EntityType.model.name ≠ "script" := by
  decide +kernel

end RelatedFile

end EmberClient
