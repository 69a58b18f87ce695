import EmberClient.Lens
import EmberClient.Proofs.Json.Canonical
import EmberClient.Proofs.Lists

/-!
# How an answer about related files is read

An element of the server's answer is tried in three forms. What comes of it can be said in
one: an element names a path (`namedPath?`) or it does not, and it has a meta that is
understood (`namedMeta?`) or it has none. The three attempts agree with that
(`ofJson?_eq`), whatever else the element holds.

So the elements do not bear on one another. If all of them name a path, there is one file
for each (`exists_reading`), and a meta that is put in the place of another changes the file
of its own element only. If one of them does not, nothing is read (`listOfJson?_unnamed`).
-/

namespace EmberClient

/-! ## Metas -/

theorem EntityType.ofName?_name (type : EntityType) : ofName? type.name = some type := by
  cases type <;> rfl

theorem FileScope.ofName?_name (scope : FileScope) : ofName? scope.name = some scope := by
  cases scope <;> rfl

theorem FileKind.ofName?_name (kind : FileKind) : ofName? kind.name = some kind := by
  cases kind <;> rfl

/-- A meta as a server writes it. -/
def FileMeta.toJson (info : FileMeta) : Json :=
  .object [("type", .str info.type.name), ("name", .str info.name), ("scope", .str info.scope.name),
    ("kind", .str info.kind.name)]

/-- Every meta that is written is understood. -/
theorem FileMeta.ofJson?_toJson (info : FileMeta) : ofJson? info.toJson = some info := by
  have fields : info.toJson.fields? [("type", .required), ("name", .required), ("scope", .required),
      ("kind", .required)] = some [some (.str info.type.name), some (.str info.name),
        some (.str info.scope.name), some (.str info.kind.name)] := rfl
  simp [ofJson?, fields, Json.variantName?, Json.string?, EntityType.ofName?_name,
    FileScope.ofName?_name, FileKind.ofName?_name]

namespace RelatedFile

open Json

/-! ## One element -/

/-- The path that an element names: a text is one, and an object has it as a member. -/
def namedPath? : Json → Option String
  | .str path => some path
  | .obj members =>
    match valuesAt "path" members with
    | [v] => v.string?
    | _ => none
  | _ => none

/-- The meta of an element, if it has one that is understood. -/
def namedMeta? : Json → Option FileMeta
  | .obj members =>
    match valuesAt "meta" members with
    | [v] => FileMeta.ofJson? v
    | _ => none
  | _ => none

/-- The file with this path, and with this meta if there is one. -/
def ofMeta (path : String) : Option FileMeta → RelatedFile
  | some info => .structured path info
  | none => .legacy path

/-- A file that was made from a meta has its path. -/
@[simp] theorem path_ofMeta (path : String) (info : Option FileMeta) : (ofMeta path info).path = path := by
  cases info <;> rfl

@[simp] theorem info?_ofMeta (path : String) (info : Option FileMeta) :
    (ofMeta path info).info? = info := by
  cases info <;> rfl

/-- An object that names a path has one member for it. -/
theorem valuesAt_of_named {members : List (String × Json)} {path : String}
    (named : namedPath? (.obj members) = some path) : valuesAt "path" members = [.str path] := by
  simp only [namedPath?] at named
  split at named
  · next v only =>
    cases v with
    | str p =>
      obtain rfl := Option.some.inj named
      exact only
    | _ => contradiction
  · contradiction

/-- The last of the three forms reads the path of an object. -/
theorem ofPathOnly?_obj (members : List (String × Json)) :
    ofPathOnly? (.obj members) = (namedPath? (.obj members)).map .legacy := by
  simp only [ofPathOnly?, objectFields?, List.mapM_cons, List.mapM_nil, memberField?, namedPath?]
  rcases valuesAt "path" members with _ | ⟨v, _ | ⟨w, more⟩⟩
  · rfl
  · cases v <;> rfl
  · rfl

/-- A value that is understood is one that is there. -/
theorem decodeOption_of_some {α : Type} {decode : Json → Option α} {v : Json} {a : α}
    (null : decode .null = none) (decoded : decode v = some a) :
    decodeOption decode (some v) = some (some a) := by
  cases v with
  | null => exact absurd (null.symm.trans decoded) (by simp)
  | _ => simp only [decodeOption, decoded, Option.map_some]

/-- A value that is not understood is none, or a mistake. -/
theorem decodeOption_of_none {α : Type} {decode : Json → Option α} {v : Json}
    (undecoded : decode v = none) :
    decodeOption decode (some v) = some none ∨ decodeOption decode (some v) = none := by
  cases v with
  | null => exact .inl rfl
  | _ => exact .inr (by simp only [decodeOption, undecoded, Option.map_none])

/-- The second form reads the path and the meta of an object. It does not fit where the meta
is not understood, or where there are several. -/
theorem ofObject?_obj {members : List (String × Json)} {path : String}
    (named : namedPath? (.obj members) = some path) :
    ofObject? (.obj members) = some (ofMeta path (namedMeta? (.obj members))) ∨
      (ofObject? (.obj members) = none ∧ namedMeta? (.obj members) = none) := by
  have here := valuesAt_of_named named
  simp only [ofObject?, objectFields?, List.mapM_cons, List.mapM_nil, memberField?, here,
    namedMeta?]
  rcases valuesAt "meta" members with _ | ⟨v, _ | ⟨w, more⟩⟩
  · exact .inl rfl
  · cases read : FileMeta.ofJson? v with
    | some info =>
      have understood := decodeOption_of_some rfl read
      refine .inl ?_
      simp only [Option.bind_eq_bind, Option.pure_def, Option.bind_some, string?, understood, ofMeta,
        read]
    | none =>
      rcases decodeOption_of_none read with absent | wrong
      · refine .inl ?_
        simp only [Option.bind_eq_bind, Option.pure_def, Option.bind_some, string?, absent, ofMeta,
          read]
      · refine .inr ⟨?_, read⟩
        simp only [Option.bind_eq_bind, Option.pure_def, Option.bind_some, string?, wrong,
          Option.bind_none]
  · exact .inr ⟨rfl, rfl⟩

/-- An object that names none is no related file. -/
theorem ofObject?_unnamed {members : List (String × Json)}
    (unnamed : namedPath? (.obj members) = none) : ofObject? (.obj members) = none := by
  simp only [namedPath?] at unnamed
  simp only [ofObject?, objectFields?, List.mapM_cons, List.mapM_nil, memberField?]
  cases paths : valuesAt "path" members with
  | nil => rfl
  | cons v more =>
    cases more with
    | cons => rfl
    | nil =>
      -- one member for the path, which is no text
      rw [paths] at unnamed
      dsimp only at unnamed
      cases metas : valuesAt "meta" members with
      | nil => simp [unnamed]
      | cons w others =>
        cases others with
        | nil => simp [unnamed]
        | cons => rfl

/-- Of the three forms, the first that fits is the one that says most. -/
theorem ofJson?_eq (v : Json) :
    ofJson? v = (namedPath? v).map fun path => ofMeta path (namedMeta? v) := by
  cases v with
  | obj members =>
    show (ofObject? (.obj members)).or (ofPathOnly? (.obj members)) = _
    rw [ofPathOnly?_obj]
    cases named : namedPath? (.obj members) with
    | some path =>
      rcases ofObject?_obj named with fits | ⟨unfit, unmeant⟩
      · rw [fits]
        rfl
      · rw [unfit, unmeant]
        rfl
    | none =>
      rw [ofObject?_unnamed named]
      rfl
  | _ => rfl

/-! ## The whole answer -/

/-- The file that an element stands for, if it names a path. -/
def ofElement (v : Json) : RelatedFile := ofMeta ((namedPath? v).getD "") (namedMeta? v)

/-- An element that names a path reads as a file at that path. -/
theorem ofJson?_named {v : Json} (named : (namedPath? v).isSome = true) :
    ofJson? v = some (ofElement v) ∧ some (ofElement v).path = namedPath? v := by
  obtain ⟨path, named⟩ := Option.isSome_iff_exists.mp named
  rw [ofJson?_eq, ofElement, named, path_ofMeta]
  exact ⟨rfl, rfl⟩

/-- A list of such elements reads element by element. -/
theorem listOfJson?_named {items : List Json}
    (named : ∀ item ∈ items, (namedPath? item).isSome = true) :
    listOfJson? (.arr items) = some (items.map ofElement) :=
  mapM_eq_some_map fun item member => (ofJson?_named (named item member)).1

/-- An answer that is no list of elements with a path is not read. -/
theorem listOfJson?_unnamed {v : Json}
    (unfit : ¬∃ items, v = .arr items ∧ ∀ item ∈ items, (namedPath? item).isSome = true) :
    listOfJson? v = none := by
  cases v with
  | arr items =>
    refine Option.eq_none_iff_forall_ne_some.mpr fun files read => unfit ⟨items, rfl, ?_⟩
    intro item member
    cases named : namedPath? item with
    | some path => rfl
    | none =>
      have unread : ofJson? item = none := by
        rw [ofJson?_eq, named]
        rfl
      exact absurd ((mapM_eq_none member unread).symm.trans read) (by simp)
  | _ => rfl

/-! ## Another meta -/

/-- An object with this meta in the place of its own. -/
def withMeta (info : Json) : Json → Json
  | .obj members => .obj (insertMember "meta" info members)
  | v => v

/-- The path is named as before. -/
theorem namedPath?_withMeta (info v : Json) : namedPath? (withMeta info v) = namedPath? v := by
  cases v with
  | obj members =>
    simp only [withMeta, namedPath?, valuesAt_insertMember (show "path" ≠ "meta" by decide)]
  | _ => rfl

/-! ## What is read -/

/-- The files that a list of elements stands for. -/
structure Reading (items : List Json) (files : List RelatedFile) : Prop where
  read : listOfJson? (.arr items) = some files
  /-- One file for each element, with its path. -/
  paths : files.map (fun file => some file.path) = items.map namedPath?
  /-- And with its meta, if it has one that is understood. -/
  metas : files.map info? = items.map namedMeta?
  /-- Another meta makes a difference to the file of its own element only, and none to the
  path of that. -/
  apart : ∀ i item info, items[i]? = some item → ∃ file,
    listOfJson? (.arr (items.set i (withMeta info item))) = some (files.set i file) ∧
      some file.path = namedPath? item

/-- So each such list has a reading. -/
theorem exists_reading {items : List Json}
    (named : ∀ item ∈ items, (namedPath? item).isSome = true) : ∃ files, Reading items files := by
  refine ⟨items.map ofElement, listOfJson?_named named, ?_, ?_, fun i item info here => ?_⟩
  · rw [List.map_map]
    exact List.map_congr_left fun item member => (ofJson?_named (named item member)).2
  · rw [List.map_map]
    exact List.map_congr_left fun item _ => info?_ofMeta _ _
  · have whole : (namedPath? (withMeta info item)).isSome = true := by
      rw [namedPath?_withMeta]
      exact named item (List.mem_of_getElem? here)
    refine ⟨ofElement (withMeta info item), ?_, ?_⟩
    · rw [← List.map_set]
      refine listOfJson?_named fun other member => ?_
      rcases List.mem_or_eq_of_mem_set member with old | rfl
      · exact named other old
      · exact whole
    · rw [(ofJson?_named whole).2, namedPath?_withMeta]

end RelatedFile

/-! ## Lenses -/

namespace Lens

variable {document : String} {files : List RelatedFile}

/-- A single file has no lens. -/
theorem ofRelatedFiles_of_one (alone : files.length = 1) : ofRelatedFiles document files = [] := by
  rw [ofRelatedFiles, RelatedFile.classify, if_pos alone]
  rfl

/-- One lens for each file, with its path. -/
theorem map_path_ofRelatedFiles (several : files.length ≠ 1) :
    (ofRelatedFiles document files).map Lens.path = files.map RelatedFile.path := by
  rw [ofRelatedFiles, RelatedFile.classify, if_neg several, List.map_map, List.map_map]
  rfl

/-- The tooltip of each lens names its path. -/
theorem tooltip_of_mem {lens : Lens} (member : lens ∈ ofRelatedFiles document files) :
    lens.tooltip = "Ember: " ++ lens.path := by
  obtain ⟨entry, -, rfl⟩ := List.mem_map.mp member
  rfl

end Lens

end EmberClient
