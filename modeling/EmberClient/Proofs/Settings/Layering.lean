import EmberClient.Proofs.FileSystem.Linkless
import EmberClient.Proofs.Settings.Keys
import Mathlib.Tactic.Choose

/-!
# Which layer a setting comes from

A loader is told of layers and overrides in any order. What a setting comes to is the last
override of it, or else the value in the last file that gives it, or else its default
(`SettingKey.settled`).

The files that count are those that are there, and what they give besides the settings must
not be in the way of them (`WellFormed`). Names are not told apart by case, and a name at the
top of a file that can be read as a path is one.

> `layered_settings`: the settings are there just when every file that must be there is, and
> each of them is then what it comes to.

`lenient_layers` is why it says "well formed": a setting has other names than its own, and a
name that leads below a setting spoils it. What a loader makes of a file that is missing where
another has its path with the extension of TOML added is left open (`Layer.Alone`).
-/

namespace EmberClient

open Text Setting

/-! ## Files -/

namespace SettingsFile

variable {system : FileSystem} {path : Bytes} {text : String}

/-- A text without a mark of the order of its bytes is read as itself. -/
theorem ofUtf8?_withoutMark (unmarked : byteOrderMark.isPrefixOf (utf8 text) = false) :
    ofUtf8? (withoutMark (utf8 text)) = some text := by
  rw [withoutMark, unmarked, if_neg Bool.false_ne_true, ofUtf8?_utf8]

/-- What is read of a file is its text, if no mark stands in front. -/
theorem text?_of_file (there : system.resolve true path = .ok (.file (utf8 text)))
    (unmarked : byteOrderMark.isPrefixOf (utf8 text) = false) : text? system path = some text := by
  have found : system.isFile path = true := by rw [FileSystem.isFile, there]
  have content : system.content path = .ok (utf8 text) := by
    rw [FileSystem.content, there]
    rfl
  rw [text?, if_pos found, ← ofUtf8?_withoutMark unmarked]
  simp only [content, bind, Option.bind, Except.toOption]

end SettingsFile

/-- The file of a layer is there. -/
def Layer.Found (system : FileSystem) (layer : Layer) : Prop :=
  system.isFile (utf8 layer.path) = true

instance (system : FileSystem) (layer : Layer) : Decidable (layer.Found system) :=
  inferInstanceAs (Decidable (_ = _))

/-- No other file could be taken for that of a layer: it is there, or there is none either that has
its path with the extension of TOML added. -/
def Layer.Alone (system : FileSystem) (layer : Layer) : Prop :=
  layer.Found system ∨ system.isFile (SettingsFile.extended (utf8 layer.path)) = false

/-- What the file of a layer says, if it is there and is TOML. -/
def Layer.entries? (system : FileSystem) (layer : Layer) : Option Entries :=
  (SettingsFile.text? system (utf8 layer.path)).bind Toml.read?

/-- A layer without a file at its own path or beside it has no text. -/
theorem Layer.text?_eq_none {system : FileSystem} {layer : Layer} (alone : layer.Alone system)
    (missing : ¬ layer.Found system) : SettingsFile.text? system (utf8 layer.path) = none := by
  have plain : system.isFile (utf8 layer.path) = false := Bool.eq_false_iff.mpr missing
  rw [SettingsFile.text?, plain, alone.resolve_left missing]
  rfl

/-- A file that is there and has no mark of the order of its bytes is read as what it says. -/
theorem Layer.reads_of_file {system : FileSystem} {layer : Layer} {text : String}
    (there : system.resolve true (utf8 layer.path) = .ok (.file (utf8 text)))
    (unmarked : SettingsFile.byteOrderMark.isPrefixOf (utf8 text) = false) :
    layer.Found system ∧ layer.entries? system = Toml.read? text := by
  constructor
  · rw [Found, FileSystem.isFile, there]
  · rw [entries?, SettingsFile.text?_of_file there unmarked, Option.bind_some]

theorem Layer.entries?_eq_none {system : FileSystem} {layer : Layer} (alone : layer.Alone system)
    (missing : ¬ layer.Found system) : layer.entries? system = none := by
  rw [entries?, text?_eq_none alone missing]
  rfl

/-- A layer with entries is found. -/
theorem Layer.found_of_entries? {system : FileSystem} {layer : Layer} {entries : Entries}
    (alone : layer.Alone system) (holds : layer.entries? system = some entries) :
    layer.Found system := by
  by_cases found : layer.Found system
  · exact found
  · rw [entries?_eq_none alone found] at holds
    contradiction

/-- A file that is there and is TOML is read as what it says, and one that is not there as
nothing, unless it must be there. -/
theorem Layer.read_eq {system : FileSystem} {layer : Layer} (alone : layer.Alone system)
    (valid : layer.Found system → (layer.entries? system).isSome = true) :
    layer.read system =
      if layer.isRequired = true ∧ ¬ layer.Found system then .error .missingFile
      else .ok ((layer.entries? system).getD []) := by
  by_cases found : layer.Found system
  · obtain ⟨entries, holds⟩ := Option.isSome_iff_exists.mp (valid found)
    rw [if_neg fun both => both.2 found, holds]
    obtain ⟨text, there, reads⟩ := Option.bind_eq_some_iff.mp holds
    simp only [read, there, reads, Option.getD_some]
  · simp only [read, text?_eq_none alone found, entries?_eq_none alone found, found,
      not_false_eq_true, and_true, Option.getD_none]

/-- Layers are read just when every file that must be there is. -/
theorem mapM_read {system : FileSystem} {layers : List Layer}
    (alone : ∀ l ∈ layers, l.Alone system)
    (valid : ∀ l ∈ layers, l.Found system → (l.entries? system).isSome = true) :
    layers.mapM (Layer.read system) =
      if ∀ l ∈ layers, l.isRequired = true → l.Found system then
        .ok (layers.map fun l => (l.entries? system).getD [])
      else .error .missingFile := by
  -- along the layers: the first required file that is missing breaks all
  induction layers with
  | nil => rfl
  | cons layer layers ih =>
    obtain ⟨here, others⟩ := List.forall_mem_cons.mp valid
    obtain ⟨first, next⟩ := List.forall_mem_cons.mp alone
    rw [List.mapM_cons, Layer.read_eq first here, ih next others]
    by_cases lacks : layer.isRequired = true ∧ ¬ layer.Found system
    · have broken : ¬ ∀ l ∈ layer :: layers, l.isRequired = true → l.Found system :=
        fun all => lacks.2 (all layer List.mem_cons_self lacks.1)
      rw [if_pos lacks, if_neg broken]
      rfl
    · rw [if_neg lacks]
      have first : layer.isRequired = true → layer.Found system := by simpa using lacks
      by_cases rest : ∀ l ∈ layers, l.isRequired = true → l.Found system
      · rw [if_pos rest, if_pos (List.forall_mem_cons.mpr ⟨first, rest⟩)]
        rfl
      · rw [if_neg rest, if_neg fun all => rest (List.forall_mem_cons.mp all).2]
        rfl

namespace SettingKey

/-- The value that a file gives for the setting. -/
def given (k : SettingKey) (entries : Entries) : Option Setting :=
  ((layerLeaves entries).find? fun leaf => leaf.path = k.names.map .child).map (·.value)

end SettingKey

/-- A file that is about settings: what it gives for one means something, it gives none
twice, and nothing else in it is in the way of one. -/
structure WellFormed (entries : Entries) : Prop where
  fits : ∀ k : SettingKey, AllFit k.names (layerLeaves entries)
  once : ∀ k : SettingKey,
    ((layerLeaves entries).filter fun leaf => leaf.path = k.names.map .child).length ≤ 1
  reads : ∀ (k : SettingKey) v, k.given entries = some v → ∃ x, k.read v = .ok x

/-- The last value at a name is that of the last leaf there. -/
theorem lastAt_eq_getLast? (names : List String) (found : List Leaf) :
    lastAt names found =
      ((found.filter fun leaf => leaf.path = names.map .child).getLast?).map (·.value) := by
  induction found with
  | nil => rfl
  | cons leaf found ih =>
    by_cases here : leaf.path = names.map .child
    · rw [lastAt, ih, if_pos here, List.filter_cons_of_pos (by simpa using here),
        List.getLast?_cons]
      cases (found.filter _).getLast? <;> rfl
    · rw [lastAt, ih, if_neg here, List.filter_cons_of_neg (by simpa using here), Option.or_none]

theorem isSome_toOption_iff {α : Type} {result : Read α} :
    result.toOption.isSome = true ↔ ∃ a, result = .ok a := by
  rw [Option.isSome_iff_exists]
  exact exists_congr fun a => ⟨eq_ok_of_toOption, fun is => is ▸ rfl⟩

instance (entries : Entries) : Decidable (WellFormed entries) :=
  decidable_of_iff
    (∀ k ∈ SettingKey.all, AllFit k.names (layerLeaves entries) ∧
      ((layerLeaves entries).filter fun leaf => leaf.path = k.names.map .child).length ≤ 1 ∧
      (k.given entries).all (fun v => (k.read v).toOption.isSome) = true)
    ⟨fun each => ⟨fun k => (each k k.mem_all).1, fun k => (each k k.mem_all).2.1, fun k v gives => by
        have means := (each k k.mem_all).2.2
        rw [gives] at means
        exact isSome_toOption_iff.mp means⟩,
      fun wellFormed k _ => ⟨wellFormed.fits k, wellFormed.once k, by
        cases gives : k.given entries with
        | none => rfl
        | some v => exact isSome_toOption_iff.mpr (wellFormed.reads k v gives)⟩⟩

/-- A leaf that has its path alone is the first and the last with it. -/
theorem lastAt_eq_find? {names : List String} {found : List Leaf}
    (once : (found.filter fun leaf => leaf.path = names.map .child).length ≤ 1) :
    lastAt names found =
      (found.find? fun leaf => leaf.path = names.map .child).map (·.value) := by
  rw [lastAt_eq_getLast?, ← List.head?_filter]
  generalize found.filter (fun leaf => leaf.path = names.map .child) = these at once
  match these, once with
  | [], _ => rfl
  | [_], _ => rfl

/-! ## Layers one over the other -/

section Layers

variable (k : SettingKey)

/-- A layer gives what it says for a setting and leaves the rest. -/
theorem at?_layer (root : Setting) {entries : Entries} (wellFormed : WellFormed entries) :
    (root.applyLayer entries).at? k.names = (k.given entries).or (root.at? k.names) := by
  have fit := wellFormed.fits k
  have once := wellFormed.once k
  obtain ⟨key, rest, same⟩ := List.exists_cons_of_ne_nil k.names_ne_nil
  rw [SettingKey.given, ← lastAt_eq_find? once]
  rw [same] at fit ⊢
  exact at?_applyLayer root key rest fit

/-- Of several layers the last one that says something counts. -/
theorem at?_layers (root : Setting) {files : List Entries}
    (wellFormed : ∀ entries ∈ files, WellFormed entries) :
    (files.foldl applyLayer root).at? k.names =
      (files.reverse.findSome? k.given).or (root.at? k.names) := by
  induction files generalizing root with
  | nil => rfl
  | cons entries files ih =>
    obtain ⟨first, others⟩ := List.forall_mem_cons.mp wellFormed
    rw [List.foldl_cons, ih _ others, at?_layer k root first, List.reverse_cons,
      List.findSome?_append, Option.or_assoc]
    simp

end Layers

/-! ## Overrides -/

/-- An override that gives a setting a value. -/
def Override.ForSetting (o : Override) : Prop :=
  ∃ k : SettingKey, o.path = k.path ∧ o.value.isTable = false

theorem fits_names (k other : SettingKey) {v : Setting} (scalar : v.isTable = false) :
    Fits k.names (other.names.map .child) v := by
  cases k <;> cases other <;> simp [SettingKey.names, Fits, scalar]

/-- An override of one setting leaves the others alone. -/
theorem at?_override (k : SettingKey) (root : Setting) {o : Override} (forSetting : o.ForSetting) :
    (root.place o.path.segments o.value).at? k.names =
      if o.path = k.path then some o.value else root.at? k.names := by
  obtain ⟨other, path, scalar⟩ := forSetting
  -- a single value is its own only leaf, so one place in the tree is set
  have leaf : o.value.leaves.map (Leaf.behind (o.path.segments.map Segment.lower)) =
      [⟨other.names.map .child, o.value⟩] := by
    rw [leaves_of_scalar scalar, path, other.lower_segments]
    simp [Leaf.behind]
  have fit : AllFit k.names (o.value.leaves.map (.behind (o.path.segments.map Segment.lower))) := by
    rw [leaf]
    exact fun l member => List.mem_singleton.mp member ▸ fits_names k other scalar
  have placed : (root.place o.path.segments o.value).at? k.names =
      (lastAt k.names [⟨other.names.map .child, o.value⟩]).or (root.at? k.names) := by
    obtain ⟨key, rest, same⟩ := List.exists_cons_of_ne_nil k.names_ne_nil
    rw [same] at fit ⊢
    rw [← leaf]
    exact at?_place root o.value key rest o.path.first o.path.rest fit
  have child : other.names.map Segment.child = k.names.map .child ↔ other = k := by
    rw [List.map_inj_right fun _ _ => Segment.child.inj, SettingKey.names_inj]
  rw [placed, path]
  by_cases same : other = k
  · rw [if_pos (SettingKey.path_inj.mpr same), lastAt, if_pos (child.mpr same)]
    rfl
  · rw [if_neg fun paths => same (SettingKey.path_inj.mp paths), lastAt,
      if_neg fun names => same (child.mp names)]
    rfl

namespace SettingKey

/-- The value of the last of these overrides of the setting. -/
def overridden (k : SettingKey) (overrides : List Override) : Option Setting :=
  overrides.reverse.findSome? fun o => if o.path = k.path then some o.value else none

/-- A later override of the same setting counts. -/
theorem overridden_cons (k : SettingKey) (o : Override) (overrides : List Override) :
    k.overridden (o :: overrides) =
      (k.overridden overrides).or (if o.path = k.path then some o.value else none) := by
  rw [overridden, List.reverse_cons, List.findSome?_append, overridden]
  simp

/-- A setting that nobody overrides is not overridden. -/
theorem overridden_eq_none {k : SettingKey} {overrides : List Override}
    (nowhere : k.path ∉ overrides.map Override.path) : k.overridden overrides = none := by
  refine List.findSome?_eq_none_iff.mpr fun o member => if_neg fun same => nowhere ?_
  exact same ▸ List.mem_map_of_mem (List.mem_reverse.mp member)

end SettingKey

/-- Overrides are placed where their settings stand. -/
theorem at?_overrides (k : SettingKey) (root : Setting) {overrides : List Override}
    (forSettings : ∀ o ∈ overrides, o.ForSetting) :
    (overrides.foldl (fun root o => root.place o.path.segments o.value) root).at? k.names =
      (k.overridden overrides).or (root.at? k.names) := by
  induction overrides generalizing root with
  | nil => rfl
  | cons o overrides ih =>
    obtain ⟨first, others⟩ := List.forall_mem_cons.mp forSettings
    rw [List.foldl_cons, ih _ others, at?_override k root first, k.overridden_cons, Option.or_assoc]
    split <;> rfl

namespace Override

theorem paths_add (o : Override) (overrides : List Override) :
    (add o overrides).map path =
      if o.path ∈ overrides.map path then overrides.map path else overrides.map path ++ [o.path] := by
  induction overrides with
  | nil => rfl
  | cons p overrides ih =>
    rw [add]
    -- a path that is there keeps its place
    by_cases same : p.path = o.path
    · simp [same]
    · rw [if_neg same, List.map_cons, ih, List.map_cons]
      by_cases later : o.path ∈ overrides.map path
      · rw [if_pos later, if_pos (List.mem_cons_of_mem _ later)]
      · have nowhere : o.path ∉ p.path :: overrides.map path := by
          simpa [Ne.symm same] using later
        rw [if_neg later, if_neg nowhere, List.cons_append]

/-- No setting is overridden twice at a time. -/
theorem nodup_add {o : Override} {overrides : List Override}
    (apart : (overrides.map path).Nodup) : ((add o overrides).map path).Nodup := by
  rw [paths_add]
  split
  · exact apart
  · next new =>
    refine List.nodup_append.mpr ⟨apart, by simp, fun other member last lastIs same => new ?_⟩
    obtain rfl := List.mem_singleton.mp lastIs
    exact same ▸ member

/-- Adding an override adds that override only. -/
theorem mem_add {o p : Override} {overrides : List Override} (member : p ∈ add o overrides) :
    p = o ∨ p ∈ overrides := by
  induction overrides with
  | nil => exact Or.inl (List.mem_singleton.mp member)
  | cons q overrides ih =>
    rw [add] at member
    split at member
    · exact (List.mem_cons.mp member).imp_right (List.mem_cons_of_mem _)
    · rcases List.mem_cons.mp member with rfl | later
      · exact Or.inr List.mem_cons_self
      · exact (ih later).imp_right (List.mem_cons_of_mem _)

/-- The last override of a setting is the one that counts, wherever it is kept. -/
theorem overridden_add (k : SettingKey) {o : Override} {overrides : List Override}
    (apart : (overrides.map path).Nodup) :
    k.overridden (add o overrides) =
      if o.path = k.path then some o.value else k.overridden overrides := by
  -- along the overrides: the new value takes the place of the old one of its path, or comes last
  induction overrides with
  | nil =>
    rw [add, k.overridden_cons]
    rfl
  | cons p overrides ih =>
    obtain ⟨alone, others⟩ := List.nodup_cons.mp apart
    rw [add]
    by_cases same : p.path = o.path
    · rw [if_pos same, k.overridden_cons, k.overridden_cons, same]
      by_cases mine : o.path = k.path
      · rw [if_pos mine, if_pos mine, SettingKey.overridden_eq_none (mine ▸ same ▸ alone)]
        rfl
      · rw [if_neg mine, if_neg mine, if_neg mine]
    · rw [if_neg same, k.overridden_cons, k.overridden_cons, ih others]
      by_cases mine : o.path = k.path
      · rw [if_pos mine, if_pos mine]
        rfl
      · rw [if_neg mine, if_neg mine]

end Override

/-! ## Calls -/

namespace Loader

/-- The layer that a call adds. -/
def Call.layer? : Call → Option Layer
  | .layer l => some l
  | .override .. => none

/-- The layers are those that were called for. -/
theorem mem_layers {calls : List Call} {l : Layer} :
    l ∈ calls.filterMap Call.layer? ↔ .layer l ∈ calls := by
  rw [List.mem_filterMap]
  constructor
  · rintro ⟨c, member, adds⟩
    cases c with
    | override => contradiction
    | layer => exact Option.some.inj adds ▸ member
  · exact fun member => ⟨_, member, rfl⟩

/-- An override among the calls gives one of the settings a value that means something. -/
def Call.Typed : Call → Prop
  | .layer _ => True
  | .override name v => ∃ k : SettingKey, name = k.text ∧ ∃ x, k.read v = .ok x

/-- What a loader keeps of typed calls. -/
structure Regular (loader : Loader) : Prop where
  apart : (loader.overrides.map Override.path).Nodup
  forSettings : ∀ o ∈ loader.overrides, o.ForSetting

end Loader

namespace SettingKey

/-- The value that a call gives the setting by an override of it. -/
def override? (k : SettingKey) : Loader.Call → Option Setting
  | .override name v => if name = k.text then some v else none
  | .layer _ => none

/-- The value that a call gives the setting by the file of a layer. -/
def file? (k : SettingKey) (system : FileSystem) : Loader.Call → Option Setting
  | .layer layer => (layer.entries? system).bind k.given
  | .override .. => none

/-- What the setting comes to: the last override of it, or else the value in the last file
that gives it, or else its default. -/
def settled (k : SettingKey) (system : FileSystem) (calls : List Loader.Call) : Setting :=
  ((calls.reverse.findSome? k.override?).or (calls.reverse.findSome? (k.file? system))).getD
    k.default

end SettingKey

namespace Loader

theorem call_override (loader : Loader) (k : SettingKey) (v : Setting) :
    loader.call (.override k.text v) =
      .ok { loader with overrides := Override.add ⟨k.path, v⟩ loader.overrides } := by
  rw [call, k.ofText?_text]

/-- One typed call. -/
theorem call_typed {loader : Loader} {c : Call} (regular : loader.Regular) (typed : c.Typed) :
    ∃ next, loader.call c = .ok next ∧ next.Regular ∧
      next.layers = loader.layers ++ c.layer?.toList ∧
      ∀ k : SettingKey, k.overridden next.overrides =
        (k.override? c).or (k.overridden loader.overrides) := by
  cases c with
  | layer layer => exact ⟨_, rfl, ⟨regular.apart, regular.forSettings⟩, rfl, fun k => rfl⟩
  | override name v =>
    obtain ⟨mine, rfl, x, reads⟩ := typed
    refine ⟨_, call_override loader mine v, ⟨Override.nodup_add regular.apart, ?_⟩,
      (List.append_nil _).symm, fun k => ?_⟩
    · intro o member
      rcases Override.mem_add member with rfl | old
      · exact ⟨mine, rfl, SettingKey.isTable_of_read reads⟩
      · exact regular.forSettings o old
    · rw [Override.overridden_add k regular.apart, SettingKey.override?]
      by_cases same : mine = k
      · rw [if_pos (SettingKey.path_inj.mpr same), if_pos (SettingKey.text_inj.mpr same)]
        rfl
      · rw [if_neg fun paths => same (SettingKey.path_inj.mp paths),
          if_neg fun texts => same (SettingKey.text_inj.mp texts)]
        rfl

/-- Typed calls, in any order: the layers are kept in theirs, and of every setting the last
override. -/
theorem calls_typed {calls : List Call} {loader : Loader} (regular : loader.Regular)
    (typed : ∀ c ∈ calls, c.Typed) :
    ∃ final, calls.foldlM call loader = .ok final ∧ final.Regular ∧
      final.layers = loader.layers ++ calls.filterMap Call.layer? ∧
      ∀ k : SettingKey, k.overridden final.overrides =
        (calls.reverse.findSome? k.override?).or (k.overridden loader.overrides) := by
  -- along the calls, each of which keeps the loader regular
  induction calls generalizing loader with
  | nil => exact ⟨loader, rfl, regular, (List.append_nil _).symm, fun k => rfl⟩
  | cons c calls ih =>
    obtain ⟨first, others⟩ := List.forall_mem_cons.mp typed
    obtain ⟨next, calls₁, regular₁, layers₁, overrides₁⟩ := call_typed regular first
    obtain ⟨final, calls₂, regular₂, layers₂, overrides₂⟩ := ih regular₁ others
    refine ⟨final, ?_, regular₂, ?_, fun k => ?_⟩
    · rw [List.foldlM_cons, calls₁]
      exact calls₂
    · rw [layers₂, layers₁, List.append_assoc]
      cases c <;> rfl
    · rw [overrides₂, overrides₁, List.reverse_cons, List.findSome?_append, Option.or_assoc]
      simp

end Loader

/-! ## What the settings come to -/

/-- The default of every setting can be read as its type. -/
theorem readable_default (k : SettingKey) : ∃ x, k.read k.default = .ok x := by
  cases k <;> exact ⟨_, rfl⟩

/-- What the layers of calls give a setting is what the last of their files gives it. -/
theorem findSome?_layers (k : SettingKey) (system : FileSystem) (calls : List Loader.Call) :
    ((calls.filterMap Loader.Call.layer?).map fun l => (l.entries? system).getD []).reverse.findSome?
      k.given = calls.reverse.findSome? (k.file? system) := by
  induction calls with
  | nil => rfl
  | cons c calls ih =>
    cases c with
    | override name v =>
      have adds : Loader.Call.layer? (.override name v) = none := rfl
      rw [List.filterMap_cons_none adds, ih, List.reverse_cons, List.findSome?_append]
      exact (Option.or_none).symm
    | layer l =>
      have adds : Loader.Call.layer? (.layer l) = some l := rfl
      rw [List.filterMap_cons_some adds, List.map_cons, List.reverse_cons, List.findSome?_append, ih,
        List.reverse_cons, List.findSome?_append]
      refine congrArg (Option.or _) ?_
      -- a file that says nothing gives nothing
      cases holds : l.entries? system with
      | none => simp [SettingKey.file?, holds, SettingKey.given, layerLeaves]
      | some entries => simp [SettingKey.file?, holds]

/-- The files of the layers are those at their paths, and each that is there is about settings. -/
structure FilesFit (system : FileSystem) (calls : List Loader.Call) : Prop where
  alone : ∀ l, .layer l ∈ calls → l.Alone system
  fit : ∀ l, .layer l ∈ calls → l.Found system →
    ∃ entries, l.entries? system = some entries ∧ WellFormed entries

/-- What a setting comes to means something for it. -/
theorem readable_settled (k : SettingKey) {system : FileSystem} {calls : List Loader.Call}
    (typed : ∀ c ∈ calls, c.Typed) (files : FilesFit system calls) :
    ∃ x, k.read (k.settled system calls) = .ok x := by
  rw [SettingKey.settled]
  -- the last override counts, then the last file, then the default, and each of them reads
  cases overridden : calls.reverse.findSome? k.override? with
  | some v =>
    obtain ⟨c, member, gives⟩ := List.exists_of_findSome?_eq_some overridden
    have means := typed c (List.mem_reverse.mp member)
    cases c with
    | layer => contradiction
    | override name w =>
      obtain ⟨mine, rfl, reads⟩ := means
      obtain ⟨same, value⟩ := Option.ite_none_right_eq_some.mp gives
      obtain rfl := SettingKey.text_inj.mp same
      exact Option.some.inj value ▸ reads
  | none =>
    cases given : calls.reverse.findSome? (k.file? system) with
    | some v =>
      obtain ⟨c, member, gives⟩ := List.exists_of_findSome?_eq_some given
      cases c with
      | override => contradiction
      | layer l =>
        obtain ⟨entries, holds, here⟩ := Option.bind_eq_some_iff.mp gives
        have told := List.mem_reverse.mp member
        obtain ⟨_, holds', wellFormed⟩ :=
          files.fit l told (Layer.found_of_entries? (files.alone l told) holds)
        obtain rfl := Option.some.inj (holds.symm.trans holds')
        exact wellFormed.reads k v here
    | none => exact readable_default k

theorem wellFormed_nil : WellFormed [] :=
  ⟨fun k leaf member => absurd member List.not_mem_nil, fun k => Nat.zero_le 1,
    fun k v none => absurd none (by simp [SettingKey.given, layerLeaves])⟩

/-- What stands at the place of a setting when everything is put together. -/
theorem at?_combine (k : SettingKey) {system : FileSystem} {calls : List Loader.Call}
    {loader : Loader} (regular : loader.Regular)
    (layers : loader.layers = calls.filterMap Loader.Call.layer?)
    (overrides : k.overridden loader.overrides = calls.reverse.findSome? k.override?)
    (files : FilesFit system calls) :
    (Setting.combine (loader.layers.map fun l => (l.entries? system).getD [])
      loader.overrides).at? k.names = some (k.settled system calls) := by
  have wellFormed : ∀ entries ∈ loader.layers.map fun l => (l.entries? system).getD [],
      WellFormed entries := by
    intro entries member
    obtain ⟨l, kept, rfl⟩ := List.mem_map.mp member
    rw [layers] at kept
    have told := Loader.mem_layers.mp kept
    by_cases found : l.Found system
    · obtain ⟨entries, holds, wellFormed⟩ := files.fit l told found
      rw [holds]
      exact wellFormed
    · rw [Layer.entries?_eq_none (files.alone l told) found]
      exact wellFormed_nil
  rw [Setting.combine, at?_overrides k _ regular.forSettings, at?_layers k _ wellFormed, overrides,
    layers, findSome?_layers, k.at?_defaults, SettingKey.settled, ← Option.or_assoc]
  cases (calls.reverse.findSome? k.override?).or (calls.reverse.findSome? (k.file? system)) <;> rfl

/-- What a loader that was told the calls builds: the settings that they come to, if the files
that must be there are. -/
theorem build_eq {system : FileSystem} {calls : List Loader.Call} {loader : Loader}
    (regular : loader.Regular) (layers : loader.layers = calls.filterMap Loader.Call.layer?)
    (overrides : ∀ k : SettingKey,
      k.overridden loader.overrides = calls.reverse.findSome? k.override?)
    (typed : ∀ c ∈ calls, c.Typed) (files : FilesFit system calls) :
    ∃ s, (∀ k : SettingKey, k.read (k.settled system calls) = .ok (k.get s)) ∧
      loader.build system =
        if ∀ l ∈ loader.layers, l.isRequired = true → l.Found system then .ok s
        else .error .missingFile := by
  have alone : ∀ l ∈ loader.layers, l.Alone system :=
    fun l member => files.alone l (Loader.mem_layers.mp (layers ▸ member))
  have valid : ∀ l ∈ loader.layers, l.Found system → (l.entries? system).isSome = true := by
    intro l member found
    obtain ⟨entries, holds, -⟩ := files.fit l (Loader.mem_layers.mp (layers ▸ member)) found
    rw [holds]
    rfl
  choose x reads using fun k => readable_settled k typed files
  obtain ⟨s, client, gets⟩ := toClient_of_at?
    (fun k => at?_combine k regular layers (overrides k) files) reads
  refine ⟨s, fun k => (gets k).symm ▸ reads k, ?_⟩
  rw [Loader.build, mapM_read alone valid]
  split
  · exact client
  · rfl

/-- **A setting has the value of its last override, or else of the last file that gives it, or
else its default.** Take any layers and overrides, told to a loader in any order, where each
override is of one of the settings and means something for it, each file that is there is well
formed, and none could be taken for one that is not. Then the settings are there just when every
file that must be there is, and otherwise the fault is that one is missing. Each setting is what
it comes to, read as the setting's type; a value of that type means itself. -/
theorem layered_settings {system : FileSystem} {calls : List Loader.Call}
    (typed : ∀ c ∈ calls, c.Typed) (files : FilesFit system calls) :
    ∃ loader, Loader.ofCalls calls = .ok loader ∧
      ((∃ s, loader.build system = .ok s) ↔
        ∀ l, .layer l ∈ calls → l.isRequired = true → l.Found system) ∧
      (∀ fault, loader.build system = .error fault → fault = .missingFile) ∧
      ∀ s, loader.build system = .ok s → ∀ k : SettingKey,
        k.read (k.settled system calls) = .ok (k.get s) ∧
          ∀ x, k.settled system calls = k.literal x → k.get s = x := by
  have start : ({} : Loader).Regular :=
    ⟨List.nodup_nil, fun o member => absurd member List.not_mem_nil⟩
  obtain ⟨loader, told, regular, layers, overrides⟩ := Loader.calls_typed start typed
  obtain ⟨s, reads, build⟩ := build_eq regular layers
    (fun k => (overrides k).trans Option.or_none) typed files
  have required : (∀ l ∈ loader.layers, l.isRequired = true → l.Found system) ↔
      ∀ l, .layer l ∈ calls → l.isRequired = true → l.Found system :=
    forall_congr' fun l => by rw [layers, List.nil_append, Loader.mem_layers]
  refine ⟨loader, told, ?_⟩
  rw [build, ← required]
  -- either every required file is found, or there is nothing to build
  by_cases all : ∀ l ∈ loader.layers, l.isRequired = true → l.Found system
  · rw [if_pos all]
    refine ⟨iff_of_true ⟨s, rfl⟩ all, fun fault fails => ?_, fun s' same k => ?_⟩
    · contradiction
    · obtain rfl := Except.ok.inj same
      refine ⟨reads k, fun value is => ?_⟩
      have means := reads k
      rw [is] at means
      exact SettingKey.eq_of_read_literal means
  · rw [if_neg all]
    refine ⟨iff_of_false (fun ⟨s, built⟩ => ?_) all, fun fault fails => ?_, fun s' built => ?_⟩
    · contradiction
    · exact (Except.error.inj fails).symm
    · contradiction

/-- The file of a workspace. -/
def workspaceText : String :=
  "[code_lens]\nrelated_files = false\n[server]\nargs = ['-a', '-b']\neditor = 'vim'\n"

/-- A file that is given besides. -/
def userText : String :=
  "Server = \x7bargs = ['-c'], debug = \x7b\x7d, other = 1\x7d\nserver = \x7b\x7d\n"

/-- A file system with both. -/
def twoFiles : FileSystem where
  root := .directory [
    (⟨utf8 "w", by decide, by decide⟩, .directory [
      (⟨utf8 ".els.toml", by decide, by decide⟩, .file (utf8 workspaceText))]),
    (⟨utf8 "u.toml", by decide, by decide⟩, .file (utf8 userText))]

/-- Layers and overrides in turn; one optional file is missing. -/
def mixedCalls : List Loader.Call :=
  [.override "server.debug.port" (.int 9229), .layer (.workspace "/w"),
    .override "server.command" (.text "first"), .layer (.optionalFile "/missing.toml"),
    .layer (.file "/u.toml"), .override "server.command" (.text "second")]

theorem reads_workspace : (Layer.workspace "/w").Found twoFiles ∧
    (Layer.workspace "/w").entries? twoFiles = Toml.read? workspaceText := by
  have plain : twoFiles.Plain (utf8 (Layer.workspace "/w").path) [utf8 "w", utf8 ".els.toml"] := by
    decide +kernel
  exact Layer.reads_of_file (FileSystem.resolve_of_descend plain true rfl) (by decide +kernel)

theorem reads_user : (Layer.file "/u.toml").Found twoFiles ∧
    (Layer.file "/u.toml").entries? twoFiles = Toml.read? userText := by
  have plain : twoFiles.Plain (utf8 (Layer.file "/u.toml").path) [utf8 "u.toml"] := by
    decide +kernel
  exact Layer.reads_of_file (FileSystem.resolve_of_descend plain true rfl) (by decide +kernel)

theorem not_found_missing : ¬ (Layer.optionalFile "/missing.toml").Found twoFiles := by
  have plain : twoFiles.Plain (utf8 "/missing.toml") [utf8 "missing.toml"] := by decide +kernel
  intro found
  rw [Layer.Found, Layer.path, FileSystem.isFile_of_nothing plain rfl] at found
  contradiction

theorem alone_missing : (Layer.optionalFile "/missing.toml").Alone twoFiles := by
  have extended : twoFiles.Plain (SettingsFile.extended (utf8 "/missing.toml"))
      [utf8 "missing.toml.toml"] := by decide +kernel
  exact .inr (FileSystem.isFile_of_nothing extended rfl)

/-- Whether a text is that of a well formed file can be computed. -/
theorem exists_wellFormed {text : String}
    (check : (Toml.read? text).any (fun e => decide (WellFormed e)) = true) :
    ∃ entries, Toml.read? text = some entries ∧ WellFormed entries := by
  obtain ⟨entries, reads, fits⟩ := (Option.any_eq_true _ _).mp check
  exact ⟨entries, reads, of_decide_eq_true fits⟩

theorem wellFormed_workspace :
    ∃ entries, Toml.read? workspaceText = some entries ∧ WellFormed entries :=
  exists_wellFormed (by decide +kernel)

theorem wellFormed_user : ∃ entries, Toml.read? userText = some entries ∧ WellFormed entries :=
  exists_wellFormed (by decide +kernel)

/-- What a setting comes to there, from the texts. -/
theorem settled_mixed (k : SettingKey) : k.settled twoFiles mixedCalls =
    ((mixedCalls.reverse.findSome? k.override?).or
      (((Toml.read? userText).bind k.given).or ((Toml.read? workspaceText).bind k.given))).getD
        k.default := by
  have missing := Layer.entries?_eq_none alone_missing not_found_missing
  have files : mixedCalls.reverse.findSome? (k.file? twoFiles) =
      ((Toml.read? userText).bind k.given).or ((Toml.read? workspaceText).bind k.given) := by
    simp only [mixedCalls, List.reverse_cons, List.reverse_nil, List.nil_append, List.cons_append,
      List.findSome?_cons, List.findSome?_nil, SettingKey.file?, reads_workspace.2,
      reads_user.2, missing, Option.bind_none]
    cases (Toml.read? userText).bind k.given <;> cases (Toml.read? workspaceText).bind k.given <;> rfl
  rw [SettingKey.settled, files]

theorem layer_mem_mixedCalls {l : Layer} :
    .layer l ∈ mixedCalls ↔ l = .workspace "/w" ∨ l = .optionalFile "/missing.toml" ∨
      l = .file "/u.toml" := by
  simp [mixedCalls]

/-- `layered_settings` there. The port and the command are overrides', the last of them; the
arguments are the second file's and hide those of the first, whose other values stay; and
nobody enables debugging. -/
theorem layered_settings_mixed :
    ∃ loader, Loader.ofCalls mixedCalls = .ok loader ∧
      loader.build twoFiles = .ok ⟨false, ⟨"second", ["-c"], "vim", ⟨false, 9229⟩⟩⟩ := by
  have typed : ∀ c ∈ mixedCalls, c.Typed := by
    simp only [mixedCalls, List.forall_mem_cons]
    exact ⟨⟨.debugPort, by decide +kernel, 9229, rfl⟩, trivial,
      ⟨.command, by decide +kernel, "first", rfl⟩, trivial, trivial,
      ⟨.command, by decide +kernel, "second", rfl⟩, by simp⟩
  have files : FilesFit twoFiles mixedCalls := by
    constructor
    · intro l told
      rcases layer_mem_mixedCalls.mp told with rfl | rfl | rfl
      · exact .inl reads_workspace.1
      · exact alone_missing
      · exact .inl reads_user.1
    · intro l told found
      rcases layer_mem_mixedCalls.mp told with rfl | rfl | rfl
      · exact reads_workspace.2 ▸ wellFormed_workspace
      · exact absurd found not_found_missing
      · exact reads_user.2 ▸ wellFormed_user
  obtain ⟨loader, told, builds, -, settled⟩ := layered_settings typed files
  have found : ∀ l, .layer l ∈ mixedCalls → l.isRequired = true → l.Found twoFiles := by
    intro l told required
    rcases layer_mem_mixedCalls.mp told with rfl | rfl | rfl
    · contradiction
    · contradiction
    · exact reads_user.1
  obtain ⟨s, built⟩ := builds.mpr found
  -- each setting is checked on its own, as the file or the call gives it
  have values : ∀ k ∈ SettingKey.all, (k.read (k.settled twoFiles mixedCalls)).toOption =
      some (k.get ⟨false, ⟨"second", ["-c"], "vim", ⟨false, 9229⟩⟩⟩) := by
    simp only [settled_mixed]
    decide +kernel
  have whole : s = ⟨false, ⟨"second", ["-c"], "vim", ⟨false, 9229⟩⟩⟩ := by
    refine SettingKey.eq_of_get fun k => ?_
    have value := values k k.mem_all
    rw [(settled s built k).1] at value
    exact Option.some.inj value
  exact ⟨loader, told, whole ▸ built⟩

/-! ## Where layers are lenient -/

/-- A file that gives settings under other names than theirs. -/
def otherNames : String := "'server.editor' = 'vim'\nServer = \x7bCommand = 'deno'\x7d\n"

/-- A file that gives something below a setting. -/
def belowCommand : String := "'server.command.x' = 1\n"

/-- A file system with both. -/
def oddFiles : FileSystem where
  root := .directory [
    (⟨utf8 "b.toml", by decide, by decide⟩, .file (utf8 otherNames)),
    (⟨utf8 "c.toml", by decide, by decide⟩, .file (utf8 belowCommand))]

/-- Loading one layer gives the defaults with its entries over them. -/
theorem load_layer {system : FileSystem} {layer : Layer} {entries : Entries}
    (found : layer.Found system) (holds : layer.entries? system = some entries) :
    ClientSettings.load system [layer] [] = (Setting.combine [entries] []).toClient := by
  have reads : layer.read system = .ok entries := by
    rw [Layer.read_eq (.inl found) (fun _ => by rw [holds]; rfl), holds,
      if_neg fun both => both.2 found]
    rfl
  have told : Loader.ofCalls [.layer layer] = .ok { layers := [layer] } := rfl
  have read : [layer].mapM (Layer.read system) = .ok [entries] := by
    rw [List.mapM_cons, reads]
    rfl
  simp only [ClientSettings.load, List.map_cons, List.map_nil, List.append_nil, told, bind,
    Except.bind, Loader.build, read]

/-- None of the settings is under its names in a table. -/
def nowhere (entries : Entries) : Bool :=
  SettingKey.all.all fun k => ((Setting.table entries).at? k.names).isNone

/-- Entries that name no setting give none. -/
theorem at?_of_nowhere {entries : Entries} (missing : nowhere entries = true) (k : SettingKey) :
    (Setting.table entries).at? k.names = none :=
  Option.isNone_iff_eq_none.mp (List.all_eq_true.mp missing k k.mem_all)

/-- Tables that give no setting under its names change the settings, or spoil them. -/
theorem lenient_layers :
    (∃ entries, (Layer.file "/b.toml").entries? oddFiles = some entries ∧
      (∀ k : SettingKey, (Setting.table entries).at? k.names = none) ∧
      ∃ s, ClientSettings.load oddFiles [.file "/b.toml"] [] = .ok s ∧
        s.server.command = "deno" ∧ s.server.editor = "vim") ∧
    ∃ entries, (Layer.file "/c.toml").entries? oddFiles = some entries ∧
      (∀ k : SettingKey, (Setting.table entries).at? k.names = none) ∧
      ∀ s, ClientSettings.load oddFiles [.file "/c.toml"] [] ≠ .ok s := by
  -- paths of one segment and without links, so where they lead is known without looking at the rest
  -- of the tree
  have other : oddFiles.Plain (utf8 (Layer.file "/b.toml").path) [utf8 "b.toml"] := by
    decide +kernel
  have below : oddFiles.Plain (utf8 (Layer.file "/c.toml").path) [utf8 "c.toml"] := by
    decide +kernel
  constructor
  · have loads : (Toml.read? otherNames).any
        (fun e => nowhere e && (Setting.combine [e] []).toClient.toOption.any fun s =>
          s.server.command = "deno" ∧ s.server.editor = "vim") = true := by decide +kernel
    obtain ⟨entries, reads, good⟩ := (Option.any_eq_true _ _).mp loads
    obtain ⟨unnamed, client⟩ := Bool.and_eq_true_iff.mp good
    obtain ⟨s, client, values⟩ := (Option.any_eq_true _ _).mp client
    obtain ⟨found, isText⟩ :=
      Layer.reads_of_file (FileSystem.resolve_of_descend other true rfl) (by decide +kernel)
    have gives := isText.trans reads
    exact ⟨entries, gives, at?_of_nowhere unnamed, s,
      (load_layer found gives).trans (eq_ok_of_toOption client), of_decide_eq_true values⟩
  · have fails : (Toml.read? belowCommand).any
        (fun e => nowhere e && (Setting.combine [e] []).toClient.toOption.isNone) = true := by
      decide +kernel
    obtain ⟨entries, reads, bad⟩ := (Option.any_eq_true _ _).mp fails
    obtain ⟨unnamed, client⟩ := Bool.and_eq_true_iff.mp bad
    obtain ⟨found, isText⟩ :=
      Layer.reads_of_file (FileSystem.resolve_of_descend below true rfl) (by decide +kernel)
    have gives := isText.trans reads
    refine ⟨entries, gives, at?_of_nowhere unnamed, fun s built => ?_⟩
    rw [← load_layer found gives, built] at client
    exact Bool.false_ne_true client

end EmberClient
