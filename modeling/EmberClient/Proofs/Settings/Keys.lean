import EmberClient.Proofs.Settings.Leaves

/-!
# The settings, by their names

There are six settings (`SettingKey`). Each stands at a place of its own among the values
that the layers give together, has a type, and is read by its own rule. Nothing else counts
when settings are read:

> `toClient_of_at?`: when every setting stands at its place and has a meaning there, the
> settings are read, each as what it means.
-/

namespace EmberClient

open Text Setting

/-! ## The settings -/

/-- A setting. -/
inductive SettingKey where
  | relatedFiles | command | args | editor | debugEnabled | debugPort
  deriving DecidableEq

namespace SettingKey

/-- All of them. -/
def all : List SettingKey := [.relatedFiles, .command, .args, .editor, .debugEnabled, .debugPort]

theorem mem_all (k : SettingKey) : k ∈ all := by
  cases k <;> decide

/-- The names that lead to the setting. -/
def names : SettingKey → List String
  | .relatedFiles => ["code_lens", "related_files"]
  | .command => ["server", "command"]
  | .args => ["server", "args"]
  | .editor => ["server", "editor"]
  | .debugEnabled => ["server", "debug", "enabled"]
  | .debugPort => ["server", "debug", "port"]

/-- The name that an override calls it by. -/
def text (k : SettingKey) : String := String.intercalate "." k.names

/-- That name as a path. -/
def path (k : SettingKey) : KeyPath := ⟨k.names.headD "", k.names.tail.map .child⟩

/-- The type of the setting. -/
abbrev Value : SettingKey → Type
  | .relatedFiles | .debugEnabled => Bool
  | .command | .editor => String
  | .args => List String
  | .debugPort => Nat

instance : (k : SettingKey) → DecidableEq k.Value
  | .relatedFiles | .debugEnabled => inferInstanceAs (DecidableEq Bool)
  | .command | .editor => inferInstanceAs (DecidableEq String)
  | .args => inferInstanceAs (DecidableEq (List String))
  | .debugPort => inferInstanceAs (DecidableEq Nat)

/-- What a value means for the setting. -/
def read : (k : SettingKey) → Setting → Read k.Value
  | .relatedFiles | .debugEnabled => toBool
  | .command | .editor => toText
  | .args => toTexts
  | .debugPort => toPort

/-- The setting, as a value. -/
def literal : (k : SettingKey) → k.Value → Setting
  | .relatedFiles | .debugEnabled => .bool
  | .command | .editor => .text
  | .args => fun words => .list (words.map .text)
  | .debugPort => fun port => .int port

/-- What the setting is. -/
def get : (k : SettingKey) → ClientSettings → k.Value
  | .relatedFiles => fun s => s.relatedFiles
  | .command => fun s => s.server.command
  | .args => fun s => s.server.args
  | .editor => fun s => s.server.editor
  | .debugEnabled => fun s => s.server.debug.enabled
  | .debugPort => fun s => s.server.debug.port

/-- There are no settings but these. -/
theorem eq_of_get {s t : ClientSettings} (same : ∀ k : SettingKey, k.get s = k.get t) : s = t := by
  obtain ⟨related, command, args, editor, enabled, port⟩ := s
  obtain ⟨related', command', args', editor', enabled', port'⟩ := t
  obtain rfl : related = related' := same .relatedFiles
  obtain rfl : command = command' := same .command
  obtain rfl : args = args' := same .args
  obtain rfl : editor = editor' := same .editor
  obtain rfl : enabled = enabled' := same .debugEnabled
  obtain rfl : port = port' := same .debugPort
  rfl

/-- What holds for the setting where nothing else is said. -/
def default (k : SettingKey) : Setting := (Setting.defaults.at? k.names).getD .unset

theorem names_ne_nil (k : SettingKey) : k.names ≠ [] := by
  cases k <;> simp [names]

/-- The names of a setting tell which it is. -/
theorem names_inj {k other : SettingKey} : k.names = other.names ↔ k = other := by
  cases k <;> cases other <;> decide

theorem text_inj {k other : SettingKey} : k.text = other.text ↔ k = other := by
  cases k <;> cases other <;> decide +kernel

theorem path_inj {k other : SettingKey} : k.path = other.path ↔ k = other := by
  cases k <;> cases other <;> decide +kernel

/-- The text of a setting reads as its path. -/
theorem ofText?_text (k : SettingKey) : KeyPath.ofText? k.text = some k.path := by
  cases k <;> decide +kernel

/-- The defaults have every setting at its names. -/
theorem at?_defaults (k : SettingKey) : Setting.defaults.at? k.names = some k.default := by
  cases k <;> rfl

/-- The path of a setting is spelled in lower case, as its names are. -/
theorem lower_segments (k : SettingKey) :
    k.path.segments.map Segment.lower = k.names.map .child := by
  cases k <;> decide +kernel

theorem readItems_text (n : Nat) (words : List String) :
    readItems toText n (words.map .text) = .ok words := by
  induction words generalizing n with
  | nil => rfl
  | cons word words ih =>
    rw [List.map_cons, readItems, ih]
    rfl

/-- A number reads as the port that it is. -/
theorem eq_of_toPort {n m : Nat} (reads : toPort (.int n) = .ok m) : m = n := by
  have word : toWord (.int n) = .ok n := by
    rw [toWord, if_neg (Int.not_lt.mpr (Int.natCast_nonneg n))]
    rfl
  rw [toPort, word] at reads
  change (if n < Decimal.twoTo 16 then pure n else _) = Except.ok m at reads
  split at reads
  · exact (Except.ok.inj reads).symm
  · contradiction

/-- A value of the type of the setting means itself. -/
theorem eq_of_read_literal {k : SettingKey} {x y : k.Value} (reads : k.read (k.literal x) = .ok y) :
    y = x := by
  cases k with
  | relatedFiles | debugEnabled | command | editor => exact (Except.ok.inj reads).symm
  | args => exact (Except.ok.inj ((readItems_text 0 x).symm.trans reads)).symm
  | debugPort => exact eq_of_toPort reads

/-- What has a meaning for a setting is no table. -/
theorem isTable_of_read {k : SettingKey} {v : Setting} {x : k.Value} (reads : k.read v = .ok x) :
    v.isTable = false := by
  cases v with
  | table entries =>
    -- reading a table fails, whatever the setting
    obtain ⟨fault, fails⟩ : ∃ fault, k.read (.table entries) = .error fault := by
      cases k <;> exact ⟨_, rfl⟩
    rw [fails] at reads
    contradiction
  | _ => rfl

end SettingKey

/-! ## Reading all of them -/

/-- What stands behind a name stands in a table that has the name. -/
theorem exists_of_at? {name : String} {rest : List String} {v w : Setting}
    (stands : v.at? (name :: rest) = some w) :
    ∃ entries inner, v = .table entries ∧ Entries.get? name entries = some inner ∧
      inner.at? rest = some w := by
  cases v with
  | table entries =>
    obtain ⟨inner, here, below⟩ := Option.bind_eq_some_iff.mp stands
    exact ⟨entries, inner, rfl, here, below⟩
  | _ => contradiction

theorem read?_named {α : Type} {f : Setting → Read α} {name : String} {entries : Entries}
    {v : Setting} {a : α} (here : Entries.get? name entries = some v) (reads : f v = .ok a)
    (s : Section) (n : Nat) : (Fields.named entries).read? s n name f = .ok (some a) := by
  simp only [Fields.read?, here, reads]
  rfl

/-- Looking behind a name goes on in what stands there. -/
theorem at?_into {name : String} {entries : Entries} {inner : Setting}
    (here : Entries.get? name entries = some inner) (rest : List String) :
    (Setting.table entries).at? (name :: rest) = inner.at? rest := by
  rw [at?, Setting.entries, here, Option.bind_some]

/-- What stands under one name of a table. -/
theorem get?_of_at? {name : String} {entries : Entries} {v : Setting}
    (stands : (Setting.table entries).at? [name] = some v) : Entries.get? name entries = some v := by
  obtain ⟨_, inner, same, here, is⟩ := exists_of_at? stands
  obtain rfl := Setting.table.inj same
  rw [here]
  exact is

/-- When every setting stands at its place and has a meaning, the settings are read, each as
what it means. -/
theorem toClient_of_at? {root : Setting} {value : SettingKey → Setting}
    {x : (k : SettingKey) → k.Value} (stands : ∀ k : SettingKey, root.at? k.names = some (value k))
    (reads : ∀ k : SettingKey, k.read (value k) = .ok (x k)) :
    ∃ s, root.toClient = .ok s ∧ ∀ k : SettingKey, k.get s = x k := by
  -- the keys of one table are found in the same entries, whichever of them is looked for
  obtain ⟨root, lens, rfl, lensHere, related⟩ := exists_of_at? (stands .relatedFiles)
  obtain ⟨lens, -, rfl, -, -⟩ := exists_of_at? related
  obtain ⟨_, server, same, serverHere, command⟩ := exists_of_at? (stands .command)
  obtain rfl := Setting.table.inj same
  obtain ⟨server, -, rfl, -, -⟩ := exists_of_at? command
  have inServer (rest : List String) := at?_into serverHere rest
  obtain ⟨_, debug, same, debugHere, enabled⟩ :=
    exists_of_at? ((inServer _).symm.trans (stands .debugEnabled))
  obtain rfl := Setting.table.inj same
  obtain ⟨debug, -, rfl, -, -⟩ := exists_of_at? enabled
  have inDebug (rest : List String) := (inServer _).trans (at?_into debugHere rest)
  have readsLens : (Setting.table lens).toLens = .ok (x .relatedFiles) := by
    simp only [toLens, fieldsOf, bind, Except.bind, need,
      read?_named (f := toBool) (get?_of_at? related) (reads .relatedFiles)]
  have readsDebug : (Setting.table debug).toDebug = .ok ⟨x .debugEnabled, x .debugPort⟩ := by
    have port := get?_of_at? ((inDebug _).symm.trans (stands .debugPort))
    simp only [toDebug, fieldsOf, bind, Except.bind, need, pure, Except.pure,
      read?_named (f := toBool) (get?_of_at? enabled) (reads .debugEnabled),
      read?_named (f := toPort) port (reads .debugPort)]
  have readsServer : (Setting.table server).toServer =
      .ok ⟨x .command, x .args, x .editor, ⟨x .debugEnabled, x .debugPort⟩⟩ := by
    have args := get?_of_at? ((inServer _).symm.trans (stands .args))
    have editor := get?_of_at? ((inServer _).symm.trans (stands .editor))
    simp only [toServer, fieldsOf, bind, Except.bind, need, pure, Except.pure,
      read?_named (f := toText) (get?_of_at? command) (reads .command),
      read?_named (f := toTexts) args (reads .args),
      read?_named (f := toText) editor (reads .editor), read?_named debugHere readsDebug]
  refine ⟨⟨x .relatedFiles, ⟨x .command, x .args, x .editor, ⟨x .debugEnabled, x .debugPort⟩⟩⟩,
    ?_, fun k => by cases k <;> rfl⟩
  simp only [toClient, fieldsOf, bind, Except.bind, need, pure, Except.pure,
    read?_named lensHere readsLens, read?_named serverHere readsServer]

end EmberClient
