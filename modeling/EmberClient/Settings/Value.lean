import EmberClient.Decimal.Binary64

/-!
# Values of settings

What a configuration file or an override gives for a setting, before it is known
which setting it is for. A date is a text here: no setting is a date, and its
text is all that could be asked of it.
-/

namespace EmberClient

/-- A value that a setting is given. -/
inductive Setting where
  /-- Given, but as nothing. -/
  | unset
  | bool (value : Bool)
  | int (value : Int)
  | real (value : Decimal.Binary64)
  | text (value : String)
  | list (items : List Setting)
  | table (entries : List (String × Setting))
  deriving Inhabited

/-- The entries of a table, by name. -/
abbrev Entries := List (String × Setting)

namespace Entries

/-- What stands under a name. -/
def get? (name : String) (entries : Entries) : Option Setting :=
  (entries.find? fun (n, _) => n = name).map (·.2)

/-- Puts a value under a name: at its place if there is one, else at the end. -/
def put (name : String) (value : Setting) : Entries → Entries
  | [] => [(name, value)]
  | (n, v) :: rest => if n = name then (n, value) :: rest else (n, v) :: put name value rest

theorem get?_put (name : String) (value : Setting) (entries : Entries) :
    (put name value entries).get? name = some value := by
  induction entries with
  | nil => simp [put, get?]
  | cons e rest ih =>
    obtain ⟨n, v⟩ := e
    by_cases h : n = name
    · simp [put, get?, h]
    · simpa [put, get?, h] using ih

theorem get?_put_of_ne {name other : String} (h : other ≠ name) (value : Setting)
    (entries : Entries) : (put name value entries).get? other = entries.get? other := by
  induction entries with
  | nil => simp [put, get?, Ne.symm h]
  | cons e rest ih =>
    obtain ⟨n, v⟩ := e
    by_cases hn : n = name
    · subst hn
      simp [put, get?, Ne.symm h]
    · by_cases ho : n = other
      · subst ho
        simp [put, get?, hn]
      · simpa [put, get?, hn, ho] using ih

end Entries

/-- The entries of a table; anything else has none. -/
def Setting.entries : Setting → Entries
  | .table entries => entries
  | _ => []

end EmberClient
