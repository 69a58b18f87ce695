import EmberClient.Settings.Layer

/-!
# What a file gives, value by value

A file is tables within tables, but what it comes to is its leaves: values that are no
tables, each with the path to it (`Setting.leaves`). Putting a layer over what is there
changes a place only if a leaf of the layer is for it, as long as none of the leaves is in
the way of that place (`Fits`), be it above the place or below it.

> `at?_applyLayer`: what stands at the place is then the last such leaf, or what stood there.

The step is about one name of a table, with one case for each shape of a value
(`at?_assign`); it and the lemma about all entries of a table (`at?_merge`) go down a value
together.
-/

namespace EmberClient

open Text

/-- A step of a path as it counts: names are not told apart by case. -/
def Segment.lower : Segment → Segment
  | .child name => .child (lowerText name)
  | .item index => .item index

namespace Setting

/-! ## Places -/

/-- The value under names that lead down through tables. -/
def at? : List String → Setting → Option Setting
  | [], v => some v
  | name :: rest, v => (v.entries.get? name).bind (at? rest)

def isTable : Setting → Bool
  | .table _ => true
  | _ => false

def isEmptyTable : Setting → Bool
  | .table [] => true
  | _ => false

/-- Below what is no table, and below an empty one, there is nothing. -/
theorem at?_empty {v : Setting} (empty : v.entries = []) (name : String) (rest : List String) :
    at? (name :: rest) v = none := by
  rw [at?, empty]
  rfl

/-- What is put at a name is found there, and the rest as before. -/
theorem at?_put (name key : String) (rest : List String) (v : Setting) (entries : Entries) :
    at? (key :: rest) (.table (Entries.put name v entries)) =
      if name = key then at? rest v else (Entries.get? key entries).bind (at? rest) := by
  rw [at?, Setting.entries]
  split
  · next same => rw [same, Entries.get?_put, Option.bind_some]
  · next other => rw [Entries.get?_put_of_ne (Ne.symm other)]

/-! ## Leaves -/

/-- A value without tables in it, and the path to it. -/
structure Leaf where
  path : List Segment
  value : Setting

/-- The leaf, seen from further out. -/
def Leaf.behind (steps : List Segment) (leaf : Leaf) : Leaf := ⟨steps ++ leaf.path, leaf.value⟩

mutual

/-- The leaves of a value. An empty table is one, too: it gives nothing, but it is there. -/
def leaves : Setting → List Leaf
  | .table [] => [⟨[], .table []⟩]
  | .table (e :: more) => leavesIn (e :: more)
  | v => [⟨[], v⟩]

/-- The leaves of the entries of a table. -/
def leavesIn : List (String × Setting) → List Leaf
  | [] => []
  | (name, v) :: rest => (leaves v).map (.behind [.child (lowerText name)]) ++ leavesIn rest

end

theorem leaves_of_scalar {v : Setting} (scalar : v.isTable = false) : v.leaves = [⟨[], v⟩] := by
  cases v with
  | table => contradiction
  | _ => rfl

/-- No value is without leaves. -/
theorem leaves_ne_nil : ∀ v : Setting, v.leaves ≠ []
  | .table [] => by simp [leaves]
  | .table ((_, v) :: _) => by
    have inner := leaves_ne_nil v
    simp [leaves, leavesIn, inner]
  | .unset | .bool _ | .int _ | .real _ | .text _ | .list _ => by simp [leaves]

/-- The value of the last leaf whose path is just these names. -/
def lastAt (names : List String) : List Leaf → Option Setting
  | [] => none
  | leaf :: rest =>
    (lastAt names rest).or (if leaf.path = names.map .child then some leaf.value else none)

/-- The last leaf at a name is in the second list, or else in the first. -/
theorem lastAt_append (names : List String) (first second : List Leaf) :
    lastAt names (first ++ second) = (lastAt names second).or (lastAt names first) := by
  induction first with
  | nil => simp [lastAt]
  | cons leaf first ih => rw [List.cons_append, lastAt, lastAt, ih, Option.or_assoc]

/-- Under a name are only paths that begin with it. -/
theorem lastAt_behind (name key : String) (rest : List String) (steps : List Segment)
    (found : List Leaf) :
    lastAt (key :: rest) (found.map (.behind (.child name :: steps))) =
      if name = key then lastAt rest (found.map (.behind steps)) else none := by
  induction found with
  | nil => simp [lastAt]
  | cons leaf found ih =>
    have begins : (leaf.behind (.child name :: steps)).path = .child key :: rest.map .child ↔
        name = key ∧ (leaf.behind steps).path = rest.map .child := by
      simp [Leaf.behind]
    simp only [List.map_cons, lastAt, ih]
    -- a leaf behind another name is not on the way
    by_cases same : name = key
    · by_cases ends : (leaf.behind steps).path = rest.map .child
      · rw [if_pos same, if_pos same, if_pos ends, if_pos (begins.mpr ⟨same, ends⟩)]
        rfl
      · rw [if_pos same, if_pos same, if_neg ends, if_neg fun whole => ends (begins.mp whole).2]
    · rw [if_neg same, if_neg same, if_neg fun whole => same (begins.mp whole).1]
      rfl

theorem map_behind_nil (found : List Leaf) : found.map (.behind []) = found :=
  List.map_id'' (fun _ => rfl) found

/-! ## Being in the way -/

/-- A leaf with this path and value is not in the way of the place that the names lead to: it
is for that place, or leaves the way there by another name. On the way itself it may only be
an empty table. -/
def Fits : List String → List Segment → Setting → Prop
  | [], [], v => v.isTable = false
  | [], _ :: _, _ => False
  | _ :: _, [], v => v.isEmptyTable = true
  | key :: rest, .child name :: path, v => name = key → Fits rest path v
  | _ :: _, .item _ :: _, _ => False

instance Fits.decidable : ∀ names path v, Decidable (Fits names path v)
  | [], [], v => inferInstanceAs (Decidable (v.isTable = false))
  | [], _ :: _, _ => inferInstanceAs (Decidable False)
  | _ :: _, [], v => inferInstanceAs (Decidable (v.isEmptyTable = true))
  | key :: rest, .child name :: path, v =>
    have := Fits.decidable rest path v
    inferInstanceAs (Decidable (name = key → Fits rest path v))
  | _ :: _, .item _ :: _, _ => inferInstanceAs (Decidable False)

/-- None of the leaves is in the way. -/
def AllFit (names : List String) (found : List Leaf) : Prop :=
  ∀ leaf ∈ found, Fits names leaf.path leaf.value

instance (names : List String) (found : List Leaf) : Decidable (AllFit names found) :=
  inferInstanceAs (Decidable (∀ leaf ∈ found, Fits names leaf.path leaf.value))

theorem allFit_append {names : List String} {first second : List Leaf} :
    AllFit names (first ++ second) ↔ AllFit names first ∧ AllFit names second :=
  List.forall_mem_append

/-- Leaves that fit behind a name fit there without it. -/
theorem allFit_behind {name key : String} {rest : List String} {steps : List Segment}
    {found : List Leaf} (fit : AllFit (key :: rest) (found.map (.behind (.child name :: steps))))
    (same : name = key) : AllFit rest (found.map (.behind steps)) := by
  intro leaf member
  obtain ⟨inner, here, rfl⟩ := List.mem_map.mp member
  exact fit _ (List.mem_map_of_mem here) same

/-- Below a place there is nothing that fits. -/
theorem not_allFit_below {steps : List Segment} (some : steps ≠ []) (v : Setting) :
    ¬ AllFit [] (v.leaves.map (.behind steps)) := by
  intro fit
  obtain ⟨leaf, member⟩ := List.exists_mem_of_ne_nil _ (leaves_ne_nil v)
  have fits := fit _ (List.mem_map_of_mem member)
  cases steps with
  | nil => contradiction
  | cons step steps => exact fits

/-- An item of a list never fits a setting. -/
theorem not_allFit_item {key : String} {rest : List String} {index : Int} {steps : List Segment}
    (v : Setting) : ¬ AllFit (key :: rest) (v.leaves.map (.behind (.item index :: steps))) := by
  intro fit
  obtain ⟨leaf, member⟩ := List.exists_mem_of_ne_nil _ (leaves_ne_nil v)
  exact fit _ (List.mem_map_of_mem member)

/-! ## Putting values in place -/

/-- What stands under a name after a value was put there. -/
def assigned (target : Setting) (name : String) : Setting → Setting
  | .table incoming =>
    merge ((Entries.get? (lowerText name) target.entries).getD (.table [])) incoming
  | v => v

/-- Assigning puts a value into the table of the target. -/
theorem assign_eq (target : Setting) (name : String) (v : Setting) :
    target.assign name v =
      .table (Entries.put (lowerText name) (target.assigned name v) target.entries) := by
  cases v with
  | table incoming => rw [assign, assigned]
  | _ => rfl

theorem at?_getD {target other : Setting} (empty : other.entries = []) (key name : String)
    (rest : List String) :
    at? (name :: rest) ((Entries.get? key target.entries).getD other) =
      at? (key :: name :: rest) target := by
  have down : at? (key :: name :: rest) target =
      (Entries.get? key target.entries).bind (at? (name :: rest)) := rfl
  rw [down]
  cases Entries.get? key target.entries with
  | some v => rfl
  | none => exact at?_empty empty name rest

/-- To put a value under a name is to change what stands there. -/
theorem at?_assign_of {target : Setting} {name key : String} {rest : List String} {v : Setting}
    (inner : lowerText name = key → AllFit rest v.leaves →
      at? rest (target.assigned name v) = (lastAt rest v.leaves).or (at? (key :: rest) target))
    (fit : AllFit (key :: rest) (v.leaves.map (.behind [.child (lowerText name)]))) :
    at? (key :: rest) (target.assign name v) =
      (lastAt (key :: rest) (v.leaves.map (.behind [.child (lowerText name)]))).or
        (at? (key :: rest) target) := by
  rw [assign_eq, at?_put, lastAt_behind, map_behind_nil]
  by_cases same : lowerText name = key
  · have fit := allFit_behind fit same
    rw [map_behind_nil] at fit
    rw [if_pos same, if_pos same, inner same fit]
  · rw [if_neg same, if_neg same]
    rfl

mutual

/-- What was assigned is found as the last leaf, or else what stood there. -/
theorem at?_assigned (target : Setting) (name : String) {key : String} (same : lowerText name = key) :
    ∀ (rest : List String) (v : Setting), AllFit rest v.leaves →
      at? rest (target.assigned name v) = (lastAt rest v.leaves).or (at? (key :: rest) target)
  | [], .table [], fit => by
    exact absurd (fit _ (List.mem_singleton_self _)) (by simp [Fits, isTable])
  | [], .table ((inner, v) :: more), fit => by
    rw [leaves, leavesIn] at fit
    exact absurd (allFit_append.mp fit).1 (not_allFit_below (by simp) v)
  | next :: rest, .table [], _ => by
    subst same
    rw [assigned, merge, at?_getD rfl]
    rfl
  | next :: rest, .table (e :: more), fit => by
    subst same
    rw [assigned, at?_merge _ next rest (e :: more) fit, at?_getD rfl, leaves]
  | [], .unset, _ | [], .bool _, _ | [], .int _, _ | [], .real _, _ | [], .text _, _
  | [], .list _, _ => rfl
  | _ :: _, .unset, fit | _ :: _, .bool _, fit | _ :: _, .int _, fit | _ :: _, .real _, fit
  | _ :: _, .text _, fit | _ :: _, .list _, fit => by
    exact absurd (fit _ (List.mem_singleton_self _)) (by simp [Fits, isEmptyTable])

/-- Entries that are merged into a table change the places that their leaves are for. -/
theorem at?_merge (target : Setting) (key : String) (rest : List String) :
    ∀ entries : Entries, AllFit (key :: rest) (leavesIn entries) →
      at? (key :: rest) (target.merge entries) =
        (lastAt (key :: rest) (leavesIn entries)).or (at? (key :: rest) target)
  | [], _ => by rw [merge, leavesIn, lastAt, Option.none_or]
  | (name, v) :: more, fit => by
    rw [leavesIn] at fit ⊢
    obtain ⟨first, others⟩ := allFit_append.mp fit
    rw [merge, at?_merge _ key rest more others,
      at?_assign_of (fun same => at?_assigned target name same rest v) first,
      lastAt_append, Option.or_assoc]

end

/-- Placing goes down one step and puts the outcome back. -/
theorem place_child (target v : Setting) (name : String) (step : Segment) (more : List Segment) :
    target.place (.child name :: step :: more) v =
      .table (Entries.put (lowerText name)
        (((Entries.get? (lowerText name) target.entries).getD .unset).place (step :: more) v)
        target.entries) := by
  rw [place]
  simp

/-- A value that is put at the end of steps changes the places that its leaves are for. -/
theorem at?_place (target v : Setting) (key : String) (rest : List String) (first : String)
    (more : List Segment)
    (fit : AllFit (key :: rest)
      (v.leaves.map (.behind ((Segment.child first :: more).map Segment.lower)))) :
    at? (key :: rest) (target.place (.child first :: more) v) =
      (lastAt (key :: rest)
        (v.leaves.map (.behind ((Segment.child first :: more).map Segment.lower)))).or
        (at? (key :: rest) target) := by
  -- along the path, as far as it agrees with the names that are looked for
  induction more generalizing target key rest first with
  | nil =>
    rw [place]
    exact at?_assign_of (fun same => at?_assigned target first same rest v) fit
  | cons step more ih =>
    rw [place_child, at?_put, List.map_cons, Segment.lower, lastAt_behind]
    by_cases same : lowerText first = key
    · rw [if_pos same, if_pos same]
      have inner := allFit_behind fit same
      cases rest with
      | nil => exact absurd inner (not_allFit_below (by simp) v)
      | cons next rest =>
        cases step with
        | item index => exact absurd inner (not_allFit_item v)
        | child name => rw [ih _ next rest name inner, at?_getD rfl, same]
    · rw [if_neg same, if_neg same]
      rfl

/-! ## Layers -/

/-- The path that the name of an entry of a layer is. -/
def entrySteps (name : String) : List Segment :=
  match KeyPath.ofText? name with
  | some path => path.segments
  | none => [.child name]

/-- The leaves of a layer. -/
def layerLeaves (entries : Entries) : List Leaf :=
  entries.flatMap fun (name, v) => v.leaves.map (.behind ((entrySteps name).map Segment.lower))

/-- An entry is placed at the steps of its name. -/
theorem applyEntry_eq (root : Setting) (name : String) (v : Setting) :
    root.applyEntry (name, v) = root.place (entrySteps name) v := by
  unfold applyEntry entrySteps
  cases KeyPath.ofText? name with
  | some path => rfl
  | none => rw [place]

theorem exists_entrySteps (name : String) : ∃ first more, entrySteps name = .child first :: more := by
  unfold entrySteps
  cases KeyPath.ofText? name with
  | some path => exact ⟨_, _, rfl⟩
  | none => exact ⟨_, _, rfl⟩

/-- **A layer changes a place only if a leaf of it is for it.** As long as none of its leaves
is in the way, what stands there is then the last such leaf, or what stood there before. -/
theorem at?_applyLayer (root : Setting) (key : String) (rest : List String) {entries : Entries}
    (fit : AllFit (key :: rest) (layerLeaves entries)) :
    at? (key :: rest) (root.applyLayer entries) =
      (lastAt (key :: rest) (layerLeaves entries)).or (at? (key :: rest) root) := by
  -- along the entries: each is placed over what the ones before it have left
  induction entries generalizing root with
  | nil => rfl
  | cons e entries ih =>
    obtain ⟨name, v⟩ := e
    obtain ⟨first, others⟩ : AllFit (key :: rest)
        (v.leaves.map (.behind ((entrySteps name).map Segment.lower))) ∧ _ :=
      allFit_append.mp fit
    obtain ⟨front, more, steps⟩ := exists_entrySteps name
    have split : layerLeaves ((name, v) :: entries) =
        v.leaves.map (.behind ((entrySteps name).map Segment.lower)) ++ layerLeaves entries := rfl
    rw [steps] at first split
    have here := at?_place root v key rest front more first
    rw [applyLayer, List.foldl_cons, applyEntry_eq, ← applyLayer, ih _ others, steps, here, split,
      lastAt_append, Option.or_assoc]

end Setting

end EmberClient
