import Mathlib.Data.List.Basic

/-!
# Lists that are read element by element

A list is read when each of its elements is: `mapM_eq_some_iff` says so as an equation of
lists, from which what is read can be told by the lemmas about `map`.
-/

namespace EmberClient

variable {α β γ : Type} {f : α → Option β} {l : List α}

theorem mapM_eq_some_iff {r : List β} : l.mapM f = some r ↔ l.map f = r.map some := by
  induction l generalizing r with
  | nil => cases r <;> simp
  | cons a l ih =>
    cases r with
    | nil => simp [Option.bind_eq_some_iff]
    | cons b r => simp [Option.bind_eq_some_iff, ih]

/-- Where every element is read, the list is read element by element. -/
theorem mapM_eq_some_map {g : α → β} (each : ∀ a ∈ l, f a = some (g a)) :
    l.mapM f = some (l.map g) := by
  rw [mapM_eq_some_iff, List.map_map]
  exact List.map_congr_left each

/-- In a list that is read every element is. -/
theorem isSome_of_mapM {r : List β} (read : l.mapM f = some r) {a : α} (member : a ∈ l) :
    (f a).isSome = true := by
  have there : f a ∈ r.map some := mapM_eq_some_iff.mp read ▸ List.mem_map_of_mem member
  obtain ⟨b, -, same⟩ := List.mem_map.mp there
  rw [← same]
  rfl

/-- Where one element is not read, nothing is. -/
theorem mapM_eq_none {a : α} (member : a ∈ l) (unread : f a = none) : l.mapM f = none := by
  refine Option.eq_none_iff_forall_ne_some.mpr fun r read => ?_
  have := isSome_of_mapM read member
  rw [unread] at this
  contradiction

/-- Where another reader reads of every element the image of what this one does, it reads the
image of the list. -/
theorem mapM_map {g : α → Option γ} {h : β → γ} {r : List β}
    (each : ∀ a b, f a = some b → g a = some (h b)) (read : l.mapM f = some r) :
    l.mapM g = some (r.map h) := by
  refine mapM_eq_some_iff.mpr ?_
  calc l.map g = l.map fun a => (f a).map h := List.map_congr_left fun a member => by
        obtain ⟨b, here⟩ := Option.isSome_iff_exists.mp (isSome_of_mapM read member)
        rw [each a b here, here, Option.map_some]
    _ = (l.map f).map (·.map h) := by rw [List.map_map]; rfl
    _ = (r.map h).map some := by rw [mapM_eq_some_iff.mp read, List.map_map, List.map_map]; rfl

end EmberClient
