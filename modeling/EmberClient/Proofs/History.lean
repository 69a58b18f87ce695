import Mathlib.Data.List.Basic

/-!
# Histories

A history lists what happened, in order, and grows at its end. Claims about one
read "each entry stands in this relation to all that came before it"; `EachAfter`
says so, and `eachAfter_snoc` is how it is kept while the history grows.
-/

namespace EmberClient

variable {α β : Type}

/-- What a view of a history shows, when the history grows by at most one entry. -/
theorem filterMap_append_toList (f : α → Option β) (h : List α) (e : Option α) :
    (h ++ e.toList).filterMap f = h.filterMap f ++ (e.bind f).toList := by
  rw [List.filterMap_append]
  cases e with
  | none => rfl
  | some x =>
    show _ ++ [x].filterMap f = _ ++ (f x).toList
    cases hx : f x with
    | none => simp [hx]
    | some y => simp [hx]

/-- Each entry of a history stands in relation `P` to all that came before it. -/
def EachAfter (P : List α → α → Prop) (h : List α) : Prop :=
  ∀ past e future, h = past ++ e :: future → P past e

/-- Where an entry of a longer history stands: in the old part, or at the end. -/
theorem snoc_eq_append_cons {h past future : List α} {e x : α}
    (eq : h ++ [e] = past ++ x :: future) :
    (past = h ∧ x = e ∧ future = []) ∨
      ∃ rest, future = rest ++ [e] ∧ h = past ++ x :: rest := by
  rcases List.eq_nil_or_concat future with rfl | ⟨rest, y, rfl⟩
  · obtain ⟨rfl, he⟩ := List.append_inj' eq rfl
    exact Or.inl ⟨rfl, (List.singleton_inj.mp he).symm, rfl⟩
  · rw [List.concat_eq_append, ← List.cons_append, ← List.append_assoc] at eq
    obtain ⟨rfl, he⟩ := List.append_inj' eq rfl
    obtain rfl := List.singleton_inj.mp he
    exact Or.inr ⟨rest, List.concat_eq_append, rfl⟩

namespace EachAfter

variable {P Q : List α → α → Prop} {h : List α}

theorem nil : EachAfter P [] := by
  intro past e future eq
  simp at eq

/-- A property of entries and their past goes on with each new entry that has it. -/
theorem snoc {e : α} (old : EachAfter P h) (new : P h e) : EachAfter P (h ++ [e]) := by
  intro past x future eq
  rcases snoc_eq_append_cons eq with ⟨rfl, rfl, -⟩ | ⟨rest, -, he⟩
  · exact new
  · exact old past x rest he

/-- A history that grows by at most one entry. -/
theorem append {e : Option α} (old : EachAfter P h) (new : ∀ x, e = some x → P h x) :
    EachAfter P (h ++ e.toList) := by
  cases e with
  | none => simpa using old
  | some x => exact old.snoc (new x rfl)

/-- A history that grew had this property before, and so has what it grew by. -/
theorem of_snoc {e : α} (whole : EachAfter P (h ++ [e])) : EachAfter P h ∧ P h e := by
  refine ⟨?_, whole h e [] rfl⟩
  intro past x future eq
  exact whole past x (future ++ [e]) (by rw [eq, List.append_assoc, List.cons_append])

theorem imp (old : EachAfter P h) (himp : ∀ past e, P past e → Q past e) : EachAfter Q h :=
  fun past e future eq => himp past e (old past e future eq)

end EachAfter

end EmberClient
