import EmberClient.Path.Spelling
import Mathlib.Data.List.Forall2
import Mathlib.Data.String.Basic

/-!
# Comparing paths is comparing normalized paths

`Path.same` never builds a normalized path. It compares the numbers of bytes, and then walks
along both paths as far as the shorter one goes. Characters take from one to four bytes, so as
many bytes need not be as many characters, and what is beyond the shorter path is never looked
at. But characters that agree take as many bytes as each other: a separator takes one. So what
is beyond takes none, and is nothing (`forall₂_agree_of_zip`).

> `same_iff_normalize`: two paths are the same just if they are equal once normalized.

So being the same is an equivalence that separators make no difference to, and normalizing
picks one spelling of each class.
-/

namespace EmberClient.Path

variable {a b c : Char} {cs ds : List Char} {l r l' r' : String}

/-! ## Characters -/

theorem normalizeChar_of_isSeparator (h : isSeparator c = true) : normalizeChar c = '/' := by
  simp only [isSeparator, Bool.or_eq_true, decide_eq_true_eq] at h
  rcases h with rfl | rfl <;> rfl

theorem normalizeChar_of_not_isSeparator (h : isSeparator c = false) : normalizeChar c = c := by
  simp only [isSeparator, Bool.or_eq_false_iff, decide_eq_false_iff_not] at h
  exact if_neg h.2

/-- Normalizing turns separators into separators, and nothing else. -/
theorem isSeparator_normalizeChar (c : Char) : isSeparator (normalizeChar c) = isSeparator c := by
  by_cases h : isSeparator c = true
  · rw [normalizeChar_of_isSeparator h, h]
    rfl
  · rw [normalizeChar_of_not_isSeparator (eq_false_of_ne_true h)]

/-- Characters agree just if slashes for backslashes make them equal. -/
theorem agree_iff : agree a b = true ↔ normalizeChar a = normalizeChar b := by
  have said : agree a b = true ↔ a = b ∨ isSeparator a = true ∧ isSeparator b = true := by
    simp [agree]
  rw [said]
  constructor
  · rintro (rfl | ⟨ha, hb⟩)
    · rfl
    · rw [normalizeChar_of_isSeparator ha, normalizeChar_of_isSeparator hb]
  · intro same
    have kinds : isSeparator a = isSeparator b := by
      rw [← isSeparator_normalizeChar a, same, isSeparator_normalizeChar]
    by_cases ha : isSeparator a = true
    · exact .inr ⟨ha, kinds ▸ ha⟩
    · have ha := eq_false_of_ne_true ha
      rw [normalizeChar_of_not_isSeparator ha,
        normalizeChar_of_not_isSeparator (kinds ▸ ha)] at same
      exact .inl same

/-- A separator takes one byte, whichever it is. -/
theorem utf8Size_normalizeChar (c : Char) : (normalizeChar c).utf8Size = c.utf8Size := by
  unfold normalizeChar
  split
  · next h =>
    subst h
    rfl
  · rfl

/-- Characters that agree are equally long. -/
theorem utf8Size_of_agree (h : agree a b = true) : a.utf8Size = b.utf8Size := by
  rw [← utf8Size_normalizeChar a, agree_iff.mp h, utf8Size_normalizeChar]

/-! ## Lists of characters -/

/-- Where all characters agree as far as the shorter list goes, and the lists take as many
bytes, neither is shorter. -/
theorem forall₂_agree_of_zip (sizes : String.utf8Len cs = String.utf8Len ds)
    (all : (cs.zip ds).all (fun (a, b) => agree a b) = true) :
    List.Forall₂ (fun a b => agree a b = true) cs ds := by
  -- along both lists: what agrees takes as many bytes, so the rests still do, and where one
  -- list ends there is no byte left in the other
  induction cs generalizing ds with
  | nil =>
    obtain rfl := String.utf8Len_eq_zero.mp sizes.symm
    exact .nil
  | cons a cs ih =>
    cases ds with
    | nil => exact absurd (String.utf8Len_eq_zero.mp sizes) (List.cons_ne_nil a cs)
    | cons b ds =>
      simp only [List.zip_cons_cons, List.all_cons, Bool.and_eq_true] at all
      obtain ⟨first, rest⟩ := all
      rw [String.utf8Len_cons, String.utf8Len_cons, utf8Size_of_agree first] at sizes
      exact .cons first (ih (Nat.add_right_cancel sizes) rest)

/-- Lists that agree character by character are equally long and agree in pairs. -/
theorem zip_of_forall₂_agree (h : List.Forall₂ (fun a b => agree a b = true) cs ds) :
    String.utf8Len cs = String.utf8Len ds ∧
      (cs.zip ds).all (fun (a, b) => agree a b) = true := by
  induction h with
  | nil => exact ⟨rfl, rfl⟩
  | cons first rest ih =>
    refine ⟨?_, ?_⟩
    · rw [String.utf8Len_cons, String.utf8Len_cons, utf8Size_of_agree first, ih.1]
    · rw [List.zip_cons_cons, List.all_cons, ih.2, Bool.and_true]
      exact first

/-- Lists agree when they normalize to the same. -/
theorem forall₂_agree_iff :
    List.Forall₂ (fun a b => agree a b = true) cs ds ↔
      cs.map normalizeChar = ds.map normalizeChar := by
  rw [← List.forall₂_eq_eq_eq, List.forall₂_map_left_iff, List.forall₂_map_right_iff]
  simp only [agree_iff]

/-! ## Paths -/

/-- Two paths differ at most in which separators they are written with. -/
def Respelled (l r : String) : Prop :=
  List.Forall₂ (fun a b => a = b ∨ isSeparator a = true ∧ isSeparator b = true) l.toList r.toList

/-- Paths are respelled when their characters agree. -/
theorem respelled_iff_forall₂ :
    Respelled l r ↔ List.Forall₂ (fun a b => agree a b = true) l.toList r.toList := by
  simp [Respelled, agree]

/-- Paths are respelled when they normalize to the same. -/
theorem respelled_iff_normalize : Respelled l r ↔ normalize l = normalize r := by
  rw [respelled_iff_forall₂, forall₂_agree_iff, normalize, normalize, String.ofList_inj]

/-- The comparison finds exactly the respelled paths. -/
theorem same_iff_respelled : same l r = true ↔ Respelled l r := by
  rw [respelled_iff_forall₂]
  simp only [same, Bool.and_eq_true, decide_eq_true_eq, ← String.utf8Len_toList]
  exact ⟨fun ⟨sizes, all⟩ => forall₂_agree_of_zip sizes all, zip_of_forall₂_agree⟩

/-- So it is the comparison of normalized paths. -/
theorem same_iff_normalize : same l r = true ↔ normalize l = normalize r :=
  same_iff_respelled.trans respelled_iff_normalize

theorem same_equivalence : Equivalence fun l r => same l r = true where
  refl _ := same_iff_normalize.mpr rfl
  symm h := same_iff_normalize.mpr (same_iff_normalize.mp h).symm
  trans h h' := same_iff_normalize.mpr ((same_iff_normalize.mp h).trans (same_iff_normalize.mp h'))

/-- Separators make no difference to whether two paths are the same. -/
theorem same_congr (left : Respelled l l') (right : Respelled r r') : same l r = same l' r' := by
  rw [Bool.eq_iff_iff, same_iff_normalize, same_iff_normalize, respelled_iff_normalize.mp left,
    respelled_iff_normalize.mp right]

theorem normalizeChar_normalizeChar (c : Char) :
    normalizeChar (normalizeChar c) = normalizeChar c := by
  by_cases h : isSeparator c = true
  · rw [normalizeChar_of_isSeparator h]
    rfl
  · have h := eq_false_of_ne_true h
    rw [normalizeChar_of_not_isSeparator h, normalizeChar_of_not_isSeparator h]

/-- Normalizing twice is normalizing once. -/
theorem normalize_normalize (path : String) : normalize (normalize path) = normalize path := by
  simp [normalize, Function.comp_def, normalizeChar_normalizeChar]

/-- No backslash is left. -/
theorem backslash_notMem_normalize (path : String) : '\\' ∉ (normalize path).toList := by
  rw [normalize, String.toList_ofList, List.mem_map]
  rintro ⟨c, -, same⟩
  unfold normalizeChar at same
  split at same
  · exact absurd same (by decide)
  · next other => exact other same

/-- What a path is once it is normalized: the same path, with slashes only. -/
structure Normalized (path normal : String) : Prop where
  respelled : Respelled path normal
  slashes : '\\' ∉ normal.toList
  size : normal.utf8ByteSize = path.utf8ByteSize
  same : same path normal = true

/-- The normalized path is the path with its separators turned. -/
theorem normalized_normalize (path : String) : Normalized path (normalize path) := by
  have respelled : Respelled path (normalize path) :=
    respelled_iff_normalize.mpr (normalize_normalize path).symm
  refine ⟨respelled, backslash_notMem_normalize path, ?_, same_iff_respelled.mpr respelled⟩
  have alike := zip_of_forall₂_agree (respelled_iff_forall₂.mp respelled)
  rw [String.utf8Len_toList, String.utf8Len_toList] at alike
  exact alike.1.symm

/-- **Comparing paths is comparing normalized paths**, for any characters of any width:

* two paths are the same just if normalizing makes them equal, which is just if they differ in
  nothing but the separators that they are written with;
* so it is an equivalence, and the separators of either side make no difference to it;
* normalizing changes nothing but backslashes, of which it leaves none, keeps the number of
  bytes, and has nothing to do a second time; a path is the same as what becomes of it. -/
theorem comparison_is_of_normalized :
    (∀ l r, same l r = true ↔ normalize l = normalize r) ∧
    (∀ l r, same l r = true ↔ Respelled l r) ∧
    Equivalence (fun l r => same l r = true) ∧
    (∀ l l' r r', Respelled l l' → Respelled r r' → same l r = same l' r') ∧
    (∀ path, Normalized path (normalize path)) ∧
    ∀ path, normalize (normalize path) = normalize path :=
  ⟨fun _ _ => same_iff_normalize, fun _ _ => same_iff_respelled, same_equivalence,
    fun _ _ _ _ => same_congr, normalized_normalize, normalize_normalize⟩

/-- A letter may take as many bytes as two separators. -/
example : same "a\\é" "a/é" = true ∧ same "é" "//" = false := by decide

end EmberClient.Path
