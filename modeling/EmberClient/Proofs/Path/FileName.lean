import EmberClient.Proofs.Path.Spelling
import Mathlib.Data.List.DropRight

/-!
# The last segment of a path, in any spelling

`Path.fileName` goes back from the end of a path to the nearest separator and does not ask which
of the two it is. Read forwards, a path ends in exactly one segment, a name without separators
that is all of the path or stands behind one, and that is its file name (`fileName_eq_iff`).

Normalizing writes other separators and leaves names alone, so what it makes of a path ends in
the same segment:

> `fileName_normalize`, `normalize_fileName`: the file name is the same whether a path is
> normalized before it is taken, after, or not at all.
-/

namespace EmberClient.Path

variable {cs ds : List Char} {path name : String}

/-! ## Going back from the end -/

theorem fileNameChars_concat (cs : List Char) (c : Char) :
    fileNameChars (cs ++ [c]) = if isSeparator c = true then [] else fileNameChars cs ++ [c] := by
  show List.rtakeWhile _ _ = _
  by_cases h : isSeparator c = true
  · rw [if_pos h, List.rtakeWhile_concat_neg]
    simp [h]
  · rw [if_neg h, List.rtakeWhile_concat_pos]
    · rfl
    · simp [h]

/-- What has no separator is passed whole. -/
theorem fileNameChars_append (plain : ∀ c ∈ ds, isSeparator c = false) :
    fileNameChars (cs ++ ds) = fileNameChars cs ++ ds := by
  induction ds using List.reverseRecOn with
  | nil => rw [List.append_nil, List.append_nil]
  | append_singleton ds d ih =>
    have last : isSeparator d = false := plain d (by simp)
    have rest : ∀ c ∈ ds, isSeparator c = false := by
      intro c member
      exact plain c (List.mem_append_left [d] member)
    rw [← List.append_assoc, fileNameChars_concat, last, if_neg Bool.false_ne_true, ih rest,
      List.append_assoc]

/-- Going back ends at the front of a path or at a separator. -/
theorem fileNameChars_cases (cs : List Char) :
    cs = fileNameChars cs ∨
      ∃ dir sep, isSeparator sep = true ∧ cs = dir ++ [sep] ++ fileNameChars cs := by
  induction cs using List.reverseRecOn with
  | nil => exact .inl rfl
  | append_singleton cs c ih =>
    rw [fileNameChars_concat]
    by_cases h : isSeparator c = true
    · rw [if_pos h]
      exact .inr ⟨cs, c, h, (List.append_nil _).symm⟩
    · -- one character more is passed, and the way back from there is that of the shorter path
      rw [if_neg h]
      rcases ih with whole | ⟨dir, sep, separates, split⟩
      · exact .inl (congrArg (· ++ [c]) whole)
      · refine .inr ⟨dir, sep, separates, ?_⟩
        calc cs ++ [c] = dir ++ [sep] ++ fileNameChars cs ++ [c] := congrArg (· ++ [c]) split
          _ = dir ++ [sep] ++ (fileNameChars cs ++ [c]) := List.append_assoc ..

/-! ## Segments -/

/-- A name without separators. -/
def IsSegment (name : String) : Prop := ∀ c ∈ name.toList, isSeparator c = false

/-- A path is a name, or has it behind a separator. -/
inductive EndsIn (name : String) : String → Prop where
  | alone : EndsIn name name
  | below (dir : String) {sep : Char} (separates : isSeparator sep = true) :
      EndsIn name (dir ++ String.singleton sep ++ name)

theorem isSegment_fileName (path : String) : IsSegment (fileName path) := by
  intro c member
  rw [fileName, String.toList_ofList] at member
  have kept : (!isSeparator c) = true :=
    List.mem_rtakeWhile_imp (p := fun c => !isSeparator c) member
  simpa using kept

/-- A path ends in its file name. -/
theorem endsIn_fileName (path : String) : EndsIn (fileName path) path := by
  rcases fileNameChars_cases path.toList with whole | ⟨dir, sep, separates, split⟩
  · have same : fileName path = path := by rw [fileName, ← whole, String.ofList_toList]
    rw [same]
    exact .alone
  · have same : path = String.ofList dir ++ String.singleton sep ++ fileName path := by
      refine String.toList_inj.mp ?_
      simpa [fileName] using split
    have below : EndsIn (fileName path)
        (String.ofList dir ++ String.singleton sep ++ fileName path) :=
      .below (String.ofList dir) separates
    rwa [← same] at below

/-- The only segment that a path ends in is its file name. -/
theorem EndsIn.fileName_eq (ends : EndsIn name path) (segment : IsSegment name) :
    fileName path = name := by
  cases ends with
  | alone =>
    have all : fileNameChars ([] ++ path.toList) = [] ++ path.toList := fileNameChars_append segment
    rw [List.nil_append] at all
    rw [fileName, all, String.ofList_toList]
  | @below dir sep separates =>
    have stop := fileNameChars_concat dir.toList sep
    rw [if_pos separates] at stop
    rw [fileName, String.toList_append, String.toList_append, String.toList_singleton,
      fileNameChars_append segment, stop, List.nil_append, String.ofList_toList]

/-- The file name is the one segment that a path ends in. -/
theorem fileName_eq_iff : fileName path = name ↔ IsSegment name ∧ EndsIn name path := by
  constructor
  · intro same
    rw [← same]
    exact ⟨isSegment_fileName path, endsIn_fileName path⟩
  · intro ⟨segment, ends⟩
    exact ends.fileName_eq segment

/-- Behind a separator at the end there is an empty name. -/
example : fileName "a\\b/" = "" ∧ fileName "a\\é//b\\c.js" = "c.js" := by decide

/-! ## Normalizing -/

theorem normalize_append (s t : String) : normalize (s ++ t) = normalize s ++ normalize t := by
  simp [normalize]

theorem normalize_singleton {sep : Char} (separates : isSeparator sep = true) :
    normalize (String.singleton sep) = "/" := by
  rw [normalize, String.toList_singleton, List.map_singleton,
    normalizeChar_of_isSeparator separates]

theorem IsSegment.normalize_eq (segment : IsSegment name) : normalize name = name := by
  have each : name.toList.map normalizeChar = name.toList.map id := by
    refine List.map_congr_left ?_
    intro c member
    exact normalizeChar_of_not_isSeparator (segment c member)
  rw [normalize, each, List.map_id, String.ofList_toList]

/-- A normalized path ends in what the path does, behind a slash if behind anything. -/
theorem EndsIn.normalize_cases (ends : EndsIn name path) (segment : IsSegment name) :
    normalize path = name ∨ ∃ dir, normalize path = dir ++ "/" ++ name := by
  cases ends with
  | alone => exact .inl segment.normalize_eq
  | below dir separates =>
    refine .inr ⟨normalize dir, ?_⟩
    rw [normalize_append, normalize_append, normalize_singleton separates, segment.normalize_eq]

/-- A normalized path is its file name, or a directory that ends in a slash and then its file
name. -/
theorem normalize_cases (path : String) :
    normalize path = fileName path ∨ ∃ dir, normalize path = dir ++ "/" ++ fileName path :=
  (endsIn_fileName path).normalize_cases (isSegment_fileName path)

/-- Normalizing a path keeps its file name. -/
theorem fileName_normalize (path : String) : fileName (normalize path) = fileName path := by
  refine fileName_eq_iff.mpr ⟨isSegment_fileName path, ?_⟩
  rcases normalize_cases path with whole | ⟨dir, split⟩
  · rw [whole]
    exact .alone
  · rw [split]
    have slash : isSeparator '/' = true := by decide
    exact .below dir slash

theorem normalize_fileName (path : String) : normalize (fileName path) = fileName path :=
  (isSegment_fileName path).normalize_eq

end EmberClient.Path
