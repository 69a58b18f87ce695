import EmberClient.Proofs.Path.FileName
import EmberClient.ViewNode

/-!
# Nodes of files, in any spelling

The server may name a file with slashes, with backslashes or with both. Its node is made of the
normalized path and of nothing else: the path is what a click opens and what stands beside the
label, and the label is the last segment of it, which is that of the path as it came
(`shows_ofPath`).

So a node has all that there is to know of a path but its separators, and lists of nodes are
equal just if the paths are the same one by one:

> `relatedFiles_eq_iff`: the view tells files apart as `Path.same` does.
-/

namespace EmberClient.ViewNode

open EmberClient.Path

variable {l r : String} {paths others : List String}

/-- What a node says of the file at a path, and the file that a click on it opens. -/
structure Shows (path : String) (node : ViewNode) : Prop where
  label : node.label = fileName path
  /-- Nothing but the name: there is no separator of either kind in it. -/
  segment : IsSegment node.label
  description : node.description = normalize path
  describes : same path node.description = true
  /-- The label again, with the directory in front of it if there is one. -/
  placed : node.description = node.label ∨ ∃ dir, node.description = dir ++ "/" ++ node.label
  opened : node.path = normalize path
  opens : same path node.path = true
  tooltip : node.tooltip = node.label ++ "-" ++ node.path
  contextValue : node.contextValue = "file"

/-- The label is taken from the normalized path, and is the file name of the path itself. -/
theorem label_ofPath (path : String) : (ofPath path).label = fileName path :=
  fileName_normalize path

theorem shows_ofPath (path : String) : Shows path (ofPath path) := by
  have alike : same path (normalize path) = true := (normalized_normalize path).same
  refine ⟨label_ofPath path, ?_, rfl, alike, ?_, rfl, alike, rfl, rfl⟩
  · rw [label_ofPath]
    exact isSegment_fileName path
  · rw [label_ofPath]
    exact normalize_cases path

/-- The nodes of related files show their paths, in order. -/
theorem shows_relatedFiles (paths : List String) :
    List.Forall₂ Shows paths (relatedFiles paths) := by
  unfold relatedFiles
  rw [List.forall₂_map_right_iff, List.forall₂_same]
  intro path _
  exact shows_ofPath path

/-- A node keeps of a path all but its separators. -/
theorem ofPath_eq_iff : ofPath l = ofPath r ↔ same l r = true := by
  rw [same_iff_normalize]
  constructor
  · intro alike
    exact congrArg ViewNode.path alike
  · intro alike
    unfold ofPath
    rw [alike]

/-- Nodes are equal when their paths are the same in any spelling. -/
theorem relatedFiles_eq_iff :
    relatedFiles paths = relatedFiles others ↔
      List.Forall₂ (fun l r => same l r = true) paths others := by
  unfold relatedFiles
  rw [← List.forall₂_eq_eq_eq, List.forall₂_map_left_iff, List.forall₂_map_right_iff]
  simp only [ofPath_eq_iff]

/-- **Nodes of files do not depend on how their paths are spelled**, whatever the characters and
wherever the separators stand:

* there is one node for each path, in order, which shows the normalized path and opens it, and is
  labelled with what is left of it behind the last slash;
* the file name of a path is the one segment that it ends in, and it makes no difference whether
  the path is normalized before that is taken, or afterwards, or not at all;
* two lists have equal nodes just if they are as long as each other and name the same files, each
  in its own spelling. -/
theorem nodes_of_any_spelling :
    (∀ paths, List.Forall₂ Shows paths (relatedFiles paths)) ∧
    (∀ path name, fileName path = name ↔ IsSegment name ∧ EndsIn name path) ∧
    (∀ path, fileName (normalize path) = fileName path ∧
      normalize (fileName path) = fileName path) ∧
    ∀ paths others, relatedFiles paths = relatedFiles others ↔
      List.Forall₂ (fun l r => same l r = true) paths others := by
  refine ⟨shows_relatedFiles, ?_, ?_, ?_⟩
  · intro path name
    exact fileName_eq_iff
  · intro path
    exact ⟨fileName_normalize path, normalize_fileName path⟩
  · intro paths others
    exact relatedFiles_eq_iff

/-- One file in two spellings, and a directory, which has an empty label. -/
example : relatedFiles ["C:\\app/é.js", "\\app\\"] = relatedFiles ["C:/app\\é.js", "/app/"] ∧
    (relatedFiles ["C:\\app/é.js", "\\app\\"]).map label = ["é.js", ""] := by decide +kernel

end EmberClient.ViewNode
