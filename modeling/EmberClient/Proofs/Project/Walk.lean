import EmberClient.Project.Probe
import EmberClient.Proofs.Pattern.Names

/-!
# Where a walk comes to

The search walks a tree of entries with the path so far in its hand and turns away
before some directories. What it finds is said here without the walk. `Holds` is the way
down from a directory through entries: links are ends of ways like files are, and the
directory where the way begins has no name on it. `Reaches` says of the names on such a
way alone whether the walk goes to their end, so that what is found depends on nothing
but the ways to files:

> `mem_filesIn_iff`: a path is found exactly when it is the path of a way down to a
> regular file that the walk goes to its end.
-/

namespace EmberClient

open Text

namespace FileNode

/-- From the first node the names lead down to the last one. -/
inductive Holds : FileNode → List FileName → FileNode → Prop
  | here {node : FileNode} : Holds node [] node
  | down {entries : List (FileName × FileNode)} {name : FileName} {child last : FileNode}
      {names : List FileName} (entry : (name, child) ∈ entries) (rest : Holds child names last) :
      Holds (.directory entries) (name :: names) last

/-- A way into a directory begins with one of its entries. -/
theorem Holds.exists_cons {entries : List (FileName × FileNode)} {names : List FileName}
    {content : Bytes} (way : (directory entries).Holds names (.file content)) :
    ∃ name child rest, names = name :: rest ∧ (name, child) ∈ entries ∧
      child.Holds rest (.file content) := by
  cases way with
  | down entry rest => exact ⟨_, _, _, rfl, entry, rest⟩

theorem Holds.ne_nil {entries : List (FileName × FileNode)} {names : List FileName}
    {content : Bytes} (way : (directory entries).Holds names (.file content)) : names ≠ [] := by
  obtain ⟨name, child, rest, rfl, -, -⟩ := way.exists_cons
  exact List.cons_ne_nil name rest

end FileNode

namespace Probe

open FileNode

variable {rule : Option SearchRule} {excluded : List String} {path : Bytes}

/-- The path of an entry has one name more than the path of its directory. -/
theorem entryPath_path (before : List FileName) (name : FileName) :
    entryPath (FileName.path before) name = FileName.path (before ++ [name]) := by
  cases before with
  | nil => simp [entryPath, FileName.path, Path.ofNames]
  | cons first before =>
    have long : (first :: before).map (·.bytes) ≠ [] := by simp
    have more : FileName.path (first :: before) ≠ [] := by
      cases before with
      | nil => simpa [FileName.path, Path.ofNames] using first.nonempty
      | cons next before => simp [FileName.path, Path.ofNames_cons_cons]
    rw [entryPath, if_neg (by simpa using more), FileName.path, FileName.path, List.map_append,
      List.map_singleton, Path.ofNames_append_singleton long, List.append_assoc,
      List.singleton_append]

/-- A walk that has come to the end of the names `before` goes on to the file at the end
of these names: it enters every directory on the way and does not leave the file out. -/
def Reaches (rule : Option SearchRule) (excluded : List String) :
    List FileName → List FileName → Prop
  | before, [] => verdict rule (FileName.path before) false ≠ .leftOut
  | before, name :: rest =>
    (rest ≠ [] → isExcluded excluded name = false ∧
      verdict rule (FileName.path (before ++ [name])) true ≠ .leftOut) ∧
      Reaches rule excluded (before ++ [name]) rest

-- Both recursions follow the tree, as the walk does: a directory hands its entries
-- over, an entry the node behind its name.
mutual

/-- Found in a directory are the files that a way reaches. -/
theorem mem_filesIn_iff (before : List FileName) : ∀ entries : List (FileName × FileNode),
    path ∈ filesIn rule excluded (FileName.path before) entries ↔
      ∃ names content, (directory entries).Holds names (.file content) ∧
        Reaches rule excluded before names ∧ path = FileName.path (before ++ names)
  | [] => by
    refine iff_of_false (by simp [filesIn]) ?_
    rintro ⟨names, content, way, -⟩
    obtain ⟨_, _, _, _, entry, _⟩ := way.exists_cons
    exact absurd entry List.not_mem_nil
  | (name, node) :: rest => by
    rw [filesIn, entryPath_path, List.mem_append, mem_filesAt_iff before name node,
      mem_filesIn_iff before rest]
    constructor
    · rintro (⟨names, content, way, reaches, rfl⟩ | ⟨names, content, way, reaches, rfl⟩)
      · exact ⟨name :: names, content, .down (by simp) way, reaches, rfl⟩
      · obtain ⟨first, child, names, rfl, entry, below⟩ := way.exists_cons
        exact ⟨_, content, .down (List.mem_cons_of_mem _ entry) below, reaches, rfl⟩
    · rintro ⟨names, content, way, reaches, rfl⟩
      obtain ⟨first, child, names, rfl, entry, below⟩ := way.exists_cons
      rcases List.mem_cons.1 entry with same | entry
      · obtain ⟨rfl, rfl⟩ := Prod.mk.inj same
        exact .inl ⟨names, content, below, reaches, rfl⟩
      · exact .inr ⟨_, content, .down entry below, reaches, rfl⟩

theorem mem_filesAt_iff (before : List FileName) (name : FileName) : ∀ node : FileNode,
    path ∈ filesAt rule excluded (FileName.path (before ++ [name])) name node ↔
      ∃ names content, node.Holds names (.file content) ∧
        Reaches rule excluded before (name :: names) ∧
          path = FileName.path (before ++ name :: names)
  | .file content => by
    simp only [filesAt]
    constructor
    · intro here
      split at here
      · simp at here
      next wanted =>
        obtain rfl := List.mem_singleton.1 here
        exact ⟨[], content, .here, ⟨by simp, wanted⟩, rfl⟩
    · rintro ⟨names, content, ⟨⟩, ⟨-, wanted⟩, rfl⟩
      rw [if_neg wanted]
      exact List.mem_singleton.2 rfl
  | .link target => by
    refine iff_of_false (by simp [filesAt]) ?_
    rintro ⟨names, content, ⟨⟩, -⟩
  | .directory entries => by
    have inside := mem_filesIn_iff (before ++ [name]) entries
    simp only [List.append_assoc, List.singleton_append] at inside
    -- a directory that is turned away hides all that is below it
    by_cases turned : isExcluded excluded name ∨
        verdict rule (FileName.path (before ++ [name])) true = .leftOut
    · refine iff_of_false (by simp [filesAt, turned]) ?_
      rintro ⟨names, content, way, ⟨enters, -⟩, -⟩
      obtain ⟨free, allowed⟩ := enters way.ne_nil
      rcases turned with excludes | left
      · exact absurd free (by simp [excludes])
      · exact allowed left
    · obtain ⟨free, allowed⟩ := not_or.1 turned
      rw [filesAt, if_neg (by simpa using turned), inside]
      refine exists_congr fun names => exists_congr fun content => and_congr_right fun way => ?_
      rw [Reaches]
      exact and_congr_left fun _ =>
        ⟨fun goes => ⟨fun _ => ⟨by simpa using free, allowed⟩, goes⟩, fun goes => goes.2⟩

end

end Probe

end EmberClient
