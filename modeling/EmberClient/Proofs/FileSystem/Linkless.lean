import EmberClient.FileSystem.Tree

/-!
# Paths where there are no links

A path is walked piece by piece, and a link on the way sends the walk elsewhere. In a tree
without links (`FileNode.isLinkless`) a path of plain names just goes down:

> `FileSystem.resolve_names`: it leads to what stands under its names, or nowhere.
-/

namespace EmberClient

open Text

theorem eq_ok_of_toOption {ε α : Type} {result : Except ε α} {a : α}
    (is : result.toOption = some a) : result = .ok a := by
  cases result with
  | ok b => exact congrArg Except.ok (Option.some.inj is)
  | error => contradiction

namespace FileNode

mutual

/-- There is no link in a tree. -/
def isLinkless : FileNode → Bool
  | .file _ => true
  | .directory entries => areLinkless entries
  | .link _ => false

def areLinkless : List (FileName × FileNode) → Bool
  | [] => true
  | (_, node) :: rest => isLinkless node && areLinkless rest

end

/-- What a linkless directory holds is linkless. -/
theorem isLinkless_of_mem {entries : List (FileName × FileNode)} (linkless : areLinkless entries)
    {e : FileName × FileNode} (member : e ∈ entries) : e.2.isLinkless := by
  induction entries with
  | nil => contradiction
  | cons first entries ih =>
    obtain ⟨here, others⟩ := Bool.and_eq_true_iff.mp linkless
    rcases List.mem_cons.mp member with rfl | later
    · exact here
    · exact ih others later

/-- So is the entry that is found by its name. -/
theorem isLinkless_of_entry {node child : FileNode} {name : Bytes} (linkless : node.isLinkless)
    (entry : node.entry? name = some child) : child.isLinkless := by
  cases node with
  | directory entries =>
    obtain ⟨e, found, rfl⟩ := Option.map_eq_some_iff.mp entry
    exact isLinkless_of_mem linkless (List.mem_of_find?_eq_some found)
  | file | link => contradiction

/-- Going down two ways in a row is going down one long way. -/
theorem descend?_append (node : FileNode) (first second : List Bytes) :
    node.descend? (first ++ second) = (node.descend? first).bind (descend? · second) := by
  induction first generalizing node with
  | nil => rfl
  | cons name first ih =>
    rw [List.cons_append, descend?, descend?, Option.bind_assoc]
    exact Option.bind_congr fun child _ => ih child

end FileNode

namespace FileSystem

/-- A piece of a path that is the name of an entry. -/
def IsName (piece : Bytes) : Prop :=
  piece ≠ [] ∧ piece ≠ Path.dot ∧ piece ≠ Path.dotDot ∧ piece.length ≤ maxName

instance (piece : Bytes) : Decidable (IsName piece) := inferInstanceAs (Decidable (_ ∧ _))

/-- Names are walked down from where the walk is. -/
theorem walk_names {root node : FileNode} (followLast : Bool) (links : Nat) {here names : List Bytes}
    (reached : root.descend? here.reverse = some node) (linkless : node.isLinkless)
    (plain : ∀ name ∈ names, IsName name) :
    (walk root followLast links here names).toOption = node.descend? names := by
  -- along the names: without links the walk only goes down, and takes nothing of what it has passed
  induction names generalizing here node with
  | nil =>
    rw [walk.eq_def, reached]
    rfl
  | cons name names ih =>
    obtain ⟨⟨nonempty, single, double, short⟩, others⟩ := List.forall_mem_cons.mp plain
    rw [walk.eq_def, reached]
    cases node with
    | file => rfl
    | link => contradiction
    | directory entries =>
      have goes : (name.isEmpty || decide (name = Path.dot)) = false := by simp [nonempty, single]
      simp only [goes, Bool.false_eq_true, if_false, double, Nat.not_lt.mpr short]
      rw [FileNode.descend?]
      cases entry : FileNode.entry? name (.directory entries) with
      | none => rfl
      | some child =>
        have below := FileNode.isLinkless_of_entry linkless entry
        have next : root.descend? (name :: here).reverse = some child := by
          rw [List.reverse_cons, FileNode.descend?_append, reached, Option.bind_some,
            FileNode.descend?, entry]
          rfl
        have down := ih next below others
        cases child with
        | link => contradiction
        | file | directory => exact down

/-- The path leads from the root through these names, and there is no link in the tree. -/
structure Plain (s : FileSystem) (path : Bytes) (names : List Bytes) : Prop where
  linkless : s.root.isLinkless
  proper : 0 ∉ path ∧ path ≠ []
  pieces : Path.pieces (Path.join (utf8 s.directory) path) = [] :: names
  nonempty : names ≠ []
  plain : ∀ piece ∈ names, IsName piece

instance (s : FileSystem) (path : Bytes) (names : List Bytes) : Decidable (s.Plain path names) :=
  decidable_of_iff
    (s.root.isLinkless ∧ (0 ∉ path ∧ path ≠ []) ∧
      Path.pieces (Path.join (utf8 s.directory) path) = [] :: names ∧ names ≠ [] ∧
      ∀ piece ∈ names, IsName piece)
    ⟨fun ⟨linkless, proper, pieces, nonempty, plain⟩ => ⟨linkless, proper, pieces, nonempty, plain⟩,
      fun p => ⟨p.linkless, p.proper, p.pieces, p.nonempty, p.plain⟩⟩

section Plain

variable {s : FileSystem} {path : Bytes} {names : List Bytes} (plain : s.Plain path names)
  (followLast : Bool)

include plain

/-- **In a tree without links a path leads to what stands under its names.** -/
theorem resolve_names : (s.resolve followLast path).toOption = s.root.descend? names := by
  obtain ⟨linkless, proper, pieces, nonempty, plain⟩ := plain
  rw [resolve, if_neg (by simpa using proper.1), if_neg (by simpa using proper.2), pieces]
  have start : s.root.descend? ([] : List Bytes).reverse = some s.root := rfl
  rw [walk.eq_def, start]
  cases root : s.root with
  | directory entries =>
    rw [root] at start linkless
    exact walk_names followLast maxLinks start linkless plain
  | file =>
    obtain ⟨name, names, rfl⟩ := List.exists_cons_of_ne_nil nonempty
    rfl
  | link =>
    rw [root] at linkless
    contradiction

/-- Without links a path resolves to what stands at its names. -/
theorem resolve_of_descend {node : FileNode} (stands : s.root.descend? names = some node) :
    s.resolve followLast path = .ok node :=
  eq_ok_of_toOption ((resolve_names plain followLast).trans stands)

/-- Where nothing stands there is no file. -/
theorem isFile_of_nothing (nothing : s.root.descend? names = none) : s.isFile path = false := by
  have leads := (resolve_names plain true).trans nothing
  rw [isFile]
  cases there : s.resolve true path with
  | ok other =>
    rw [there] at leads
    contradiction
  | error => rfl

end Plain

end FileSystem

end EmberClient
