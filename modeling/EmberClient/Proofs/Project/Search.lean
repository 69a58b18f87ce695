import EmberClient.Project.Probe

/-!
# A search that stops is the beginning of one that does not

`Probe.find` asks after every file whether it has enough, anywhere in the tree, while
`Probe.all` lists the files and knows no limit. Stopping commutes with the walk: to
search the entries of a tree up to a limit is to go through the list of their files up
to the limit (`searchIn_eq_gather`), and what that takes of a list is its beginning.

> `find_eq_take`: a search with a limit fails where one without fails, and else finds
> the first files of it.
-/

namespace EmberClient.Probe

open Text

variable {rule : Option SearchRule} {excluded : List String} {limit : Nat}

/-! ## Going through a list -/

/-- Goes through files that are all wanted. -/
def Hunt.gather (limit : Nat) (found : List Bytes) : List Bytes → Hunt
  | [] => .going found
  | path :: rest => (Hunt.take limit found path).andThen fun found => gather limit found rest

/-- Gathering from two lists is gathering from one and going on with the other. -/
theorem Hunt.gather_append (found first second : List Bytes) :
    gather limit found (first ++ second) =
      (gather limit found first).andThen fun found => gather limit found second := by
  induction first generalizing found with
  | nil => rfl
  | cons path first ih =>
    simp only [List.cons_append, gather]
    cases Hunt.take limit found path with
    | going found => exact ih found
    | enough found => rfl

theorem Hunt.gather_singleton (found : List Bytes) (path : Bytes) :
    gather limit found [path] = .take limit found path := by
  simp only [gather]
  cases Hunt.take limit found path with
  | going found => rfl
  | enough found => rfl

/-- What is taken of a list is its beginning, if there is room for one more file. -/
theorem Hunt.found_gather {found : List Bytes} (room : found.length < max limit 1)
    (files : List Bytes) :
    (gather limit found files).found = (found ++ files).take (max limit 1) := by
  induction files generalizing found with
  | nil => rw [List.append_nil, List.take_of_length_le (by omega), gather, Hunt.found]
  | cons path files ih =>
    have longer : (found ++ [path]).length = found.length + 1 := by simp
    have regroup : found ++ path :: files = (found ++ [path]) ++ files := by simp
    simp only [gather, Hunt.take, regroup]
    -- the search stops as soon as the limit is reached
    by_cases enough : limit ≤ (found ++ [path]).length
    · have full : max limit 1 = (found ++ [path]).length := by omega
      rw [if_pos enough, enough_andThen, full, List.take_left, Hunt.found]
    · rw [if_neg enough, going_andThen]
      exact ih (by omega)

/-! ## Searching a tree -/

-- Both recursions follow the tree, as the search does: a directory hands its entries
-- over, an entry the node behind its name.
mutual

/-- To search entries is to go through the list of their files. -/
theorem searchIn_eq_gather (base : Bytes) (found : List Bytes) :
    ∀ entries : List (FileName × FileNode), searchIn rule excluded limit base found entries =
      .gather limit found (filesIn rule excluded base entries)
  | [] => by rw [searchIn, filesIn, Hunt.gather]
  | (name, node) :: rest => by
    rw [searchIn, filesIn, Hunt.gather_append, searchAt_eq_gather]
    cases Hunt.gather limit found (filesAt rule excluded (entryPath base name) name node) with
    | going found => exact searchIn_eq_gather base found rest
    | enough found => rfl

/-- The search of an entry gathers its files and stops when it has enough. -/
theorem searchAt_eq_gather (path : Bytes) (name : FileName) (found : List Bytes) :
    ∀ node : FileNode, searchAt rule excluded limit path name found node =
      .gather limit found (filesAt rule excluded path name node)
  | .file content => by
    rw [searchAt, filesAt]
    split
    · rfl
    · exact (Hunt.gather_singleton found path).symm
  | .link target => by rw [searchAt, filesAt, Hunt.gather]
  | .directory entries => by
    rw [searchAt, filesAt]
    split
    · rfl
    · exact searchIn_eq_gather path found entries

end

theorem searchBelow_eq_gather (node : FileNode) :
    searchBelow rule excluded limit node = .gather limit [] (filesBelow rule excluded node) := by
  cases node with
  | directory entries => exact searchIn_eq_gather [] [] entries
  | file content => exact (Hunt.gather_singleton [] []).symm
  | link target => exact (Hunt.gather_singleton [] []).symm

/-- **A search with a limit is the beginning of the search without.** -/
theorem find_eq_take (p : Probe) (system : FileSystem) (root : Bytes) :
    p.find system root = (p.all system root).map (·.take (max p.limit 1)) := by
  have few : ([] : List Bytes).length < max p.limit 1 := by simp only [List.length_nil]; omega
  unfold find all
  cases p.rule? with
  | error fault => rfl
  | ok rule =>
    cases here : system.resolve true root with
    | error kind => rfl
    | ok node =>
      simp only [searchBelow_eq_gather, Hunt.found_gather few, List.nil_append, bind,
        Except.bind, pure, Except.pure, Except.map]

end EmberClient.Probe
