import EmberClient.Proofs.Project.Detection
import Mathlib.Data.List.Nodup

/-!
# What a limit and an excluded name take from a search

Which files a search finds depends on the ways down to files and on nothing else, so the
order in which directories list their entries decides only which of them come first. A
limit takes a beginning of that order, hence as many files as there are up to the limit,
and never tells a search that finds something from one that finds nothing. One more
excluded name takes the files away that are below a directory of this name, and leaves
all others.

> `bounded_search`: all this for every pattern that can be read and every tree in which
> no directory lists a name twice, while the entries may be listed in another order each
> time the tree is walked.
-/

namespace EmberClient

open Text

namespace FileName

/-- A path splits into the names that it was made of. -/
theorem splitOn_path {names : List FileName} (more : names ≠ []) :
    (path names).splitOn Path.slash = names.map (·.bytes) :=
  Path.splitOn_ofNames (fun _ => slashless_of_mem) (by simpa using more)

theorem bytes_injective : Function.Injective FileName.bytes := by
  rintro ⟨bytes, _, _⟩ ⟨others, _, _⟩ rfl
  rfl

/-- Names can be read off their path again. -/
theorem path_inj {names others : List FileName} (more : names ≠ []) (more' : others ≠ []) :
    path names = path others ↔ names = others := by
  refine ⟨fun same => List.map_injective_iff.2 bytes_injective ?_, fun same => by rw [same]⟩
  have split := congrArg (List.splitOn Path.slash) same
  rwa [splitOn_path more, splitOn_path more'] at split

end FileName

/-! ## Trees -/

namespace FileNode

/-- No directory lists a name twice. -/
def Distinct (node : FileNode) : Prop :=
  ∀ names entries, node.Holds names (.directory entries) → (entries.map (·.1)).Nodup

/-- The same files at the ends of the same ways, in whatever order directories list their
entries. -/
structure SameFiles (node other : FileNode) : Prop where
  type : other.type = node.type
  ways : ∀ names content, node.Holds names (.file content) ↔ other.Holds names (.file content)

variable {entries others : List (FileName × FileNode)} {name : FileName} {child : FileNode}

/-- What a tree with distinct names holds has distinct names, too. -/
theorem Distinct.below (distinct : (directory entries).Distinct) (entry : (name, child) ∈ entries) :
    child.Distinct :=
  fun names _ way => distinct (name :: names) _ (.down entry way)

theorem Distinct.tail {entry : FileName × FileNode}
    (distinct : (directory (entry :: entries)).Distinct) : (directory entries).Distinct := by
  intro names inner way
  cases way with
  | here => exact (List.nodup_cons.1 (distinct [] _ .here)).2
  | down entry way => exact distinct _ _ (.down (List.mem_cons_of_mem _ entry) way)

/-- The names in a directory are distinct at each level. -/
theorem distinct_directory : (directory entries).Distinct ↔
    (entries.map (·.1)).Nodup ∧ ∀ name child, (name, child) ∈ entries → child.Distinct := by
  refine ⟨fun distinct => ⟨distinct [] _ .here, fun _ _ => distinct.below⟩, ?_⟩
  rintro ⟨nodup, inside⟩ names inner way
  cases way with
  | here => exact nodup
  | down entry way => exact inside _ _ entry _ _ way

theorem distinct_file (content : Bytes) : (file content).Distinct := by
  rintro names inner ⟨⟩

/-- A directory may list the same entries in another order. -/
theorem sameFiles_of_perm (perm : entries.Perm others) :
    (directory entries).SameFiles (directory others) := by
  refine ⟨rfl, fun names content => ⟨fun way => ?_, fun way => ?_⟩⟩
  · obtain ⟨name, child, rest, rfl, entry, below⟩ := way.exists_cons
    exact .down (perm.mem_iff.1 entry) below
  · obtain ⟨name, child, rest, rfl, entry, below⟩ := way.exists_cons
    exact .down (perm.mem_iff.2 entry) below

end FileNode

/-! ## What is found -/

namespace Probe

open FileNode

variable {rule : Option SearchRule} {excluded : List String} {path : Bytes}
  {tree other : FileNode}

-- Entries with different names have different paths below them, and so do the files of
-- one directory and of another.
mutual

/-- With distinct names no path is found twice in a directory. -/
theorem nodup_filesIn (before : List FileName) : ∀ entries : List (FileName × FileNode),
    (directory entries).Distinct → (filesIn rule excluded (FileName.path before) entries).Nodup
  | [], _ => by simp [filesIn]
  | (name, node) :: rest, distinct => by
    rw [filesIn, entryPath_path]
    refine List.nodup_append.2 ⟨nodup_filesAt before name node (distinct.below (List.mem_cons_self ..)),
      nodup_filesIn before rest distinct.tail, fun path first other second twice => ?_⟩
    rw [← twice] at second
    obtain ⟨names, content, -, -, rfl⟩ := (mem_filesAt_iff before name node).1 first
    obtain ⟨others, content', way, -, same⟩ := (mem_filesIn_iff before rest).1 second
    rw [FileName.path_inj (by simp) (by simp [way.ne_nil]), List.append_cancel_left_eq] at same
    obtain ⟨twin, child, more, rfl, entry, -⟩ := way.exists_cons
    obtain ⟨rfl, -⟩ := List.cons.inj same
    exact (List.nodup_cons.1 (distinct [] _ .here)).1 (List.mem_map.2 ⟨_, entry, rfl⟩)

theorem nodup_filesAt (before : List FileName) (name : FileName) : ∀ node : FileNode,
    node.Distinct →
      (filesAt rule excluded (FileName.path (before ++ [name])) name node).Nodup
  | .file content, _ => by
    rw [filesAt]
    split
    · exact List.nodup_nil
    · exact List.nodup_singleton _
  | .link target, _ => by simp [filesAt]
  | .directory entries, distinct => by
    rw [filesAt]
    split
    · exact List.nodup_nil
    · exact nodup_filesIn (before ++ [name]) entries distinct

end

/-- With distinct names no path is found twice below a root. -/
theorem nodup_filesBelow (distinct : tree.Distinct) :
    (filesBelow rule excluded tree).Nodup := by
  cases tree with
  | directory entries => exact nodup_filesIn [] entries distinct
  | file content => exact List.nodup_singleton _
  | link target => exact List.nodup_singleton _

/-- What is found depends on the ways to files alone. -/
theorem mem_filesBelow_same (same : tree.SameFiles other) :
    path ∈ filesBelow rule excluded tree ↔ path ∈ filesBelow rule excluded other := by
  have type := same.type
  cases tree with
  | directory entries =>
    cases other with
    | directory others =>
      have found (entries : List (FileName × FileNode)) :
          path ∈ filesIn rule excluded (FileName.path []) entries ↔ _ := mem_filesIn_iff [] entries
      simp only [filesBelow, show ([] : Bytes) = FileName.path [] from rfl, found, same.ways]
    | file | link => contradiction
  | file content =>
    cases other with
    | file => rfl
    | directory | link => contradiction
  | link target =>
    cases other with
    | link => rfl
    | directory | file => contradiction

/-- The order of the entries does not matter for what is found. -/
theorem filesBelow_perm (distinct : tree.Distinct) (distinct' : other.Distinct)
    (same : tree.SameFiles other) :
    (filesBelow rule excluded tree).Perm (filesBelow rule excluded other) :=
  (List.perm_ext_iff_of_nodup (nodup_filesBelow distinct) (nodup_filesBelow distinct')).2
    fun _ => mem_filesBelow_same same

/-! ## One more excluded name -/

/-- No directory on the path has this name. The last piece is the file's own name. -/
def Avoids (name : String) (path : Bytes) : Prop :=
  utf8 name ∉ (path.splitOn Path.slash).dropLast

instance (name : String) (path : Bytes) : Decidable (Avoids name path) :=
  inferInstanceAs (Decidable (utf8 name ∉ (path.splitOn Path.slash).dropLast))

/-- A path avoids a name when no directory on it has that name. -/
theorem avoids_path {name : String} {names : List FileName} (more : names ≠ []) :
    Avoids name (FileName.path names) ↔ utf8 name ∉ names.dropLast.map (·.bytes) := by
  rw [Avoids, FileName.splitOn_path more, List.map_dropLast]

theorem isExcluded_cons (gone : String) (name : FileName) :
    isExcluded (gone :: excluded) name =
      (decide (utf8 gone = name.bytes) || isExcluded excluded name) := rfl

-- Above the entries there must be no directory of the name yet, for the walk does not
-- turn back before one that it is in.
mutual

/-- One more exclusion takes away what is found under that name. -/
theorem filesIn_cons_excluded {gone : String} (before : List FileName)
    (outside : utf8 gone ∉ before.map (·.bytes)) : ∀ entries : List (FileName × FileNode),
    filesIn rule (gone :: excluded) (FileName.path before) entries =
      (filesIn rule excluded (FileName.path before) entries).filter fun path => Avoids gone path
  | [] => by simp [filesIn]
  | (name, node) :: rest => by
    rw [filesIn, filesIn, entryPath_path, List.filter_append,
      filesAt_cons_excluded before outside name node, filesIn_cons_excluded before outside rest]

theorem filesAt_cons_excluded {gone : String} (before : List FileName)
    (outside : utf8 gone ∉ before.map (·.bytes)) (name : FileName) : ∀ node : FileNode,
    filesAt rule (gone :: excluded) (FileName.path (before ++ [name])) name node =
      (filesAt rule excluded (FileName.path (before ++ [name])) name node).filter
        fun path => Avoids gone path
  | .file content => by
    have kept : Avoids gone (FileName.path (before ++ [name])) := by
      rw [avoids_path (by simp), List.dropLast_concat]
      exact outside
    rw [filesAt, filesAt]
    split
    · rfl
    · simp [kept]
  | .link target => by simp [filesAt]
  | .directory entries => by
    rw [filesAt, filesAt, isExcluded_cons]
    by_cases its : utf8 gone = name.bytes
    · -- all that is below has the name on its path
      rw [if_pos (by simp [its])]
      refine (List.filter_eq_nil_iff.2 fun path found => ?_).symm
      split at found
      · exact absurd found List.not_mem_nil
      obtain ⟨names, content, way, -, rfl⟩ := (mem_filesIn_iff _ entries).1 found
      rw [decide_eq_true_eq, avoids_path (by simp), List.append_assoc,
        List.dropLast_append_of_ne_nil (by simp), List.singleton_append,
        List.dropLast_cons_of_ne_nil way.ne_nil]
      simp [its]
    · rw [decide_eq_false its, Bool.false_or]
      split
      · rfl
      · exact filesIn_cons_excluded (before ++ [name]) (by simp_all) entries

end

/-- One more exclusion takes away, below a root, what lies under that name. -/
theorem filesBelow_cons_excluded (gone : String) :
    filesBelow rule (gone :: excluded) tree =
      (filesBelow rule excluded tree).filter fun path => Avoids gone path := by
  have root : Avoids gone [] := by simp [Avoids]
  cases tree with
  | directory entries => exact filesIn_cons_excluded [] List.not_mem_nil entries
  | file content => simp [filesBelow, root]
  | link target => simp [filesBelow, root]

/-! ## Searches -/

variable {p : Probe} {system moved : FileSystem} {root : Bytes}

/-- A full search of a directory gives all the files below it. -/
theorem all_eq (valid : p.rule? = .ok rule) (here : system.resolve true root = .ok tree) :
    p.all system root = .ok (filesBelow rule p.excluded tree) := by
  simp only [all, valid, here, bind, Except.bind, pure, Except.pure]

/-- Neither a limit nor the order of entries makes a search find something or nothing. -/
theorem matchesAny_same (limit : Nat) (here : system.resolve true root = .ok tree)
    (there : moved.resolve true root = .ok other) (distinct : tree.Distinct)
    (distinct' : other.Distinct) (same : tree.SameFiles other) :
    { p with limit }.matchesAny moved root = p.matchesAny system root := by
  cases valid : p.rule? with
  | error fault =>
    have invalid : { p with limit }.rule? = .error fault := valid
    simp only [matchesAny, find, valid, invalid, bind, Except.bind]
  | ok rule =>
    have perm : (filesBelow rule p.excluded tree).Perm (filesBelow rule p.excluded other) :=
      filesBelow_perm distinct distinct' same
    rw [matchesAny_of_all (all_eq valid here),
      matchesAny_of_all (p := { p with limit }) (all_eq valid there), perm.isEmpty_eq]

end Probe

namespace ProjectKind

/-- Looks for a kind with other limits. -/
def detectWithin (limit : ProjectKind → Nat) (system : FileSystem) (root : Bytes) :
    Except ProbeFault (Option ProjectKind) := do
  if ← { emberCli.probe with limit := limit emberCli }.matchesAny system root then
    return some .emberCli
  else if ← { glimmerX.probe with limit := limit glimmerX }.matchesAny system root then
    return some .glimmerX
  else return none

/-- The limits that are in use. -/
theorem detectWithin_limit : detectWithin (·.probe.limit) = detect := rfl

end ProjectKind

namespace Probe

open FileNode ProjectKind

/-- **A bounded search finds as much as there is, up to its limit.** -/
theorem bounded_search {p : Probe} {rule : Option SearchRule} {system moved : FileSystem}
    {root : Bytes} {tree other : FileNode} (valid : p.rule? = .ok rule)
    (here : system.resolve true root = .ok tree) (there : moved.resolve true root = .ok other)
    (distinct : tree.Distinct) (distinct' : other.Distinct) (same : tree.SameFiles other) :
    ∃ files, p.all system root = .ok files ∧ files.Nodup ∧
      (∀ limit, 1 ≤ limit → ∃ found, { p with limit }.find moved root = .ok found ∧
        found.length = min limit files.length ∧ found.Nodup ∧ found ⊆ files ∧
        { p with limit }.matchesAny moved root = .ok !files.isEmpty) ∧
      (∀ limit, detectWithin limit moved root = detect system root) ∧
      ∀ name : String, { p with excluded := name :: p.excluded }.all system root =
        .ok (files.filter fun path => Avoids name path) := by
  -- another order of the entries finds the same files in another order
  have perm : (filesBelow rule p.excluded tree).Perm (filesBelow rule p.excluded other) :=
    filesBelow_perm distinct distinct' same
  refine ⟨_, all_eq valid here, nodup_filesBelow distinct, fun limit positive => ?_,
    fun limit => ?_, fun name => ?_⟩
  · have all : { p with limit }.all moved root = .ok (filesBelow rule p.excluded other) :=
      all_eq valid there
    have enough : max limit 1 = limit := by omega
    have found : { p with limit }.find moved root =
        .ok ((filesBelow rule p.excluded other).take limit) := by
      rw [find_eq_take, all, Except.map, enough]
    refine ⟨_, found, ?_, (nodup_filesBelow distinct').sublist (List.take_sublist _ _), ?_, ?_⟩
    · rw [List.length_take, perm.length_eq]
    · exact List.Subset.trans (List.take_subset _ _) perm.symm.subset
    · rw [matchesAny_of_all all, perm.isEmpty_eq]
  · simp only [detectWithin, detect, matchesAny_same _ here there distinct distinct' same]
  · rw [all_eq (p := { p with excluded := name :: p.excluded }) valid here,
      filesBelow_cons_excluded]

/-- The name of an entry that is this text. -/
def named (text : String) (proper : utf8 text ≠ [] ∧ Path.slash ∉ utf8 text) : FileName :=
  ⟨utf8 text, proper.1, proper.2⟩

/-- Build files in two directories, and one among build output. -/
def threeBuilds : List (FileName × FileNode) :=
  [(named "a" (by decide), named "ember-cli-build.js" (by decide)),
    (named "b" (by decide), named "ember-cli-build.cjs" (by decide)),
    (named "dist" (by decide), named "ember-cli-build.js" (by decide))].map
    fun build => (build.1, .directory [(build.2, .file [])])

theorem resolve_root (entries : List (FileName × FileNode)) :
    ({ root := .directory entries } : FileSystem).resolve true (utf8 "/") =
      .ok (.directory entries) := by
  have pieces : Path.pieces (Path.join (utf8 "/") (utf8 "/")) = [[], []] := by decide
  simp [FileSystem.resolve, FileSystem.walk, FileNode.descend?, pieces,
    show (0 : UInt8) ∉ utf8 "/" by decide, show utf8 "/" ≠ [] by decide]

theorem distinct_threeBuilds : (directory threeBuilds).Distinct := by
  refine distinct_directory.2 ⟨by decide, fun name child entry => ?_⟩
  obtain ⟨⟨_, build⟩, -, same⟩ := List.mem_map.1 entry
  obtain ⟨-, rfl⟩ := Prod.mk.inj same
  refine distinct_directory.2 ⟨List.nodup_singleton _, fun _ child entry => ?_⟩
  obtain ⟨-, rfl⟩ := Prod.mk.inj (List.mem_singleton.1 entry)
  exact distinct_file []

/-- `bounded_search` there, with the entries in the reverse order for the search that is
bounded: one file within a limit of one, two within a limit of five, and one without the
directory `a`. -/
theorem bounded_search_reversed :
    ∃ files, ProjectKind.emberCli.probe.all { root := .directory threeBuilds } (utf8 "/") = .ok files ∧
      files.length = 2 ∧
      (∃ found, { ProjectKind.emberCli.probe with limit := 1 }.find
        { root := .directory threeBuilds.reverse } (utf8 "/") = .ok found ∧
        found.length = 1 ∧ found ⊆ files) ∧
      (∃ found, { ProjectKind.emberCli.probe with limit := 5 }.find
        { root := .directory threeBuilds.reverse } (utf8 "/") = .ok found ∧
        found.length = 2 ∧ found.Nodup) ∧
      { ProjectKind.emberCli.probe with
        excluded := "a" :: ProjectKind.emberCli.probe.excluded }.all
          { root := .directory threeBuilds } (utf8 "/") = .ok [utf8 "b/ember-cli-build.cjs"] := by
  have perm := threeBuilds.reverse_perm.symm
  have distinct' : (directory threeBuilds.reverse).Distinct :=
    distinct_directory.2 ⟨(perm.map _).nodup_iff.1 (distinct_directory.1 distinct_threeBuilds).1,
      fun name child entry => distinct_threeBuilds.below (perm.mem_iff.2 entry)⟩
  obtain ⟨files, all, -, bounded, -, excluded⟩ := bounded_search (p := ProjectKind.emberCli.probe)
    rfl (resolve_root threeBuilds) (resolve_root threeBuilds.reverse) distinct_threeBuilds distinct'
    (sameFiles_of_perm perm)
  -- one tree is searched in full; all the rest follows from what is found there
  have these : files = [utf8 "a/ember-cli-build.js", utf8 "b/ember-cli-build.cjs"] := by
    rw [all_eq rfl (resolve_root threeBuilds)] at all
    exact (Except.ok.inj all).symm.trans (by decide +kernel)
  obtain ⟨one, findsOne, length_one, -, among, -⟩ := bounded 1 (by decide)
  obtain ⟨two, findsTwo, length_two, apart, -⟩ := bounded 5 (by decide)
  refine ⟨files, all, by rw [these]; rfl, ⟨one, findsOne, ?_, among⟩, ⟨two, findsTwo, ?_, apart⟩, ?_⟩
  · rw [length_one, these]; rfl
  · rw [length_two, these]; rfl
  · rw [excluded "a", these]
    exact congrArg Except.ok (by decide +kernel)

end Probe

end EmberClient
