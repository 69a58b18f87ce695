import EmberClient.Project.Kind
import EmberClient.Proofs.Project.Search
import EmberClient.Proofs.Project.Walk

/-!
# Which directories are projects

The two searches for a kind of project say what is wanted, and leave no directory out
but those with an excluded name. So a search finds something exactly when some way down
to a regular file ends in the names that its pattern spells and no directory on it has
an excluded name:

> `detect_exact`: the kind of a project is read off such ways, the build file before
> the light package, and nothing else decides it.
-/

namespace EmberClient

open Text

namespace FileNode

/-- No directory on the way to the end of these names has an excluded name. -/
def Clear (excluded : List String) (names : List FileName) : Prop :=
  ∀ name ∈ names.dropLast, name.bytes ∉ excluded.map utf8

instance (excluded : List String) (names : List FileName) : Decidable (Clear excluded names) :=
  inferInstanceAs (Decidable (∀ name ∈ names.dropLast, name.bytes ∉ excluded.map utf8))

/-- A regular file is somewhere below, on a way that ends in one of the lists of
names and leads through no directory with an excluded name. -/
def HasFile (node : FileNode) (endings : List (List String)) (excluded : List String) : Prop :=
  ∃ names content, node.Holds names (.file content) ∧
    (∃ ending ∈ endings, FileName.EndIn ending names) ∧ Clear excluded names

/-- A way is clear when each of its directories is. -/
theorem clear_cons {excluded : List String} {name : FileName} {names : List FileName}
    (more : names ≠ []) :
    Clear excluded (name :: names) ↔ name.bytes ∉ excluded.map utf8 ∧ Clear excluded names := by
  simp only [Clear, List.dropLast_cons_of_ne_nil more, List.forall_mem_cons]

end FileNode

/-! ## What the walk finds -/

namespace Probe

open FileNode

variable {excluded : List String} {path : Bytes} {tokens : List Glob.Token}

/-- A rule that says what is wanted, files and directories alike. -/
def wants (tokens : List Glob.Token) : Option SearchRule :=
  some { tokens, excludes := false, onlyDirectories := false }

/-- A file is left out when the pattern does not match it. -/
theorem verdict_file :
    verdict (wants tokens) path false = .leftOut ↔ ¬ Glob.isMatch tokens path := by
  cases h : Glob.isMatch tokens path <;> simp [wants, verdict, SearchRule.verdict, h]

/-- A directory is never left out by the pattern. -/
theorem verdict_directory : verdict (wants tokens) path true ≠ .leftOut := by
  cases h : Glob.isMatch tokens path <;> simp [wants, verdict, SearchRule.verdict, h]

/-- Such a walk goes to the end of every way that is clear and leads to a wanted file. -/
theorem reaches_wants {before names : List FileName} (more : names ≠ []) :
    Reaches (wants tokens) excluded before names ↔
      Glob.isMatch tokens (FileName.path (before ++ names)) ∧ Clear excluded names := by
  have enters (name : FileName) : isExcluded excluded name = false ↔
      name.bytes ∉ excluded.map utf8 := by simp [isExcluded, Bool.eq_false_iff]
  -- along the names: the last is the file's, all before it are directories that must not be
  -- excluded
  induction names generalizing before with
  | nil => contradiction
  | cons name rest ih =>
    cases rest with
    | nil => simp [Reaches, verdict_file, Clear]
    | cons next rest =>
      have longer : next :: rest ≠ [] := List.cons_ne_nil next rest
      have inner : Reaches (wants tokens) excluded (before ++ [name]) (next :: rest) ↔
          Glob.isMatch tokens (FileName.path (before ++ name :: next :: rest)) ∧
            Clear excluded (next :: rest) := by
        simpa using @ih (before ++ [name]) longer
      rw [Reaches, inner, clear_cons longer, enters]
      constructor
      · rintro ⟨free, wanted, clear⟩
        exact ⟨wanted, (free longer).1, clear⟩
      · rintro ⟨wanted, free, clear⟩
        exact ⟨fun _ => ⟨free, verdict_directory⟩, wanted, clear⟩

/-- What is found are the files that match, on ways that are clear. -/
theorem mem_filesIn (before : List FileName) (entries : List (FileName × FileNode)) :
    path ∈ filesIn (wants tokens) excluded (FileName.path before) entries ↔
      Glob.isMatch tokens path ∧ ∃ names content,
        (directory entries).Holds names (.file content) ∧ Clear excluded names ∧
          path = FileName.path (before ++ names) := by
  rw [mem_filesIn_iff]
  constructor
  · rintro ⟨names, content, way, reaches, rfl⟩
    obtain ⟨wanted, clear⟩ := (reaches_wants way.ne_nil).1 reaches
    exact ⟨wanted, names, content, way, clear, rfl⟩
  · rintro ⟨wanted, names, content, way, clear, rfl⟩
    exact ⟨names, content, way, (reaches_wants way.ne_nil).2 ⟨wanted, clear⟩, rfl⟩

/-- One file within the limit is enough, whatever the limit is. -/
theorem matchesAny_of_all {p : Probe} {system : FileSystem} {root : Bytes} {files : List Bytes}
    (found : p.all system root = .ok files) :
    p.matchesAny system root = .ok !files.isEmpty := by
  have limited : (files.take (max p.limit 1)).isEmpty = files.isEmpty := by
    cases files with
    | nil => simp
    | cons file files =>
      obtain ⟨more, enough⟩ : ∃ more, max p.limit 1 = more + 1 :=
        ⟨max p.limit 1 - 1, by omega⟩
      simp [enough]
  simp [matchesAny, find_eq_take, found, Except.map, bind, Except.bind, pure, Except.pure, limited]

/-- A search below a directory has a result. With a pattern that spells the last
names, the result says whether there is such a file outside the excluded directories. -/
theorem matchesAny_iff_hasFile {p : Probe} {system : FileSystem} {root : Bytes}
    {entries : List (FileName × FileNode)} {endings : List (List String)}
    (rule : p.rule? = .ok (wants (.leadingDirs :: tokens))) (spells : Glob.Spells tokens endings)
    (here : system.resolve true root = .ok (.directory entries)) :
    ∃ found, p.matchesAny system root = .ok found ∧
      (found = true ↔ (directory entries).HasFile endings p.excluded) := by
  have all : p.all system root =
      .ok (filesIn (wants (.leadingDirs :: tokens)) p.excluded (FileName.path []) entries) := by
    simp only [Probe.all, rule, here, bind, Except.bind, pure, Except.pure, filesBelow]
    rfl
  refine ⟨_, matchesAny_of_all all, ?_⟩
  rw [Bool.not_eq_true', ← Bool.not_eq_true, List.isEmpty_iff, ← ne_eq]
  constructor
  · intro nonempty
    obtain ⟨path, found⟩ := List.exists_mem_of_ne_nil _ nonempty
    obtain ⟨wanted, names, content, way, clear, rfl⟩ := (mem_filesIn [] entries).1 found
    exact ⟨names, content, way, (Glob.isMatch_iff_endIn spells way.ne_nil).1 wanted, clear⟩
  · rintro ⟨names, content, way, ends, clear⟩
    have wanted := (Glob.isMatch_iff_endIn spells way.ne_nil).2 ends
    exact List.ne_nil_of_mem ((mem_filesIn [] entries).2 ⟨wanted, names, content, way, clear, rfl⟩)

end Probe

/-! ## The two kinds -/

namespace FileNode

/-- A build file of the classic kind is outside build output and dependencies. -/
def HasBuildFile (node : FileNode) : Prop :=
  node.HasFile [["ember-cli-build.js"], ["ember-cli-build.cjs"]]
    ["dist", "tmp", "node_modules", ".git", ".cache"]

/-- A package of the light kind is among the dependencies, outside build output. -/
def HasLightPackage (node : FileNode) : Prop :=
  node.HasFile [["node_modules", "glimmer-lite-core", "package.json"],
    ["node_modules", "@glimmerx", "core", "package.json"]] ["dist", "tmp", ".git", ".cache"]

end FileNode

namespace ProjectKind

open FileNode Glob Probe

variable {system : FileSystem} {root : Bytes} {entries : List (FileName × FileNode)}

/-- The first probe finds its build file where there is one. -/
theorem matchesAny_emberCli (here : system.resolve true root = .ok (.directory entries)) :
    ∃ found, emberCli.probe.matchesAny system root = .ok found ∧
      (found = true ↔ (directory entries).HasBuildFile) := by
  have rule : emberCli.probe.rule? = .ok (wants (.leadingDirs :: (plain "ember-cli-build." ++
    .alternatives (["js", "cjs"].map plain) :: plain ""))) := rfl
  exact matchesAny_iff_hasFile rule
    (spells_group (by decide) (by decide) (by decide) (by decide)) here

/-- The second probe finds its package where there is one. -/
theorem matchesAny_glimmerX (here : system.resolve true root = .ok (.directory entries)) :
    ∃ found, glimmerX.probe.matchesAny system root = .ok found ∧
      (found = true ↔ (directory entries).HasLightPackage) := by
  have rule : glimmerX.probe.rule? = .ok (wants (.leadingDirs :: (plain "node_modules/" ++
    .alternatives (["glimmer-lite-core", "@glimmerx/core"].map plain) :: plain "/package.json"))) :=
    rfl
  exact matchesAny_iff_hasFile rule
    (spells_group (by decide) (by decide) (by decide) (by decide)) here

/-- **The kind of a project is decided by the files below its directory.** Whatever the
tree of entries is that the path leads to:

* there is a kind or none, never a fault;
* it is the classic kind exactly when a regular file named `ember-cli-build.js` or
  `ember-cli-build.cjs` is somewhere below, on a way through no directory named `dist`,
  `tmp`, `node_modules`, `.git` or `.cache`;
* it is the light kind exactly when there is no such file, and a regular file whose
  path ends in `node_modules/glimmer-lite-core/package.json` or
  `node_modules/@glimmerx/core/package.json` is somewhere below, on a way through no
  directory named `dist`, `tmp`, `.git` or `.cache`;
* it is none exactly when there is neither file, and the directory is a project
  exactly when it has a kind. -/
theorem detect_exact (here : system.resolve true root = .ok (.directory entries)) :
    ∃ kind, detect system root = .ok kind ∧
      (kind = some .emberCli ↔ (directory entries).HasBuildFile) ∧
      (kind = some .glimmerX ↔
        ¬ (directory entries).HasBuildFile ∧ (directory entries).HasLightPackage) ∧
      (kind = none ↔
        ¬ (directory entries).HasBuildFile ∧ ¬ (directory entries).HasLightPackage) ∧
      isEligible system root = .ok kind.isSome := by
  obtain ⟨classic, hclassic, classic_iff⟩ := matchesAny_emberCli here
  obtain ⟨light, hlight, light_iff⟩ := matchesAny_glimmerX here
  have kind : detect system root =
      .ok (if classic then some .emberCli else if light then some .glimmerX else none) := by
    simp only [detect, hclassic, hlight, bind, Except.bind, pure, Except.pure]
    cases classic <;> cases light <;> rfl
  refine ⟨_, kind, ?_, ?_, ?_, ?_⟩
  · rw [← classic_iff]
    cases classic <;> cases light <;> decide
  · rw [← classic_iff, ← light_iff]
    cases classic <;> cases light <;> decide
  · rw [← classic_iff, ← light_iff]
    cases classic <;> cases light <;> decide
  · simp only [isEligible, kind, bind, Except.bind, pure, Except.pure]

/-- A build file in a hidden directory, beside a link with such a name and a
dependency that has a build file of its own. -/
def hidden : FileSystem where
  root := .directory [
    (⟨utf8 "ember-cli-build.js", by decide, by decide⟩, .link "elsewhere"),
    (⟨utf8 "node_modules", by decide, by decide⟩, .directory [
      (⟨utf8 "ember-cli-build.js", by decide, by decide⟩, .file [])]),
    (⟨utf8 ".config", by decide, by decide⟩, .directory [
      (⟨utf8 "ember-cli-build.cjs", by decide, by decide⟩, .file [])])]

theorem detect_exact_hidden : detect hidden (utf8 "/") = .ok (some .emberCli) := by
  have here : hidden.resolve true (utf8 "/") = .ok hidden.root := by
    have pieces : Path.pieces (Path.join (utf8 "/") (utf8 "/")) = [[], []] := by decide
    simp [FileSystem.resolve, FileSystem.walk, hidden, FileNode.descend?, pieces,
      show (0 : UInt8) ∉ utf8 "/" by decide, show utf8 "/" ≠ [] by decide]
  obtain ⟨kind, hkind, classic, -⟩ := detect_exact here
  rw [hkind, classic.2 ⟨_, _, .down (.tail _ (.tail _ (.head _))) (.down (.head _) .here), ?_, ?_⟩]
  · exact ⟨["ember-cli-build.cjs"], by decide, by decide⟩
  · decide

end ProjectKind

end EmberClient
