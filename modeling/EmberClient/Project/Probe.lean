import EmberClient.FileSystem.Tree
import EmberClient.Pattern.Rule

/-!
# Bounded searches

A probe looks for files below a directory: those that its pattern wants, outside
directories with certain names, and no more than a limit. Links are not followed
and are no files, except that the place where the search begins may be a link.
Nothing is special about hidden files.

`Probe.find` walks the tree and stops as soon as it has found enough. `Probe.all`
lists what there is to be found, without a limit.
-/

namespace EmberClient

open Text

/-- A search for files. -/
structure Probe where
  pattern : String
  /-- Directories with these names are not entered. -/
  excluded : List String
  limit : Nat

/-- Why a search has no result. -/
inductive ProbeFault where
  /-- The pattern cannot be read. -/
  | pattern (pattern : String)
  /-- There is nothing to search at this place. -/
  | walk (root : Bytes)

namespace Probe

/-- What the pattern says about a path; without a rule nothing is said. -/
def verdict (rule : Option SearchRule) (path : Bytes) (isDirectory : Bool) : Verdict :=
  match rule with
  | some r => r.verdict path isDirectory
  | none => .silent

/-- The path of an entry below the root. -/
def entryPath (base : Bytes) (name : FileName) : Bytes :=
  if base.isEmpty then name.bytes else base ++ [Path.slash] ++ name.bytes

/-- A directory of this name is not entered. -/
def isExcluded (excluded : List String) (name : FileName) : Bool :=
  excluded.any fun e => utf8 e = name.bytes

mutual

/-- The wanted files among the entries of a directory and below them. `base` is
the path of the directory below the root. -/
def filesIn (rule : Option SearchRule) (excluded : List String) (base : Bytes) :
    List (FileName × FileNode) → List Bytes
  | [] => []
  | (name, node) :: rest =>
    filesAt rule excluded (entryPath base name) name node ++ filesIn rule excluded base rest

/-- The wanted files at one entry. -/
def filesAt (rule : Option SearchRule) (excluded : List String) (path : Bytes) (name : FileName) :
    FileNode → List Bytes
  | .file _ => if verdict rule path false = .leftOut then [] else [path]
  | .link _ => []
  | .directory entries =>
    if isExcluded excluded name || verdict rule path true = .leftOut then []
    else filesIn rule excluded path entries

end

/-- All files that a search wants below a node. A file at the root is always one
of them. -/
def filesBelow (rule : Option SearchRule) (excluded : List String) : FileNode → List Bytes
  | .directory entries => filesIn rule excluded [] entries
  | _ => [[]]

/-- The pattern's rule, if it has one. -/
def rule? (p : Probe) : Except ProbeFault (Option SearchRule) :=
  match SearchRule.read p.pattern with
  | .none => .ok none
  | .invalid => .error (.pattern p.pattern)
  | .rule r => .ok (some r)

/-- All files that the search wants, without the limit. -/
def all (p : Probe) (system : FileSystem) (root : Bytes) : Except ProbeFault (List Bytes) := do
  let rule ← p.rule?
  match system.resolve true root with
  | .ok node => return filesBelow rule p.excluded node
  | .error _ => throw (.walk root)

/-! ## Searching up to a limit -/

/-- How far a search has come. -/
inductive Hunt where
  /-- These files were found, and more are looked for. -/
  | going (found : List Bytes)
  /-- Enough was found. -/
  | enough (found : List Bytes)

namespace Hunt

def found : Hunt → List Bytes
  | .going found => found
  | .enough found => found

/-- Goes on after a part of the search, unless enough was found. -/
def andThen (hunt : Hunt) (next : List Bytes → Hunt) : Hunt :=
  match hunt with
  | .going found => next found
  | .enough found => .enough found

@[simp] theorem going_andThen (found : List Bytes) (next : List Bytes → Hunt) :
    (going found).andThen next = next found := rfl

@[simp] theorem enough_andThen (found : List Bytes) (next : List Bytes → Hunt) :
    (enough found).andThen next = enough found := rfl

/-- Takes one more file. Whether it was enough is asked only after that, so a limit
of none still takes one. -/
def take (limit : Nat) (found : List Bytes) (path : Bytes) : Hunt :=
  let found := found ++ [path]
  if limit ≤ found.length then .enough found else .going found

end Hunt

mutual

/-- Searches the entries of a directory and what is below them. -/
def searchIn (rule : Option SearchRule) (excluded : List String) (limit : Nat) (base : Bytes)
    (found : List Bytes) : List (FileName × FileNode) → Hunt
  | [] => .going found
  | (name, node) :: rest =>
    (searchAt rule excluded limit (entryPath base name) name found node).andThen
      fun found => searchIn rule excluded limit base found rest

/-- Searches one entry. -/
def searchAt (rule : Option SearchRule) (excluded : List String) (limit : Nat) (path : Bytes)
    (name : FileName) (found : List Bytes) : FileNode → Hunt
  | .file _ => if verdict rule path false = .leftOut then .going found else .take limit found path
  | .link _ => .going found
  | .directory entries =>
    if isExcluded excluded name || verdict rule path true = .leftOut then .going found
    else searchIn rule excluded limit path found entries

end

/-- Searches a node. A file at the root is found, whatever the rule says. -/
def searchBelow (rule : Option SearchRule) (excluded : List String) (limit : Nat) :
    FileNode → Hunt
  | .directory entries => searchIn rule excluded limit [] [] entries
  | _ => .take limit [] []

/-- Files up to the limit; one is looked for in any case. -/
def find (p : Probe) (system : FileSystem) (root : Bytes) : Except ProbeFault (List Bytes) := do
  let rule ← p.rule?
  match system.resolve true root with
  | .ok node => return (searchBelow rule p.excluded p.limit node).found
  | .error _ => throw (.walk root)

/-- The search finds a file. -/
def matchesAny (p : Probe) (system : FileSystem) (root : Bytes) : Except ProbeFault Bool := do
  return !(← p.find system root).isEmpty

end Probe

end EmberClient
