import EmberClient.Project.Probe

/-!
# Kinds of projects

A workspace counts as a project of the framework when one of two searches finds a
file. The build file of the classic kind is looked for first, outside build output
and dependencies; only if there is none, a package of the light kind is looked for
inside the dependencies.
-/

namespace EmberClient

open Text

inductive ProjectKind where
  | emberCli | glimmerX
  deriving DecidableEq, Inhabited

namespace ProjectKind

def name : ProjectKind → String
  | .emberCli => "ember-cli"
  | .glimmerX => "glimmerx"

/-- The search that tells a kind. -/
def probe : ProjectKind → Probe
  | .emberCli => {
    pattern := "**/ember-cli-build.\x7bjs,cjs\x7d"
    excluded := ["dist", "tmp", "node_modules", ".git", ".cache"]
    limit := 1 }
  | .glimmerX => {
    pattern := "**/node_modules/\x7bglimmer-lite-core,@glimmerx/core\x7d/package.json"
    excluded := ["dist", "tmp", ".git", ".cache"]
    limit := 1 }

/-- The kind of the project at a place, if it is one. -/
def detect (system : FileSystem) (root : Bytes) : Except ProbeFault (Option ProjectKind) := do
  if ← emberCli.probe.matchesAny system root then return some .emberCli
  else if ← glimmerX.probe.matchesAny system root then return some .glimmerX
  else return none

/-- The place holds a project. -/
def isEligible (system : FileSystem) (root : Bytes) : Except ProbeFault Bool := do
  return (← detect system root).isSome

end ProjectKind

end EmberClient
