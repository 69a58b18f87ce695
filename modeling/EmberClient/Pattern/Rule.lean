import EmberClient.Pattern.Glob
import EmberClient.Text.Blank
import EmberClient.Text.Search

/-!
# Rules of a file search

A rule is one line in the syntax of ignore files, read the other way round: it
says what is wanted. A line without a slash means a name at any depth, any other
line a path from the root; `!` turns a rule into an exclusion, a slash at the end
restricts it to directories, and a blank line or a comment is no rule.
-/

namespace EmberClient

open Text

/-- A rule, and what it means for the paths that match. -/
structure SearchRule where
  tokens : List Glob.Token
  /-- What matches is left out, instead of wanted. -/
  excludes : Bool
  onlyDirectories : Bool

/-- What a rule says about a path. -/
inductive Verdict where
  | wanted
  | leftOut
  | silent
  deriving DecidableEq

namespace SearchRule

/-- The line without the blanks at its end, unless a backslash keeps one. -/
def trimEnd (cs : List Char) : List Char :=
  if "\\ ".toList.isSuffixOf cs then cs else dropEndWhile isBlank cs

/-- Takes a slash off the end, with the backslash that may stand before it. -/
def splitDirectory (cs : List Char) : List Char × Bool :=
  if cs.getLast? = some '/' then
    let cs := cs.dropLast
    (if cs.getLast? = some '\\' then cs.dropLast else cs, true)
  else (cs, false)

/-- The pattern of a rule that is not tied to the root and names no directory
matches at any depth. -/
def anchor (fromRoot : Bool) (cs : List Char) : List Char :=
  if fromRoot || cs.contains '/' || cs = "**".toList then cs else "**/".toList ++ cs

/-- Two stars at the end of a path mean what is in a directory, not the directory. -/
def contents (cs : List Char) : List Char :=
  if "/**".toList.isSuffixOf cs then cs ++ "/*".toList else cs

/-- The marks at the front of a line: whether it excludes, whether it starts at the
root, and what is left. A backslash takes its meaning from a mark. -/
def splitMarks : List Char → Bool × Bool × List Char
  | '\\' :: '!' :: rest => (false, false, '!' :: rest)
  | '\\' :: '#' :: rest => (false, false, '#' :: rest)
  | '!' :: '/' :: rest => (true, true, rest)
  | '!' :: rest => (true, false, rest)
  | '/' :: rest => (false, true, rest)
  | cs => (false, false, cs)

/-- What a line says. -/
inductive Line where
  | none
  | invalid
  | rule (rule : SearchRule)

/-- Reads a line. -/
def read (line : String) : Line :=
  let cs := trimEnd line.toList
  if beginsWith line "#" || cs.isEmpty then .none
  else
    let (excludes, fromRoot, cs) := splitMarks cs
    let (cs, onlyDirectories) := splitDirectory cs
    let pattern := contents (anchor fromRoot cs)
    match Glob.tokens? (String.ofList pattern) with
    | some tokens => .rule { tokens, excludes, onlyDirectories }
    | none => .invalid

/-- What a rule says about a path below the root. Where something is wanted, every
file must be; a directory is only left out if the rule says so. -/
def verdict (r : SearchRule) (path : Bytes) (isDirectory : Bool) : Verdict :=
  if Glob.isMatch r.tokens path && (isDirectory || !r.onlyDirectories) then
    if r.excludes then .leftOut else .wanted
  else if !r.excludes && !isDirectory then .leftOut
  else .silent

end SearchRule

end EmberClient
