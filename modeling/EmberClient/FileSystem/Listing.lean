import EmberClient.FileSystem.Tree
import EmberClient.Text.Hex

/-!
# Written trees

A tree of files as a JSON object: under each path what is there. A text is a file
with this text, `null` a directory, `{"hex": ..}` a file with these bytes and
`{"link": ..}` a symbolic link. Directories on the way need not be named.
-/

namespace EmberClient

open Text

/-- Bytes that are given as a text or, under `hex`, in digits. -/
def Json.bytes (v : Json) : Bytes :=
  match v.member? "hex" with
  | some (.str digits) => bytesOfHex digits.toList
  | _ => utf8 (((v.member? "text").bind Json.string?).getD "")

namespace FileNode

/-- What is at one path. -/
def ofJson : Json → FileNode
  | .str text => .file (utf8 text)
  | .null => .directory []
  | v =>
    match (v.member? "link").bind Json.string? with
    | some target => .link target
    | none => .file v.bytes

/-- The names on a path. -/
def names (path : String) : List FileName :=
  (Path.pieces (utf8 path)).filterMap FileName.ofBytes?

/-- Puts a written tree below a directory, which is made if it is not there. -/
def insertListing (tree : FileNode) (directory : String) (listing : List (String × Json)) :
    FileNode :=
  let below := names directory
  let tree := if (tree.descend? (below.map (·.bytes))).isSome then tree
    else tree.insert (.directory []) below
  listing.foldl (fun tree (path, v) => tree.insert (ofJson v) (below ++ names path)) tree

end FileNode

end EmberClient
