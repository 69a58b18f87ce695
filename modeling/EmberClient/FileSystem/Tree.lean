import EmberClient.Fault
import EmberClient.Path.Native

/-!
# A file system

Files, directories and symbolic links, as one tree below the root directory.
`resolve` finds what a path names: it follows links inside the path, at most
`maxLinks` of them, and a link at its end when asked to. A relative path is
walked from the current directory.
-/

namespace EmberClient

open Text

/-- The name of an entry of a directory: any bytes without a slash, but some. A name
need not be a text. -/
structure FileName where
  bytes : Bytes
  nonempty : bytes ≠ []
  slashless : Path.slash ∉ bytes
  deriving DecidableEq

namespace FileName

/-- The name that these bytes are, if they can be one. -/
def ofBytes? (bytes : Bytes) : Option FileName :=
  if h : bytes ≠ [] ∧ Path.slash ∉ bytes then some ⟨bytes, h.1, h.2⟩ else none

/-- The name as a text, malformed parts replaced. -/
def text (name : FileName) : String :=
  ofUtf8Lossy name.bytes

end FileName

/-- A file, a directory with named entries, or a symbolic link. -/
inductive FileNode where
  | file (content : Bytes)
  | directory (entries : List (FileName × FileNode))
  | link (target : String)
  deriving Inhabited

namespace FileNode

/-- The entry of a directory with this name. -/
def entry? (name : Bytes) : FileNode → Option FileNode
  | .directory entries => (entries.find? fun e => e.1.bytes = name).map (·.2)
  | _ => none

/-- The node at the end of names that go down from here. -/
def descend? (node : FileNode) : List Bytes → Option FileNode
  | [] => some node
  | name :: rest => (node.entry? name).bind fun child => descend? child rest

/-- A chain of directories that ends in a node. -/
def chain (node : FileNode) : List FileName → FileNode
  | [] => node
  | name :: rest => .directory [(name, chain node rest)]

/-- Puts a node at the end of names; directories on the way are made. What was
there under the last name is replaced. -/
def insert (tree node : FileNode) : List FileName → FileNode
  | [] => node
  | name :: rest =>
    match tree with
    | .directory entries => .directory (insertEntry node name rest entries)
    | _ => chain node (name :: rest)
where
  insertEntry (node : FileNode) (name : FileName) (rest : List FileName) :
      List (FileName × FileNode) → List (FileName × FileNode)
    | [] => [(name, chain node rest)]
    | (n, child) :: more =>
      if n = name then (n, insert child node rest) :: more
      else (n, child) :: insertEntry node name rest more

end FileNode

/-- A tree of files, and the directory that relative paths are walked from. -/
structure FileSystem where
  root : FileNode
  directory : String := "/"
  deriving Inhabited

namespace FileSystem

/-- The number of links that one path may lead through. -/
def maxLinks : Nat := 40

/-- The longest name of an entry. -/
def maxName : Nat := 255

/-- One piece of a path that is still to be walked. -/
abbrev Pending := List Bytes

/-- Walks the pieces of a path. `here` holds the names from the root to the
directory that has been reached, the last one first. -/
def walk (root : FileNode) (followLast : Bool) (links : Nat) (here : List Bytes)
    (pending : Pending) : Except IoKind FileNode :=
  match root.descend? here.reverse with
  | none => .error .notFound
  | some node =>
    match pending with
    | [] => .ok node
    | piece :: rest =>
      match node with
      | .directory _ =>
        if piece.isEmpty || piece = Path.dot then walk root followLast links here rest
        else if piece = Path.dotDot then walk root followLast links here.tail rest
        else if maxName < piece.length then .error .invalidFilename
        else
          match node.entry? piece with
          | none => .error .notFound
          | some (.link target) =>
            if rest.isEmpty && !followLast then .ok (.link target)
            else
              match links with
              | 0 => .error .filesystemLoop
              | links + 1 =>
                -- a relative target is walked from the directory that holds the link
                let start := if target.startsWith "/" then [] else here
                walk root followLast links start (Path.pieces (utf8 target) ++ rest)
          | some _ => walk root followLast links (piece :: here) rest
      | _ => .error .notADirectory
  termination_by (links, pending.length)

/-- What a path names. -/
def resolve (s : FileSystem) (followLast : Bool) (path : Bytes) : Except IoKind FileNode :=
  if path.contains 0 then .error .invalidInput
  else if path.isEmpty then .error .notFound
  else walk s.root followLast maxLinks [] (Path.pieces (Path.join (utf8 s.directory) path))

end FileSystem

/-! ## What the editor asks of it -/

/-- The kind of an entry, with the number that the editor knows it by. -/
inductive FileType where
  | unknown | file | directory | symbolicLink
  deriving DecidableEq, Inhabited

def FileType.code : FileType → Nat
  | .unknown => 0
  | .file => 1
  | .directory => 2
  | .symbolicLink => 64

def FileNode.type : FileNode → FileType
  | .file _ => .file
  | .directory _ => .directory
  | .link _ => .symbolicLink

/-- What is known about a file. Times are in milliseconds. -/
structure FileStat where
  type : FileType
  ctime : Nat
  mtime : Nat
  size : Nat
  deriving DecidableEq

namespace FileStat

def toJson (s : FileStat) : Json :=
  .object [("type", .ofNat s.type.code), ("ctime", .ofNat s.ctime), ("mtime", .ofNat s.mtime),
    ("size", .ofNat s.size)]

end FileStat

namespace FileSystem

/-- The bytes of a file. -/
def content (s : FileSystem) (path : Bytes) : Except IoKind Bytes := do
  match ← resolve s true path with
  | .file content => return content
  | _ => throw .isADirectory

/-- What is known about a file; a link stands for what it leads to. -/
def stat (s : FileSystem) (path : Bytes) : Except IoKind FileStat := do
  match ← resolve s true path with
  | .file content => return { type := .file, ctime := 0, mtime := 0, size := content.length }
  | node => return { type := node.type, ctime := 0, mtime := 0, size := 0 }

/-- The entries of a directory in the order of their names. A link is an entry
of its own kind. -/
def entries (s : FileSystem) (path : Bytes) :
    Except IoKind (List (String × FileType)) := do
  match ← resolve s true path with
  | .directory entries =>
    let named := entries.map fun (name, node) => (name.text, node.type)
    return named.mergeSort fun a b => decide (a.1 ≤ b.1)
  | _ => throw .notADirectory

/-- An existing file, links followed. -/
def isFile (s : FileSystem) (path : Bytes) : Bool :=
  match resolve s true path with
  | .ok (.file _) => true
  | _ => false

end FileSystem

end EmberClient
