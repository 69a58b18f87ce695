import EmberClient.Path.Native
import EmberClient.Uri.Host

/-!
# URIs of local files

What begins with `file:` is a URI, anything else is the path itself. `localPath?`
reads the path of a URI the way browsers read one: backslashes count as slashes,
missing slashes are supplied, segments of dots are resolved, query and fragment
are dropped. A URI of another machine has no local path.

A drive letter, a letter with a colon, is kept where it stands: the step to the
parent never removes one, a bar in place of its colon is mended where it is the
first segment, and a path that ends in one gets a slash.
-/

namespace EmberClient.Uri

open Text

/-! ## Segments -/

/-- A letter and a colon, or a bar in its place. -/
def isDriveLetter (cs : List Char) : Bool :=
  match cs with
  | [letter, mark] => letter.isAlpha && (mark = ':' || mark = '|')
  | _ => false

/-- The spellings of a dot in a segment. -/
def unescapeDots : List Char → List Char
  | '%' :: '2' :: 'e' :: rest | '%' :: '2' :: 'E' :: rest => '.' :: unescapeDots rest
  | c :: rest => c :: unescapeDots rest
  | [] => []

/-- The segment stands for its own directory. -/
def isDot (segment : List Char) : Bool := unescapeDots segment = ['.']

/-- The segment stands for the parent. -/
def isDotDot (segment : List Char) : Bool := unescapeDots segment = ['.', '.']

/-- The segments with the last one removed, unless it is a drive letter. -/
def parent (segments : List (List Char)) : List (List Char) :=
  match segments.getLast? with
  | some last => if isDriveLetter last then segments else segments.dropLast
  | none => segments

/-- Adds a segment; the bar of a drive letter in first place becomes a colon. -/
def addSegment (segments : List (List Char)) (segment : List Char) : List (List Char) :=
  match segments, segment with
  | [], [letter, _] => if isDriveLetter segment then [[letter, ':']] else [segment]
  | _, _ => segments ++ [segment]

/-- Resolves the dots among segments. A segment of dots at the end leaves an empty
segment, so that the path ends in a slash. -/
def resolve (done : List (List Char)) : List (List Char) → List (List Char)
  | [] => done
  | segment :: rest =>
    let finish (segments : List (List Char)) := if rest.isEmpty then segments ++ [[]] else segments
    if isDotDot segment then resolve (finish (parent done)) rest
    else if isDot segment then resolve (finish done) rest
    else resolve (addSegment done segment) rest

def isSlash (c : Char) : Bool := c = '/' || c = '\\'

/-- Splits at slashes of either kind. -/
def segmentsOf : List Char → List (List Char)
  | [] => [[]]
  | c :: rest =>
    match segmentsOf rest with
    | [] => [[c]]
    | segment :: more =>
      if isSlash c then [] :: segment :: more else (c :: segment) :: more

/-! ## Reading a URI -/

/-- The parts of a URI of a file. -/
structure FileUri where
  host : List Char
  /-- The segments of the path behind its first slash, as written. -/
  segments : List (List Char)

/-- Characters that are dropped wherever they stand. -/
def isIgnored (c : Char) : Bool := c = '\t' || c = '\n' || c = '\r'

/-- What stands before a query or a fragment. -/
def beforeQuery (cs : List Char) : List Char :=
  cs.takeWhile fun c => c ≠ '?' && c ≠ '#'

/-- The text after the scheme without controls and blanks at its end, without
tabs and line ends, and without query and fragment. -/
def significant (cs : List Char) : List Char :=
  let trimmed := (cs.reverse.dropWhile fun c => c.toNat ≤ 32).reverse
  beforeQuery (trimmed.filter fun c => !isIgnored c)

/-- Splits what follows the scheme into host and path. A drive letter in the place
of the host belongs to the path. -/
def FileUri.ofText (cs : List Char) : FileUri :=
  match cs with
  | a :: b :: rest =>
    if isSlash a && isSlash b then
      let host := rest.takeWhile fun c => !isSlash c
      if isDriveLetter host then { host := [], segments := segmentsOf rest }
      else { host, segments := segmentsOf (rest.drop (host.length + 1)) }
    else if isSlash a then { host := [], segments := segmentsOf (b :: rest) }
    else { host := [], segments := segmentsOf cs }
  | [a] => { host := [], segments := segmentsOf (if isSlash a then [] else [a]) }
  | [] => { host := [], segments := [[]] }

/-- A drive letter at the end of a path. -/
def endsInDrive (path : Bytes) : Bool :=
  match path.reverse with
  | mark :: letter :: _ :: _ =>
    (mark = 58 || mark = 124) && ((65 ≤ letter && letter ≤ 90) || (97 ≤ letter && letter ≤ 122))
  | _ => false

/-- The bytes of a path with these segments. -/
def pathOfSegments (segments : List (List Char)) : Bytes :=
  let kept := segments.dropWhile List.isEmpty
  let path :=
    if kept.isEmpty then [Path.slash]
    else kept.flatMap fun s => Path.slash :: percentDecode (utf8 (String.ofList s))
  if endsInDrive path then path ++ [Path.slash] else path

/-- The local path of a URI, given what follows its scheme. -/
def localPath? (afterScheme : String) : Option Bytes :=
  let uri := FileUri.ofText (significant afterScheme.toList)
  let segments := resolve [] uri.segments
  match Host.read? uri.host with
  | none => none
  | some .here => some (pathOfSegments segments)
  | some .elsewhere =>
    -- a path that begins with a drive letter is on this machine
    match segments.head? with
    | some first => if isDriveLetter first then some (pathOfSegments segments) else none
    | none => none

/-- The path that a URI or a path names; `none` for a URI without a local one. -/
def toPath? (uri : String) : Option Bytes :=
  if beginsWith uri "file:" then localPath? (String.ofList (uri.toList.drop 5))
  else some (utf8 uri)

/-! ## Writing a URI -/

/-- The URI of an absolute path. -/
def ofPath? (path : Bytes) : Option String :=
  if Path.isAbsolute path then
    match Path.components path with
    | [] => some "file:///"
    | names => some ("file://" ++ String.join (names.map fun n => "/" ++ percentEncode n))
  else none

/-! ## URIs in general -/

/-- The schemes whose URIs must have a host. -/
def hostSchemes : List String := ["http", "https", "ws", "wss", "ftp"]

def isSchemeChar (c : Char) : Bool := c.isAlphanum || c = '+' || c = '-' || c = '.'

/-- A port: nothing, or a number of sixteen bits. -/
def isPort (cs : List Char) : Bool :=
  cs.all Char.isDigit && cs.foldl (fun n c => n * 10 + (c.toNat - 48)) 0 < 65536

/-- Splits a port off the end of an authority, and credentials off its front. -/
def hostAndPort (authority : List Char) : List Char × List Char :=
  let afterCredentials :=
    if authority.contains '@' then (authority.reverse.takeWhile (· ≠ '@')).reverse else authority
  let port := (afterCredentials.reverse.takeWhile fun c => c ≠ ':' && c ≠ ']').reverse
  let before := afterCredentials.take (afterCredentials.length - port.length)
  if before.getLast? = some ':' then (before.dropLast, port) else (afterCredentials, [])

/-- A text is an absolute URI. -/
def isAbsolute (uri : String) : Bool :=
  let trimmed := (uri.toList.dropWhile fun c => c.toNat ≤ 32).filter fun c => !isIgnored c
  let scheme := trimmed.takeWhile (· ≠ ':')
  let rest := significant (trimmed.drop (scheme.length + 1))
  let startsWell := (scheme.head?.map Char.isAlpha).getD false && scheme.all isSchemeChar
  if !startsWell || trimmed.length = scheme.length then false
  else
    let name := (String.ofList scheme).toLower
    if name = "file" then (Host.read? (FileUri.ofText rest).host).isSome
    else if hostSchemes.contains name then
      let authority := (rest.dropWhile isSlash).takeWhile fun c => !isSlash c
      let (host, port) := hostAndPort authority
      !host.isEmpty && (Host.read? host).isSome && isPort port
    else
      match rest with
      | '/' :: '/' :: rest =>
        let authority := rest.takeWhile (· ≠ '/')
        let (host, port) := hostAndPort authority
        (isBracketed host || !host.any isSeparating) && isPort port &&
          -- only an authority that is empty may leave the host out
          (!host.isEmpty || authority.isEmpty)
      | _ => true

end EmberClient.Uri
