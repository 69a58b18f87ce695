import EmberClient.Connection.Basic
import EmberClient.Json.Writer

/-!
# A server by script

A server whose behaviour is written down: for every command and method what it
does when a message of that name comes, the first time, the second time, and so
on. What it does for one message it does in order, beside what it does for
others.
-/

namespace EmberClient.Script

open Text

/-- One thing that a server does for a message. -/
inductive Move where
  /-- Answers with a result. -/
  | result (value : Json)
  /-- Answers with an error object. -/
  | error (error : Json)
  /-- Answers with the arguments. -/
  | echo
  /-- Answers with these members, put over those of a response. -/
  | reply (members : List (String × Json))
  /-- Sends a message. -/
  | send (message : Json)
  /-- Sends bytes. -/
  | raw (bytes : Bytes)
  /-- Sends a request and waits for the response. -/
  | ask (method : String) (params : Option Json)
  /-- Answers with what the last request led to. -/
  | answer
  /-- Closes its output. -/
  | close
  /-- Ends. -/
  | exit
  deriving Inhabited

/-- What is written down for one server. -/
structure ServerScript where
  /-- The commands that it advertises. -/
  commands : List String := []
  /-- By the name of a command or a method, the moves for each of its messages. -/
  moves : List (String × List (List Move)) := []
  deriving Inhabited

namespace ServerScript

/-- The moves for the message of this name that is number `n`, from zero; the last
ones are repeated. -/
def moves? (script : ServerScript) (name : String) (n : Nat) : Option (List Move) := do
  let (_, lists) ← script.moves.find? fun e => e.1 = name
  (lists[n]?).or lists.getLast?

/-- The answer to a request about which nothing is written. -/
def usualResult (script : ServerScript) (method : String) : Json :=
  if method = "initialize" then
    .object [("capabilities", .object [("executeCommandProvider",
      .object [("commands", .arr (script.commands.map .str))])])]
  else .null

/-- The script of a server that shakes hands by itself: only an error can be written
down for that. -/
def withUsualHandshake (script : ServerScript) : ServerScript :=
  let isError : Move → Bool
    | .error _ => true
    | _ => false
  let usual := [Move.result (script.usualResult "initialize")]
  { script with
    moves := script.moves.map fun (name, lists) =>
      (name, if name = "initialize" then
          lists.map fun moves => if moves.any isError then moves else usual
        else lists) }

end ServerScript

/-- What is written down for one launch. -/
inductive LaunchScript where
  /-- No server comes up. -/
  | fails (text : String)
  | serves (script : ServerScript)
  deriving Inhabited

/-- What a server does for one message. -/
structure Part where
  /-- The id to answer under, if an answer is expected. -/
  id : Option Json
  arguments : Json
  moves : List Move
  /-- The request whose response it waits for. -/
  asked : Option Nat := none
  /-- What the last request led to. -/
  learned : Json := .null

/-- A server that plays its script. -/
structure Player where
  script : ServerScript
  /-- How often each name has come. -/
  counts : List (String × Nat) := []
  /-- The number of the next request of its own. -/
  nextAsk : Nat := 1000
  parts : List Part := []
  /-- How many messages it has taken. -/
  taken : Nat := 0
  ended : Bool := false

instance : Inhabited Player := ⟨{ script := {} }⟩

/-- What a server does to its side of the connection. -/
inductive Output where
  | bytes (bytes : Bytes)
  /-- Its output ends. -/
  | close
  /-- It ends altogether. -/
  | exit

namespace Player

/-- A message as the bytes of its frame. -/
def framed (message : Json) : Bytes :=
  let body := utf8 message.text
  Frame.header body.length ++ body

def response (id : Option Json) (member : String × Json) : Output :=
  .bytes (framed (.obj [("jsonrpc", .str "2.0"), ("id", .ofOption id), member]))

/-- Members with others put over them. -/
def putOver (members others : List (String × Json)) : List (String × Json) :=
  members.filter (fun m => others.all fun o => o.1 ≠ m.1) ++ others

/-- The name under which moves for a message are written down. -/
def nameOf (method : String) (params : Json) : String :=
  if method = Connection.executeMethod then
    ((params.member? "command").bind Json.string?).getD ""
  else method

def countOf (p : Player) (name : String) : Nat :=
  ((p.counts.find? fun e => e.1 = name).map (·.2)).getD 0

/-- What a response that came tells the part that waits for it. -/
def learn (m : Message) : Json :=
  match m.error with
  | some e => .object [("error", .ofInt e.code)]
  | none => .object [("ok", .ofOption m.result)]

/-- Takes a message of the client. -/
def take (p : Player) (m : Message) : Player × List Output :=
  match m.method with
  | none =>
    let ask := (m.id.bind Json.word?).map UInt64.toNat
    let parts := p.parts.map fun part =>
      if part.asked.isSome ∧ part.asked = ask then
        { part with asked := none, learned := learn m }
      else part
    ({ p with parts }, [])
  | some "exit" => ({ p with ended := true, parts := [] }, [.exit])
  | some method =>
    let params := m.params.getD .null
    let name := nameOf method params
    let n := p.countOf name
    let p := { p with counts := (name, n + 1) :: p.counts.filter (·.1 ≠ name) }
    let arguments := (params.member? "arguments").getD .null
    match p.script.moves? name n with
    | some moves => ({ p with parts := p.parts ++ [{ id := m.id, arguments, moves }] }, [])
    | none =>
      if m.id.isSome then (p, [response m.id ("result", p.script.usualResult method)])
      else (p, [])

/-- Makes the next move of a part. -/
def move (p : Player) (place : Nat) (part : Part) (m : Move) (rest : List Move) :
    Player × List Output :=
  let go (part : Part) : Player := { p with parts := p.parts.set place part }
  let after := { part with moves := rest }
  match m with
  | .result v => (go after, [response part.id ("result", v)])
  | .error e => (go after, [response part.id ("error", e)])
  | .echo => (go after, [response part.id ("result", part.arguments)])
  | .reply members =>
    let message := putOver [("jsonrpc", .str "2.0"), ("id", .ofOption part.id)] members
    (go after, [.bytes (framed (.obj message))])
  | .send message => (go after, [.bytes (framed message)])
  | .raw bytes => (go after, [.bytes bytes])
  | .ask method params =>
    let message := [("jsonrpc", Json.str "2.0"), ("id", .ofNat p.nextAsk), ("method", .str method)]
    ({ go { after with asked := some p.nextAsk } with nextAsk := p.nextAsk + 1 },
      [.bytes (framed (.obj (message ++ (params.map fun v => ("params", v)).toList)))])
  | .answer => (go after, [response part.id ("result", part.learned)])
  | .close => (go after, [.close])
  | .exit => ({ p with ended := true, parts := [] }, [.exit])

/-- A part can make a move: it has one, and waits for nothing. -/
def isReady (p : Player) (place : Nat) : Bool :=
  match p.parts[place]? with
  | some part => part.asked.isNone && !part.moves.isEmpty
  | none => false

/-- The part at a place makes its next move. -/
def play (p : Player) (place : Nat) : Option (Player × List Output) := do
  let part ← p.parts[place]?
  if part.asked.isSome then none
  else
    match part.moves with
    | [] => none
    | m :: rest => return p.move place part m rest

end Player

end EmberClient.Script
