import EmberClient.Session.Basic
import Mathlib.Tactic.SplitIfs

/-!
# What the client's programs are put together from

Programs that deal with servers ask few kinds of questions and wait for their own calls;
`Dealing` lists them. Commands, callbacks, lenses, views and the answers to a server's
requests are put together from few parts as well: questions that touch neither the server
nor the status item, commands run by their names, calls to the current server, and the
transitions. `Composed` lists those. What holds of each part, and of two programs one after
the other, holds of all that is put together from them. Three jobs stand apart: activation,
stop, and running a command on the server whatever its name.

None of the parts sends a command of the client's own away: `ClientCommand.knows` tells which
these are, and `parse_none_iff` that they are found out by their names alone.
-/

namespace EmberClient

/-! ## Names -/

namespace ClientCommand

/-- The names of the commands that the client runs itself. -/
def knows (name : String) : Bool :=
  [Command.setStatusBarText, Command.restartServer, Command.runInCli, Command.getUserInput,
    Command.proxyCommand, Command.openRelatedFile, Command.readFile, Command.stat,
    Command.readDirectory].contains name

/-- What is read under a name of the client's: a command, or what keeps it from being one. -/
def Reads (result : Except Fault (Option ClientCommand)) : Prop := result ≠ .ok none

theorem reads_some (command : ClientCommand) : Reads (.ok (some command)) := by
  simp [Reads]

/-- A reader of one argument after another gives a command if it gives one after each. -/
theorem reads_bind {γ : Type} {argument : Except Fault γ}
    {read : γ → Except Fault (Option ClientCommand)} (reads : ∀ a, Reads (read a)) :
    Reads (argument >>= read) := by
  cases argument with
  | ok a => exact reads a
  | error fault => simp [Reads, Bind.bind, Except.bind]

/-- A name that is known is never passed over. -/
theorem reads_iff {name : String} {result : Except Fault (Option ClientCommand)}
    (known : knows name = true) (reads : Reads result) :
    result = .ok none ↔ knows name = false :=
  ⟨fun same => absurd same reads, fun unknown => absurd (known.symm.trans unknown) (by simp)⟩

/-- Whether a command is the client's is seen from its name alone. -/
theorem parse_none_iff (name : String) (arguments : List Json) :
    parse name arguments = .ok none ↔ knows name = false := by
  unfold parse
  split_ifs with bar restart cli input proxy related text stat entries
  · exact reads_iff (bar ▸ rfl) (reads_some _)
  · exact reads_iff (restart ▸ rfl) (reads_some _)
  · exact reads_iff (cli ▸ rfl) (reads_some _)
  · exact reads_iff (input ▸ rfl) (reads_bind fun _ => reads_bind fun _ => reads_some _)
  · exact reads_iff (proxy ▸ rfl) (reads_bind fun _ => reads_bind fun _ => reads_some _)
  · exact reads_iff (related ▸ rfl) (reads_bind fun _ => reads_some _)
  · exact reads_iff (text ▸ rfl) (reads_bind fun _ => reads_some _)
  · exact reads_iff (stat ▸ rfl) (reads_bind fun _ => reads_some _)
  · exact reads_iff (entries ▸ rfl) (reads_bind fun _ => reads_some _)
  · refine ⟨fun _ => ?_, fun _ => rfl⟩
    simp [knows, bar, restart, cli, input, proxy, related, text, stat, entries]

end ClientCommand

namespace Session

variable {setup : Setup} {α β : Type}

/-! ## Dealing with servers -/

/-- Questions that touch neither a server nor its state nor the main status item. -/
def isPlain : Question → Bool
  | .commands _ | .cancelled | .view | .prompt _ | .openFile _ | .content _ | .stat _ | .entries _
  | .projectKind _ | .showError _ => true
  | .status item _ => item != StatusItem.main
  | _ => false

/-- Questions of a program that deals with servers and leaves it to others what that means
for the state. -/
def isDealing : Question → Bool
  | .current | .takeCurrent | .buildHandler | .launch _ | .terminate _ | .discard _
  | .advertise .. | .notify .. => true
  | q => isPlain q

/-- A program that deals with servers: it finds them, brings them up and down, and waits for
the results of its own calls. It has them run no commands. -/
inductive Dealing : {α : Type} → Prog α → Prop where
  | pure {α : Type} (a : α) : Dealing (.done a)
  | bind {α β : Type} {p : Prog α} {f : α → Prog β} (first : Dealing p)
      (rest : ∀ a, Dealing (f a)) : Dealing (p >>= f)
  | ask {q : Question} (h : isDealing q = true) : Dealing (ask q)
  | request (server : Nat) {method : String} (params : Json)
      (other : method ≠ Connection.executeMethod) : Dealing (request server method params)
  /-- A call that is waited for no longer than the grace of a shutdown. -/
  | bid (server : Nat) {method : String} (params : Json)
      (other : method ≠ Connection.executeMethod) :
    Dealing (ask (.call server method params) >>= fun place => ask (.awaitBriefly server place))

/-- The handshake asks no command to be run. -/
theorem dealing_shakeHands (server : Nat) : Dealing (Lifecycle.shakeHands setup server) := by
  refine .bind (.request _ _ (by decide)) fun answer => ?_
  dsimp only
  split
  · exact .bind (.ask rfl) fun _ => .bind (.ask rfl) fun _ => .pure _
  · refine .bind (.ask rfl) fun sent => ?_
    split
    · exact .bind (.ask rfl) fun _ => .pure _
    · exact .bind (.ask rfl) fun _ => .pure _

/-- Neither does the launch with the handshake after it. -/
theorem dealing_bringUp : Dealing (Lifecycle.bringUp setup) := by
  refine .bind (.ask rfl) fun handler => .bind (.ask rfl) fun launched => ?_
  split
  · exact .pure _
  · refine .bind (dealing_shakeHands _) fun result => ?_
    split
    · exact .pure _
    · exact .pure _

theorem dealing_shutDown (server : Nat) : Dealing (Lifecycle.shutDown server) := by
  have rest : Dealing (do
      let _ ← ask (.notify server "exit" .null)
      ask (.terminate server)
      ask (.discard server)) :=
    .bind (.ask rfl) fun _ => .bind (.ask rfl) fun _ => .ask rfl
  -- the call and the wait for it are one part
  have bid : Dealing (do
      let place ← ask (.call server "shutdown" .null)
      ask (.awaitBriefly server place)) := .bid server .null (by decide)
  exact (Dealing.bind bid fun _ => rest :)

/-- Nothing is run while a server is taken down. -/
theorem dealing_shutDownCurrent : Dealing Lifecycle.shutDownCurrent := by
  refine .bind (.ask rfl) fun slot => ?_
  split
  · exact dealing_shutDown _
  · exact .pure ()

theorem dealing_contain (outcome : Except Fault Unit) : Dealing (Dispatch.contain outcome) := by
  cases outcome with
  | ok u => exact .pure ()
  | error fault => exact .ask rfl

/-! ## Commands and views -/

/-- How a program is put together. -/
inductive Composed (setup : Setup) : {α : Type} → Prog α → Prop where
  | pure {α : Type} (a : α) : Composed setup (.done a)
  | bind {α β : Type} {p : Prog α} {f : α → Prog β} (first : Composed setup p)
      (rest : ∀ a, Composed setup (f a)) : Composed setup (p >>= f)
  | plain {q : Question} (h : isPlain q = true) : Composed setup (ask q)
  | run (name : String) (arguments : List Json) : Composed setup (ask (.run name arguments))
  | executeOnServer {name : String} (arguments : List Json)
      (unknown : ClientCommand.knows name = false) :
    Composed setup (Dispatch.executeOnServer name arguments)
  | route {name : String} (arguments : List Json) (unknown : ClientCommand.knows name = false) :
    Composed setup (Dispatch.route name arguments)
  | reloadProject : Composed setup Dispatch.reloadProject
  | start : Composed setup (Lifecycle.start setup)
  | restart : Composed setup (Lifecycle.restart setup)

/-- What reports a failure is put together from parts. -/
theorem composed_contain (outcome : Except Fault Unit) :
    Composed setup (Dispatch.contain outcome) := by
  cases outcome with
  | ok u => exact .pure ()
  | error fault => exact .plain rfl

/-- A contained program is put together from parts if the program is. -/
theorem composed_contained {p : Prog (Except Fault Unit)} (h : Composed setup p) :
    Composed setup (Dispatch.contained p) :=
  .bind h fun outcome => .bind (composed_contain outcome) fun _ => .pure _

theorem composed_context : Composed setup Dispatch.context :=
  .bind (.plain rfl) fun _ => .pure _

/-- Calling back is one part: the command that was named. -/
theorem composed_callBack (name : String) (arguments : List Json) :
    Composed setup (Dispatch.callBack name arguments) :=
  .bind (.run name arguments) fun _ => .pure _

theorem composed_runInCli (prefill : Option String) :
    Composed setup (Dispatch.runInCli prefill) := by
  refine .bind (.plain rfl) fun typed => ?_
  cases typed with
  | error fault => exact .pure _
  | ok input =>
    cases input with
    | none => exact .pure _
    | some input =>
      show Composed setup (if Text.isBlankText input then _ else _)
      split
      · exact .pure _
      · exact .bind composed_context fun _ => .bind (.executeOnServer _ rfl) fun _ => .pure _

/-- The prompt and the callback after it are put together from parts. -/
theorem composed_getUserInput (options : InputBoxOptions) (callback : String) (tail : Json) :
    Composed setup (Dispatch.getUserInput options callback tail) := by
  refine .bind (.plain rfl) fun typed => ?_
  cases typed with
  | error fault => exact .pure _
  | ok input => exact .bind composed_context fun _ => composed_callBack _ _

/-- So are a forwarded command and its callback. -/
theorem composed_proxyCommand (command : String) (arguments : List Json) (callback : String)
    (tail : Json) : Composed setup (Dispatch.proxyCommand command arguments callback tail) := by
  refine .bind (.run command arguments) fun outcome => ?_
  cases outcome with
  | error fault => exact .pure _
  | ok result => exact .bind composed_context fun _ => composed_callBack _ _

/-- The outcome of a file question is its own part, whatever the question asks. -/
theorem composed_askFile {γ : Type} (uri : String) {q : Text.Bytes → Prog (Except IoKind γ)}
    (encode : γ → Json) (h : ∀ path, Composed setup (q path)) :
    Composed setup (Dispatch.askFile uri q encode) := by
  unfold Dispatch.askFile
  cases Uri.toPath? uri with
  | none => exact .pure _
  | some path =>
    refine .bind (h path) fun found => ?_
    cases found with
    | ok a => exact .pure _
    | error kind => exact .pure _

/-- Every client command is put together from parts. -/
theorem composed_run (command : ClientCommand) : Composed setup (Dispatch.run setup command) := by
  cases command with
  | reloadProject => exact .bind .reloadProject fun _ => .pure _
  | restartServer => exact .bind .restart fun _ => .pure _
  | runInCli prefill => exact composed_contained (composed_runInCli prefill)
  | getUserInput options callback tail =>
    exact composed_contained (composed_getUserInput options callback tail)
  | proxyCommand command arguments callback tail =>
    exact composed_contained (composed_proxyCommand command arguments callback tail)
  | openRelatedFile path => exact composed_contained (.plain rfl)
  | fileText uri =>
    exact .bind (composed_askFile uri _ fun _ => .plain rfl) fun _ => .pure _
  | fileStat uri =>
    exact .bind (composed_askFile uri _ fun _ => .plain rfl) fun _ => .pure _
  | directoryEntries uri =>
    exact .bind (composed_askFile uri _ fun _ => .plain rfl) fun _ => .pure _

/-- Whatever a command is, running it is composed. -/
theorem composed_execute (name : String) (arguments : List Json) :
    Composed setup (Dispatch.execute setup name arguments) := by
  unfold Dispatch.execute
  split
  · exact composed_run _
  · next unread => exact .route arguments ((ClientCommand.parse_none_iff ..).mp unread)
  · split
    · exact .bind (composed_contain _) fun _ => .pure _
    · split
      · exact .pure _
      · exact .pure _

/-- A view that asks a command of the server runs no client command itself. -/
theorem composed_list {γ : Type} (decode : Json → Option (List γ)) {command : String}
    (arguments : List Json) (unknown : ClientCommand.knows command = false) :
    Composed setup (View.list decode command arguments) := by
  refine .bind (.executeOnServer arguments unknown) fun outcome => ?_
  cases outcome with
  | ok answer => exact .pure _
  | error fault => exact .pure _

/-- The code lenses are put together from parts. -/
theorem composed_lenses (document : String) : Composed setup (View.lenses document) := by
  refine .bind (composed_list _ _ rfl) fun files => .bind (.plain rfl) fun cancelled => ?_
  split
  · exact .pure _
  · exact .pure _

theorem composed_kindUsages (document : String) : Composed setup (View.kindUsages document) :=
  .bind (composed_list _ _ rfl) fun _ => .pure _

/-- Jobs that leave the server alone or start it anew: all but activation and stop. -/
def Job.isComposed : Job → Bool
  | .activate | .stop => false
  | _ => true

/-- Every such job is put together from parts, the direct call of the server apart. -/
theorem composed_job {job : Job} (h : job.isComposed = true)
    (routed : ∀ name arguments, job ≠ .executeOnServer name arguments) :
    Composed setup (job.program setup) := by
  cases job with
  | activate | stop => contradiction
  | start => exact .bind .start fun _ => .pure _
  | restart => exact .bind .restart fun _ => .pure _
  | execute name arguments => exact .bind (composed_execute name arguments) fun _ => .pure _
  | executeOnServer name arguments => exact absurd rfl (routed name arguments)
  | lenses document => exact .bind (composed_lenses document) fun _ => .pure _
  | relatedFiles document =>
    exact .bind (.bind (composed_list _ _ rfl) fun _ => .pure _) fun _ => .pure _
  | kindUsages document => exact .bind (composed_kindUsages document) fun _ => .pure _
  | children follower =>
    refine .bind ?_ fun _ => .pure _
    unfold View.Follower.children
    split
    · exact composed_kindUsages _
    · exact .pure _

/-- Each answer to a request of the server is put together from parts. -/
theorem composed_answer (method : String) (params : Json) :
    Composed setup (Handler.answer setup method params) := by
  unfold Handler.answer
  split
  · split
    · exact .pure _
    · refine .bind (.run _ _) fun outcome => ?_
      cases outcome with
      | ok v => exact .pure _
      | error fault => exact .pure _
  · split
    · split
      · exact .pure _
      · exact .pure _
    · split
      · exact .pure _
      · exact .pure _

end Session

end EmberClient
