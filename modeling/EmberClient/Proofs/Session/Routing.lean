import EmberClient.Proofs.Session.Own

/-!
# Where commands go

A command that the client does not run itself is sent away: to the current server, if its
name is under `els.` or the server advertised it, and to the editor otherwise. `Routes`
says of a program, whatever it is told, that it sends commands away no other way: the editor is
asked to run one right after it was found to belong to nobody else, and a server never to
run one of the client's own.

Any number of commands may be run on the way to one, by callbacks and by callbacks of
these. What a program asks after a command it ran says nothing about what it was told
before, so `Routes` starts anew there, and no depth of nesting needs a word of its own.

> `Leads.routed`: a command that is sent away is one errand or none, decided by the first
> reply and by what the server advertised.
-/

namespace EmberClient.Session

variable {setup : Setup} {α β : Type}

/-! ## Names -/

/-- The names of the client's own commands are under `els.`. -/
theorem owned_of_knows {name : String} (known : ClientCommand.knows name = true) :
    Command.isServerOwned name = true := by
  simp only [ClientCommand.knows, List.contains_eq_mem, List.mem_cons, List.not_mem_nil, or_false,
    decide_eq_true_eq] at known
  rcases known with rfl | rfl | rfl | rfl | rfl | rfl | rfl | rfl | rfl <;> decide

/-- A name that is no client command goes to be routed. -/
theorem execute_of_unknown {name : String} (unknown : ClientCommand.knows name = false)
    (arguments : List Json) :
    Dispatch.execute setup name arguments = Dispatch.route name arguments := by
  simp only [Dispatch.execute, (ClientCommand.parse_none_iff name arguments).mpr unknown]

/-- The parameters for running a command tell its name. -/
theorem executeParams_inj {name name' : String} {arguments arguments' : List Json}
    (same : Connection.executeParams name arguments = Connection.executeParams name' arguments') :
    name = name' ∧ arguments = arguments' := by
  have sorted (name : String) (arguments : List Json) : Connection.executeParams name arguments =
      .obj [("arguments", .arr arguments), ("command", .str name)] := rfl
  rw [sorted, sorted] at same
  simp only [Json.obj.injEq, List.cons.injEq, Prod.mk.injEq, Json.arr.injEq, Json.str.injEq,
    true_and, and_true] at same
  exact same.symm

/-! ## Errands -/

/-- What others are asked to do when a command is run. -/
inductive Errand where
  /-- A server is called. -/
  | call (server : Nat) (method : String) (params : Json)
  /-- The editor runs a command of its own. -/
  | editor (name : String) (arguments : List Json)

def Exchange.errand? : Exchange → Option Errand
  | ⟨.call server method params, _⟩ => some (.call server method params)
  | ⟨.editorCommand name arguments, _⟩ => some (.editor name arguments)
  | _ => none

/-- The errands in a dialogue, in order. -/
def errands (said : List Exchange) : List Errand := said.filterMap Exchange.errand?

/-- Have a server run this command with these arguments. -/
def Errand.run (server : Nat) (name : String) (arguments : List Json) : Errand :=
  .call server Connection.executeMethod (Connection.executeParams name arguments)

/-! ## How programs send commands away -/

/-- The last that was told: there is no current server, or there is one and this is not
among the commands that it advertised. -/
inductive Cleared (name : String) : List Exchange → Prop where
  | vacant (past : List Exchange) : Cleared name (past ++ [⟨.current, none⟩])
  | foreign (past : List Exchange) {server : Nat} {commands : List String}
      (unadvertised : name ∉ commands) :
    Cleared name (past ++ [⟨.current, some server⟩, ⟨.commands server, commands⟩])

/-- What cleared a name has cleared it with more before it. -/
theorem Cleared.after {name : String} {past : List Exchange} (cleared : Cleared name past)
    (before : List Exchange) : Cleared name (before ++ past) := by
  cases cleared with
  | vacant past =>
    rw [← List.append_assoc]
    exact .vacant _
  | foreign past unadvertised =>
    rw [← List.append_assoc]
    exact .foreign _ unadvertised

/-- What a program may ask that was told this, and may have servers run commands with such
names. -/
def Question.Routes (may : String → Prop) (past : List Exchange) : Question → Prop
  | .editorCommand name _ => Command.isServerOwned name = false ∧ Cleared name past
  | .call _ method params => ∀ name arguments, method = Connection.executeMethod →
    params = Connection.executeParams name arguments → may name
  | _ => True

/-- Whatever it is told, the program asks the editor for commands that belong to nobody else,
and servers for such as it may. -/
def Routes (may : String → Prop) {α : Type} : List Exchange → Prog α → Prop
  | _, .done _ => True
  | past, .ask q next =>
    q.Routes may past ∧ ∀ r, Routes may (if q.isRun then [] else past ++ [⟨q, r⟩]) (next r)

variable {may : String → Prop}

theorem Question.Routes.after {past : List Exchange} {q : Question} (routes : q.Routes may past)
    (before : List Exchange) : q.Routes may (before ++ past) := by
  cases q with
  | editorCommand name arguments => exact ⟨routes.1, routes.2.after before⟩
  | _ => exact routes

/-- A program that routes as it may does so with a longer past. -/
theorem Routes.after {past : List Exchange} {p : Prog α} (routes : Routes may past p)
    (before : List Exchange) : Routes may (before ++ past) p := by
  induction p generalizing past with
  | done a => trivial
  | ask q next ih =>
    refine ⟨routes.1.after before, fun r => ?_⟩
    have rest := routes.2 r
    split at rest
    · next run => rwa [if_pos run]
    · next plain =>
      rw [if_neg plain, List.append_assoc]
      exact ih r rest

/-- Whatever was said before a program takes nothing from what it may route. -/
theorem Routes.anew {p : Prog α} (routes : Routes may [] p) (past : List Exchange) :
    Routes may past p :=
  List.append_nil past ▸ routes.after past

/-- Programs that route as they may do so in a row. -/
theorem routes_bind {past : List Exchange} {p : Prog α} {f : α → Prog β}
    (first : Routes may past p) (rest : ∀ a, Routes may [] (f a)) : Routes may past (p >>= f) := by
  induction p generalizing past with
  | done a => exact (rest a).anew past
  | ask q next ih => exact ⟨first.1, fun r => ih r (first.2 r)⟩

theorem routes_pure (a : α) : Routes may [] (.done a : Prog α) := trivial

/-- A question that needs no permission routes nothing. -/
theorem routes_ask {q : Question} (calm : q.Routes may []) : Routes may [] (ask q) :=
  ⟨calm, fun _ => trivial⟩

/-- A request is allowed unless it carries a command that is not. -/
theorem routes_request {server : Nat} {method : String} {params : Json}
    (allowed : ∀ name arguments, method = Connection.executeMethod →
      params = Connection.executeParams name arguments → may name) :
    Routes may [] (request server method params) :=
  ⟨allowed, fun _ => ⟨trivial, fun _ => trivial⟩⟩

/-- A server may be had run a command that may be run there. -/
theorem routes_execute {name : String} (allowed : may name) (server : Nat)
    (arguments : List Json) : Routes may [] (Lifecycle.execute server name arguments) := by
  refine routes_request fun name' arguments' _ same => ?_
  obtain ⟨rfl, -⟩ := executeParams_inj same
  exact allowed

/-- Sending an allowed command to the server is allowed. -/
theorem routes_executeOnServer {name : String} (allowed : may name) (arguments : List Json) :
    Routes may [] (Dispatch.executeOnServer name arguments) := by
  refine routes_bind (routes_ask trivial) fun slot => ?_
  split
  · exact routes_pure _
  · exact routes_execute allowed _ arguments

/-- What is routed is sent to the editor only if it is nobody else's. -/
theorem routes_route {name : String} (allowed : may name) (arguments : List Json) :
    Routes may [] (Dispatch.route name arguments) := by
  refine ⟨trivial, fun slot => ?_⟩
  cases slot with
  | none =>
    show Routes may [⟨.current, none⟩] (if Command.isServerOwned name then _ else _)
    split
    · trivial
    · next foreign => exact ⟨⟨eq_false_of_ne_true foreign, .vacant []⟩, fun _ => trivial⟩
  | some server =>
    show Routes may [⟨.current, some server⟩] (Dispatch.belongsTo server name >>= fun belongs => _)
    unfold Dispatch.belongsTo
    split
    · exact (routes_execute allowed server arguments).anew _
    · next foreign =>
      refine ⟨trivial, fun commands => ?_⟩
      show Routes may [⟨.current, some server⟩, ⟨.commands server, commands⟩]
        (if commands.contains name then _ else _)
      split
      · exact (routes_execute allowed server arguments).anew _
      · next unadvertised =>
        refine ⟨⟨eq_false_of_ne_true foreign, .foreign [] ?_⟩, fun _ => trivial⟩
        simpa using unadvertised

/-! ## Programs -/

theorem routes_of_plain {q : Question} (h : isPlain q = true) : q.Routes may [] := by
  cases q with
  | call | editorCommand => exact absurd h (by simp [isPlain])
  | _ => trivial

/-- Who deals with servers has nothing run. -/
theorem routes_of_dealing {p : Prog α} (h : Dealing p) : Routes may [] p := by
  induction h with
  | pure a => exact routes_pure a
  | bind first rest ihFirst ihRest => exact routes_bind ihFirst ihRest
  | @ask q h =>
    refine routes_ask ?_
    cases q with
    | call | editorCommand => exact absurd h (by simp [isDealing, isPlain])
    | _ => trivial
  | request server params other => exact routes_request fun _ _ same => absurd same other
  | bid server params other =>
    exact ⟨fun _ _ same => absurd same other, fun _ => ⟨trivial, fun _ => trivial⟩⟩

/-- A start sends the settings, whose name is no client command. -/
theorem routes_startLocked (allowed : ∀ name, ClientCommand.knows name = false → may name) :
    Routes may [] (Lifecycle.startLocked setup) := by
  refine routes_bind (routes_ask trivial) fun state => ?_
  split
  · exact routes_pure _
  · refine routes_bind (routes_ask trivial) fun _ => routes_bind (routes_ask trivial) fun _ => ?_
    refine routes_bind (routes_of_dealing dealing_bringUp) fun result => ?_
    split
    · exact routes_bind (routes_ask trivial) fun _ =>
        routes_bind (routes_ask trivial) fun _ => routes_pure _
    · refine routes_bind (routes_ask trivial) fun _ => routes_bind (routes_ask trivial) fun _ => ?_
      refine routes_bind (routes_execute (allowed _ rfl) _ _) fun _ => ?_
      exact routes_bind (routes_ask trivial) fun _ =>
        routes_bind (routes_ask trivial) fun _ => routes_pure _

theorem routes_locked {p : Prog α} (h : Routes may [] p) : Routes may [] (Lifecycle.locked p) :=
  routes_bind (routes_ask trivial) fun _ => routes_bind h fun _ =>
    routes_bind (routes_ask trivial) fun _ => routes_pure _

theorem routes_restart (allowed : ∀ name, ClientCommand.knows name = false → may name) :
    Routes may [] (Lifecycle.restart setup) := by
  refine routes_locked (routes_bind (routes_ask trivial) fun state => ?_)
  split
  · exact routes_pure _
  · refine routes_bind (routes_ask trivial) fun _ => ?_
    exact routes_bind (routes_of_dealing dealing_shutDownCurrent) fun _ => routes_startLocked allowed

/-- All that is composed sends commands away as it should. -/
theorem routes_of_composed (allowed : ∀ name, ClientCommand.knows name = false → may name)
    {p : Prog α} (h : Composed setup p) : Routes may [] p := by
  -- along how the program is put together
  induction h with
  | pure a => exact routes_pure a
  | bind first rest ihFirst ihRest => exact routes_bind ihFirst ihRest
  | plain h => exact routes_ask (routes_of_plain h)
  | run name arguments => exact routes_ask trivial
  | executeOnServer arguments unknown => exact routes_executeOnServer (allowed _ unknown) arguments
  | route arguments unknown => exact routes_route (allowed _ unknown) arguments
  | reloadProject =>
    refine routes_bind (routes_ask trivial) fun _ => ?_
    refine routes_bind (routes_executeOnServer (allowed _ rfl) _) fun _ => ?_
    exact routes_bind (routes_ask trivial) fun _ => routes_of_dealing (dealing_contain _)
  | start => exact routes_locked (routes_startLocked allowed)
  | restart => exact routes_restart allowed

/-- Activation is a start. -/
theorem routes_activate (allowed : ∀ name, ClientCommand.knows name = false → may name) :
    Routes may [] (activate setup) := by
  refine routes_bind (routes_ask trivial) fun found => ?_
  split
  · refine routes_bind (routes_ask trivial) fun _ => ?_
    dsimp only
    split
    · refine routes_bind (routes_ask trivial) fun _ => ?_
      exact routes_bind (routes_locked (routes_startLocked allowed)) fun _ => routes_pure _
    · exact routes_bind (routes_locked (routes_startLocked allowed)) fun _ => routes_pure _
  · exact routes_pure _

/-- A watcher sends no command at all. -/
theorem routes_watchExit (server : Nat) : Routes may [] (Lifecycle.watchExit server) := by
  refine routes_bind (routes_ask trivial) fun _ => routes_bind (routes_ask trivial) fun mine => ?_
  split
  · refine routes_bind (routes_ask trivial) fun _ => routes_bind (routes_ask trivial) fun _ => ?_
    refine routes_bind (routes_ask trivial) fun _ => routes_bind (routes_ask trivial) fun _ => ?_
    exact routes_bind (routes_ask trivial) fun _ => routes_ask trivial
  · exact routes_pure _

/-! ## Tasks -/

/-- The commands that a task may have servers run: those that are not the client's, and the
one that it was begun to run there, whatever its name. -/
def Origin.MaySend (o : Origin) (name : String) : Prop :=
  ClientCommand.knows name = false ∨ ∃ arguments, o = .job (.executeOnServer name arguments)

/-- Whatever began a task, the commands it sends are among those it may send. -/
theorem routes_origin (o : Origin) : Routes o.MaySend [] (o.program setup) := by
  have allowed : ∀ name, ClientCommand.knows name = false → o.MaySend name := fun _ => .inl
  cases o with
  | job work =>
    show Routes (Origin.MaySend _) [] (work.program setup)
    cases work with
    | activate => exact routes_bind (routes_activate allowed) fun _ => routes_pure _
    | stop =>
      refine routes_bind (routes_locked ?_) fun _ => routes_pure _
      exact routes_bind (routes_of_dealing dealing_shutDownCurrent) fun _ => routes_ask trivial
    | executeOnServer name arguments =>
      refine routes_bind (routes_executeOnServer ?_ arguments) fun _ => routes_pure _
      exact .inr ⟨arguments, rfl⟩
    | _ => exact routes_of_composed allowed (composed_job rfl (by simp))
  | watcher server => exact routes_bind (routes_watchExit server) fun _ => routes_pure _
  | request server place method params =>
    refine routes_bind ?_ fun _ => routes_pure _
    refine routes_bind (routes_of_composed allowed (composed_answer method params)) fun _ => ?_
    exact routes_ask trivial

/-- What a program was told in a dialogue is known at its end. -/
theorem Routes.leads (allowed : ∀ name, ClientCommand.knows name = false → may name)
    {past said : List Exchange} {p q : Prog α} (routes : Routes may past p)
    (leads : Leads setup p said q) : Routes may (past ++ said) q := by
  induction leads with
  | nothing => rwa [List.append_nil]
  | @told said q next before plain r ih =>
    have rest := ih.2 r
    rw [plain] at rest
    rw [← List.append_assoc]
    exact rest
  | @runs said name arguments next before ih =>
    have composed : Composed setup (Dispatch.execute setup name arguments) :=
      composed_execute name arguments
    exact routes_bind ((routes_of_composed allowed composed).anew _) ih.2

/-! ## Commands that are sent away -/

/-- Where a command belongs that is not the client's, given the current server and what
servers advertised. No two of the three are possible at once. -/
inductive Belongs (name : String) (arguments : List Json) (slot : Option Nat)
    (advertised : Nat → List String) : Option Errand → Prop where
  | toServer {server : Nat} (current : slot = some server)
      (ours : Command.isServerOwned name = true ∨ name ∈ advertised server) :
    Belongs name arguments slot advertised (some (.run server name arguments))
  | toEditor (foreign : Command.isServerOwned name = false)
      (unadvertised : ∀ server, slot = some server → name ∉ advertised server) :
    Belongs name arguments slot advertised (some (.editor name arguments))
  | nowhere (vacant : slot = none) (owned : Command.isServerOwned name = true) :
    Belongs name arguments slot advertised none

/-- The outcome is what came of the errand; without one it is that no server is running. -/
def Yields (said : List Exchange) (outcome : Except Fault Json) : Option Errand → Prop
  | none => outcome = .error .notRunning
  | some (.editor name arguments) => ⟨.editorCommand name arguments, outcome⟩ ∈ said
  | some (.call server method params) =>
    ∃ place, ⟨.call server method params, place⟩ ∈ said ∧ ⟨.await server place, outcome⟩ ∈ said

/-- A program is on this errand, if it is one, and on no other: in the dialogue there is
nothing else, and when the program is done, it is there. -/
structure Pursues (errand : Option Errand) (said : List Exchange) (p : Prog (Except Fault Json)) :
    Prop where
  only : errands said <+: errand.toList
  done : ∀ outcome, p = .done outcome → errands said = errand.toList ∧ Yields said outcome errand

variable {said : List Exchange} {p : Prog (Except Fault Json)} {errand : Option Errand}
  {name : String} {arguments : List Json}

/-- It has not set out yet. -/
theorem pursues_idle {q : Question} {next : q.Reply → Prog (Except Fault Json)}
    (idle : errands said = []) : Pursues errand said (.ask q next) :=
  ⟨idle ▸ List.nil_prefix, fun _ same => absurd same (by simp)⟩

/-- What it asked first was no errand. -/
theorem Pursues.cons {e : Exchange} (pursues : Pursues errand said p)
    (aside : e.errand? = none) : Pursues errand (e :: said) p := by
  have same : errands (e :: said) = errands said := List.filterMap_cons_none aside
  refine ⟨same ▸ pursues.only, fun outcome done => ?_⟩
  obtain ⟨all, yields⟩ := pursues.done outcome done
  refine ⟨same.trans all, ?_⟩
  cases errand with
  | none => exact yields
  | some errand =>
    cases errand with
    | call server method params =>
      obtain ⟨place, called, ended⟩ := yields
      exact ⟨place, List.mem_cons_of_mem _ called, List.mem_cons_of_mem _ ended⟩
    | editor name arguments => exact List.mem_cons_of_mem _ yields

/-- What was handed to the editor is pursued there and nowhere else. -/
theorem pursues_editor (leads : Leads setup (ask (.editorCommand name arguments)) said p) :
    Pursues (some (.editor name arguments)) said p := by
  rcases leads.of_ask rfl with ⟨rfl, rfl⟩ | ⟨r, rfl, rfl⟩
  · exact pursues_idle rfl
  · refine ⟨List.prefix_rfl, fun outcome done => ⟨rfl, ?_⟩⟩
    obtain rfl := Program.done.inj done
    exact List.mem_singleton_self _

/-- What was sent to a server is pursued there and nowhere else. -/
theorem pursues_run {server : Nat} (leads : Leads setup (Lifecycle.execute server name arguments) said p) :
    Pursues (some (.run server name arguments)) said p := by
  rcases leads.of_first rfl with ⟨rfl, rfl⟩ | ⟨place, rest, rfl, goes⟩
  · exact pursues_idle rfl
  · rcases goes.of_ask rfl with ⟨rfl, rfl⟩ | ⟨r, rfl, rfl⟩
    · exact ⟨List.prefix_rfl, fun outcome done => absurd done (by simp [ask, Program.question])⟩
    · refine ⟨List.prefix_rfl, fun outcome done => ⟨rfl, place, by simp, ?_⟩⟩
      obtain rfl := Program.done.inj done
      simp

/-- With a server in the slot a command is sent to it or to the editor. -/
theorem pursues_of_current {server : Nat} {advertised : Nat → List String}
    (leads : Leads setup (do
      if ← Dispatch.belongsTo server name then Lifecycle.execute server name arguments
      else ask (.editorCommand name arguments)) said p)
    (told : ∀ commands rest, said = ⟨.commands server, commands⟩ :: rest →
      commands = advertised server) :
    ∃ errand, Belongs name arguments (some server) advertised errand ∧ Pursues errand said p := by
  unfold Dispatch.belongsTo at leads
  split at leads
  · next owned => exact ⟨_, .toServer rfl (.inl owned), pursues_run leads⟩
  · next foreign =>
    have foreign := eq_false_of_ne_true foreign
    -- a name of the server's own namespace is not looked up; any other goes by what is advertised
    by_cases ours : name ∈ advertised server
    · refine ⟨_, .toServer rfl (.inr ours), ?_⟩
      rcases leads.of_first rfl with ⟨rfl, rfl⟩ | ⟨commands, rest, rfl, goes⟩
      · exact pursues_idle rfl
      · obtain rfl := told commands rest rfl
        have goes : Leads setup (if (advertised server).contains name then _ else _) rest p := goes
        rw [if_pos (by simpa using ours)] at goes
        exact (pursues_run goes).cons rfl
    · refine ⟨_, .toEditor foreign (fun _ same => Option.some.inj same ▸ ours), ?_⟩
      rcases leads.of_first rfl with ⟨rfl, rfl⟩ | ⟨commands, rest, rfl, goes⟩
      · exact pursues_idle rfl
      · obtain rfl := told commands rest rfl
        have goes : Leads setup (if (advertised server).contains name then _ else _) rest p := goes
        rw [if_neg (by simpa using ours)] at goes
        exact (pursues_editor goes).cons rfl

/-- A command that is not the client's is one errand or none, and which is decided by who
is the current server when the first question is replied. -/
theorem Leads.routed {advertised : Nat → List String} (unknown : ClientCommand.knows name = false)
    (leads : Leads setup (Dispatch.execute setup name arguments) said p)
    (told : ∀ server commands rest,
      said = ⟨.current, some server⟩ :: ⟨.commands server, commands⟩ :: rest →
        commands = advertised server) :
    (said = [] ∧ p = Dispatch.execute setup name arguments) ∨
      ∃ slot rest errand, said = ⟨.current, slot⟩ :: rest ∧
        Belongs name arguments slot advertised errand ∧ Pursues errand said p := by
  rw [execute_of_unknown unknown] at leads ⊢
  -- the first question is for what is in the slot
  rcases leads.of_first rfl with untold | ⟨slot, rest, rfl, goes⟩
  · exact .inl untold
  · refine .inr ⟨slot, rest, ?_⟩
    cases slot with
    | some server =>
      obtain ⟨errand, belongs, pursues⟩ :=
        pursues_of_current goes fun commands rest same => told server commands rest (same ▸ rfl)
      exact ⟨errand, rfl, belongs, pursues.cons rfl⟩
    | none =>
      have goes : Leads setup (if Command.isServerOwned name then _ else _) rest p := goes
      split at goes
      · next owned =>
        obtain ⟨rfl, rfl⟩ := goes.of_done
        refine ⟨none, rfl, .nowhere rfl owned, List.prefix_rfl, fun outcome done => ⟨rfl, ?_⟩⟩
        exact (Program.done.inj done).symm
      · next foreign =>
        refine ⟨_, rfl, .toEditor (eq_false_of_ne_true foreign) (by simp), ?_⟩
        exact (pursues_editor goes).cons rfl

end EmberClient.Session
