import EmberClient.Proofs.Session.Advertised
import EmberClient.Proofs.Session.Routing
import EmberClient.Proofs.Session.Shown

/-!
# Names are kept apart

Commands are run by their names, and names come from anywhere: the user, a callback, the
server. Which server is the current one may change at any time, so where a command belongs
is a question about one moment, the one at which its task looked into the slot.

What a server advertised stays as it was noted once the server was in the slot
(`advertised_of_current`). So what a task reads of it later is what was true at that moment,
and with what `Routes` says of every program, and `Leads.routed` of every command:

> `namespaces_kept_apart`: the editor is never asked for what belongs to the client or the
> server, no server for what is the client's, and every other command is exactly the errand
> that was its own at the moment it was routed.
-/

namespace EmberClient.Session

variable {setup : Setup} {files : FileSystem} {view : EditorView}
  {actions before between : List Action} {start s s' d d' : Session} {a : Action} {i : Nat}

/-! ## What the editor is made to do -/

/-- The editor runs a command when a task asks it to. -/
theorem asked_of_command {name : String} {arguments : List Json} (hstep : s.step a = some s')
    (shown : s'.shown = s.shown ++ [.command name arguments]) :
    ∃ task, s.question? task = some (.editorCommand name arguments) := by
  have shows := List.append_cancel_left ((shown_of_stride hstep).symm.trans shown)
  obtain ⟨⟨task, stride⟩, took, shows⟩ :=
    Option.bind_eq_some_iff.mp (Option.toList_eq_singleton_iff.mp shows)
  refine ⟨task, ?_⟩
  cases stride with
  | runs => contradiction
  | puts q =>
    have asked := asked_of_puts hstep took
    cases q with
    | editorCommand =>
      simp only [Stride.shows?, Question.shows?, Option.some.injEq, EditorEvent.command.injEq]
        at shows
      obtain ⟨rfl, rfl⟩ := shows
      exact asked
    | _ => exact absurd shows (by simp [Stride.shows?, Question.shows?])
  | told e =>
    -- a command of the editor's is put before it is answered
    obtain ⟨q, r⟩ := e
    cases q <;> exact absurd shows (by simp [Stride.shows?, Question.shows?, mustPut])

/-! ## Moments of routing -/

section

variable {task : Nat} {past more : List Exchange}

/-- Who looks for the current server is told what is in the slot. -/
theorem Hears.current {slot : Option Nat}
    (hears : Hears actions start task past ⟨.current, slot⟩ d d') : slot = d.slot := by
  obtain ⟨s₁, program, replied, -⟩ := hears.reply rfl (by simp)
  exact (replies_current (.own replied)).1

/-- What the server advertised that was found in the slot is told as it was then. -/
theorem advertised_of_hears {c c' : Session} {commands : List String}
    (first : Hears actions { setup, files, view } task past ⟨.current, some i⟩ d d')
    (later : Hears actions { setup, files, view } task (past ++ ⟨.current, some i⟩ :: more)
      ⟨.commands i, commands⟩ c c') :
    commands = d.advertised i := by
  obtain ⟨before, between, hbefore, hrun⟩ := first.earlier later
  obtain ⟨s₁, program, replied, -⟩ := later.reply rfl (by simp)
  obtain ⟨-, rfl⟩ := Prod.mk.inj (Option.some.inj replied)
  exact advertised_of_current hbefore first.current.symm hrun

end

/-- A task has found that a command is the editor's: the name is not under `els.`, and at
`d`, when it last looked for the current server, there was none, or one that had not
advertised it. -/
structure LeftToEditor (actions : List Action) (start : Session) (task : Nat) (name : String) :
    Prop where
  foreign : Command.isServerOwned name = false
  looked : ∃ past since d d',
    dialogue task actions start = past ++ ⟨.current, d.slot⟩ :: since ∧
      Hears actions start task past ⟨.current, d.slot⟩ d d' ∧
      (∀ slot, ⟨.current, slot⟩ ∉ since) ∧ errands since = [] ∧
      ∀ server, d.slot = some server → name ∉ d.advertised server

/-- Whoever asks the editor to run a command has found that it is the editor's. -/
theorem leftToEditor_of_asked (hrun : run actions { setup, files, view } = some s) {task : Nat}
    {name : String} {arguments : List Json}
    (asked : s.question? task = some (.editorCommand name arguments)) :
    LeftToEditor actions { setup, files, view } task name := by
  obtain ⟨t, next, here, question⟩ := task_of_question? asked
  obtain ⟨o, -, leads⟩ := (leads_of_run rfl hrun).leads task t here
  rw [question] at leads
  obtain ⟨⟨foreign, cleared⟩, -⟩ := (routes_origin o).leads (fun _ => .inl) leads
  refine ⟨foreign, ?_⟩
  rw [List.nil_append] at cleared
  generalize told : dialogue task actions { setup, files, view } = said at cleared
  -- the editor is asked after an empty slot, or after a server that does not have the command
  cases cleared with
  | vacant past =>
    obtain ⟨d, d', hears⟩ := hears_of_dialogue hrun told
    have slot := hears.current
    refine ⟨past, [], d, d', slot ▸ rfl, slot ▸ hears, by simp, rfl, ?_⟩
    exact fun server current => absurd (slot.trans current) (by simp)
  | @foreign past server commands unadvertised =>
    obtain ⟨d, d', hears⟩ := hears_of_dialogue hrun told
    have later : dialogue task actions { setup, files, view } =
        (past ++ [⟨.current, some server⟩]) ++ ⟨.commands server, commands⟩ :: [] := by
      rw [told, List.append_assoc]
      rfl
    obtain ⟨c, c', listed⟩ := hears_of_dialogue hrun later
    have slot := hears.current
    refine ⟨past, [⟨.commands server, commands⟩], d, d', slot ▸ rfl, slot ▸ hears, by simp, rfl, ?_⟩
    intro i current
    obtain rfl := Option.some.inj (slot.trans current)
    exact advertised_of_hears hears listed ▸ unadvertised

/-! ## Commands on their way -/

/-- A task runs a command by its name, at whatever depth: it came to do so when it was told
`past`, stands at `p` now or stood there once, and was told `inner` on the way. -/
structure Executes (actions : List Action) (start : Session) (task : Nat)
    (past inner : List Exchange) (name : String) (arguments : List Json)
    (p : Prog (Except Fault Json)) : Prop where
  begun : ∃ o next, (origins actions start)[task]? = some o ∧
    Leads start.setup (o.program start.setup) past
      (Dispatch.execute start.setup name arguments >>= next)
  told : past ++ inner <+: dialogue task actions start
  leads : Leads start.setup (Dispatch.execute start.setup name arguments) inner p

/-- A command is the errand that is its own when it is routed, whoever runs it. -/
theorem Executes.errand (hrun : run actions { setup, files, view } = some s) {task : Nat}
    {past inner : List Exchange} {name : String} {arguments : List Json}
    {p : Prog (Except Fault Json)} (unknown : ClientCommand.knows name = false)
    (executes : Executes actions { setup, files, view } task past inner name arguments p) :
    (inner = [] ∧ p = Dispatch.execute setup name arguments) ∨
      ∃ d d' errand, Hears actions { setup, files, view } task past ⟨.current, d.slot⟩ d d' ∧
        Belongs name arguments d.slot d.advertised errand ∧ Pursues errand inner p := by
  obtain ⟨-, ⟨future, told⟩, leads⟩ := executes
  -- it has been told nothing yet, or what is in the slot
  cases inner with
  | nil =>
    have nothing : ∀ server commands (more : List Exchange),
        [] = ⟨.current, some server⟩ :: ⟨.commands server, commands⟩ :: more →
          commands = s.advertised server := by simp
    rcases leads.routed unknown nothing with untold | ⟨_, _, _, same, -⟩
    · exact .inl untold
    · exact absurd same (by simp)
  | cons e rest =>
    rw [List.append_assoc] at told
    obtain ⟨d, d', hears⟩ := hears_of_dialogue hrun told.symm
    -- what the server advertises is asked for later, and is still what it was
    have listed : ∀ server commands more,
        e :: rest = ⟨.current, some server⟩ :: ⟨.commands server, commands⟩ :: more →
          commands = d.advertised server := by
      rintro server commands more same
      obtain ⟨rfl, rfl⟩ := List.cons.inj same
      have later : dialogue task actions { setup, files, view } =
          (past ++ [⟨.current, some server⟩]) ++ ⟨.commands server, commands⟩ :: (more ++ future) := by
        rw [← told, List.append_assoc]
        rfl
      obtain ⟨c, c', hears'⟩ := hears_of_dialogue hrun later
      exact advertised_of_hears hears hears'
    rcases leads.routed unknown listed with ⟨same, -⟩ | ⟨slot, rest', errand, same, belongs, pursues⟩
    · exact absurd same (by simp)
    · obtain ⟨rfl, rfl⟩ := List.cons.inj same
      have slot := hears.current
      exact .inr ⟨d, d', errand, slot ▸ hears, slot ▸ belongs, pursues⟩

/-- What a server is called to run is not a command of the client's, unless its task was
begun to have just that run there. -/
theorem sent_of_dialogue (hrun : run actions { setup, files, view } = some s) {task : Nat}
    {o : Origin} (begun : (origins actions { setup, files, view })[task]? = some o)
    {server place : Nat} {name : String} {arguments : List Json}
    (called : ⟨.call server Connection.executeMethod (Connection.executeParams name arguments),
      place⟩ ∈ dialogue task actions { setup, files, view }) : o.MaySend name := by
  obtain ⟨past, future, split⟩ := List.append_of_mem called
  obtain ⟨d, d', hears⟩ := hears_of_dialogue hrun split
  obtain ⟨next, leads⟩ := hears.stands rfl begun
  exact ((routes_origin o).leads (fun _ => .inl) leads).1 name arguments rfl rfl

/-- **Names are kept apart.** In every run of a session, whatever names the user, callbacks
and servers come up with, and however deep the commands that they name run others:

- The client knows its own commands by their names alone, and these are all under `els.`.
- The editor is only asked to run a command whose name is not under `els.`, by a task that
  has just looked for the current server and found none, or one that had not advertised the
  command then.
- No server is called to run a command of the client's own, even if it advertised it, unless
  that was what the task was begun for.
- A command that is not the client's is exactly one of these, wherever it is run: a call to the
  server that was the current one when it was routed, with the same name and arguments, if
  the name is under `els.` or that server advertised it; the same command of the editor's; or
  nothing at all, and a failure, if the name is under `els.` and there was no server.
- What a server is taken to have advertised is what its answer to the first request tells about
  commands. -/
theorem namespaces_kept_apart (hrun : run actions { setup, files, view } = some s) :
    (∀ name arguments,
      (ClientCommand.parse name arguments = .ok none ↔ ClientCommand.knows name = false) ∧
        (ClientCommand.knows name = true → Command.isServerOwned name = true)) ∧
    (∀ a s' name arguments, s.step a = some s' →
      s'.shown = s.shown ++ [.command name arguments] →
        ∃ task, s.question? task = some (.editorCommand name arguments) ∧
          LeftToEditor actions { setup, files, view } task name) ∧
    (∀ task o server place name arguments,
      (origins actions { setup, files, view })[task]? = some o →
      ⟨.call server Connection.executeMethod (Connection.executeParams name arguments), place⟩ ∈
        dialogue task actions { setup, files, view } →
      ClientCommand.knows name = false ∨
        ∃ given, o = .job (.executeOnServer name given)) ∧
    (∀ task past inner name arguments p, ClientCommand.knows name = false →
      Executes actions { setup, files, view } task past inner name arguments p →
      (inner = [] ∧ p = Dispatch.execute setup name arguments) ∨
        ∃ d d' errand, Hears actions { setup, files, view } task past ⟨.current, d.slot⟩ d d' ∧
          Belongs name arguments d.slot d.advertised errand ∧ Pursues errand inner p) ∧
    (∀ i, s.advertised i ≠ [] →
      Reported setup (connectionHistory i actions { setup, files, view }) (s.advertised i)) ∧
    ∀ answer capabilities result, setup.reader.read (.obj answer) = some result →
      .obj capabilities ∈ Json.valuesAt "capabilities" answer → ∃ provider,
        CommandProvider.Told capabilities provider ∧
          result.commands = (provider.map CommandProvider.commands).getD [] := by
  refine ⟨fun name arguments => ⟨ClientCommand.parse_none_iff name arguments, owned_of_knows⟩,
    ?_, ?_, ?_, fun _ => reported_of_run hrun, fun _ _ _ => told_of_read⟩
  · intro a s' name arguments hstep shown
    obtain ⟨task, asked⟩ := asked_of_command hstep shown
    exact ⟨task, asked, leftToEditor_of_asked hrun asked⟩
  · exact fun _ _ _ _ _ _ begun called => sent_of_dialogue hrun begun called
  · exact fun _ _ _ _ _ _ unknown executes => executes.errand hrun unknown

/-- A command is to be run that is not under `els.`. Before that a server comes up that has
advertised it. -/
def formatted : List Action :=
  List.flatten [[.begin (.execute "format" []), .begin .start], List.replicate 7 (.advance 1),
    [.launched 1 (.ok ()), .advance 1], List.replicate 4 (.connection 0 (.advance 0)),
    [.connection 0 (.receive (Frame.encode (.response (.ofNat 1) (.ok (.obj [("capabilities",
      .obj [("executeCommandProvider", .obj [("commands", .arr [.str "format"])])])]))))),
      .connection 0 .read, .connection 0 (.advance 0)],
    List.replicate 4 (.advance 1), List.replicate 3 (.advance 0)]

/-- The server that is called. -/
def Errand.server? : Errand → Option Nat
  | .call server _ _ => some server
  | .editor .. => none

/-- What a task is told that was begun to run a command is told to that command. -/
theorem executes_of_job (hrun : run actions { setup, files, view } = some s) {task : Nat}
    {name : String} {arguments : List Json}
    (begun : (origins actions { setup, files, view })[task]? =
      some (.job (.execute name arguments))) :
    ∃ p, Executes actions { setup, files, view } task []
      (dialogue task actions { setup, files, view }) name arguments p := by
  obtain ⟨t, -, leads⟩ := task_of_begun rfl hrun begun
  have whole : ∃ p, Leads setup (Dispatch.execute setup name arguments)
      (dialogue task actions { setup, files, view }) p := by
    rcases leads.of_bind with ⟨p, inside, -⟩ | ⟨outcome, first, second, split, gives, ends⟩
    · exact ⟨p, inside⟩
    · obtain ⟨rfl, -⟩ := ends.of_done
      rw [split, List.append_nil]
      exact ⟨_, gives⟩
  obtain ⟨p, leads⟩ := whole
  exact ⟨p, ⟨_, _, begun, .nothing⟩, List.prefix_refl _, leads⟩

/-- A command that the server has advertised goes to the server, though its name is not under
`els.`. -/
theorem namespaces_kept_apart_formatted :
    ∃ (s d : Session) (p : Prog (Except Fault Json)),
      run formatted { setup := bareSetup } = some s ∧
      Reported bareSetup (connectionHistory 0 formatted { setup := bareSetup }) ["format"] ∧
      Executes formatted { setup := bareSetup } 0 []
        (dialogue 0 formatted { setup := bareSetup }) "format" [] p ∧
      Belongs "format" [] d.slot d.advertised (some (.run 0 "format" [])) ∧
      errands (dialogue 0 formatted { setup := bareSetup }) = [.run 0 "format" []] := by
  -- one evaluation of the run for all that is read off it
  have facts : (run formatted { setup := bareSetup }).any
        (fun s => s.advertised 0 = ["format"]) = true ∧
      (errands (dialogue 0 formatted { setup := bareSetup })).map Errand.server? = [some 0] := by
    decide +kernel
  obtain ⟨there, called⟩ := facts
  obtain ⟨s, hrun, noted⟩ := (Option.any_eq_true _ _).mp there
  have noted := of_decide_eq_true noted
  have begun : (origins formatted { setup := bareSetup })[0]? =
      some (.job (.execute "format" [])) := by rfl
  obtain ⟨p, executes⟩ := executes_of_job hrun begun
  obtain ⟨-, -, -, routed, reported, -⟩ := namespaces_kept_apart hrun
  have reported := reported 0 (by simp [noted])
  rw [noted] at reported
  obtain ⟨errand, only, server⟩ := List.map_eq_singleton_iff.mp called
  rcases routed 0 [] _ _ _ p (by decide) executes with
    ⟨untold, -⟩ | ⟨d, d', sought, -, belongs, pursues⟩
  · rw [untold] at only
    contradiction
  · obtain rfl : sought = some errand := by
      have among := pursues.only
      rw [only] at among
      cases sought with
      | none => exact absurd among.length_le (by simp)
      | some other =>
        obtain ⟨rfl, -⟩ := List.cons_prefix_cons.mp among
        rfl
    cases belongs with
    | @toServer i current ours =>
      obtain rfl := Option.some.inj server
      exact ⟨s, d, p, hrun, reported, executes, .toServer current ours, only⟩
    | toEditor => contradiction

end EmberClient.Session
