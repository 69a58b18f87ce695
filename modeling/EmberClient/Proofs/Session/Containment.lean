import EmberClient.Proofs.Session.Own

/-!
# Failures are contained

A command of the client's that is interactive, or looks at files, never fails outward:
whatever it lacks, and whatever the editor, the disk, a server or a command that it runs
comes to, it yields null, or what was found. Three tables have to agree for that, the names
that are read, the names whose failures are shown and those whose failures are silent
(`parse_fits`), and each command has to contain its own failures (`Gives.contained`,
`Gives.askFile`). What a callback or a proxied command comes to is in the dialogue
like everything else, so no depth of nesting needs a word of its own.

> `failures_contained`: so no such command yields a failure to whoever ran it, be it the
> editor, another command, or a server.
-/

namespace EmberClient

namespace ClientCommand

/-- Commands whose failures are shown. -/
def isInteractive : ClientCommand → Bool
  | .runInCli _ | .getUserInput .. | .proxyCommand .. | .openRelatedFile _ => true
  | _ => false

/-- Commands whose failures are null. -/
def looksAtFiles : ClientCommand → Bool
  | .fileText _ | .fileStat _ | .directoryEntries _ => true
  | _ => false

/-- What may be read when this is the name. -/
def Fits (name : String) : Except Fault (Option ClientCommand) → Prop
  | .ok (some command) =>
    (Command.isInteractive name = true → command.isInteractive = true) ∧
      (Command.isFileSystem name = true → command.looksAtFiles = true)
  | .ok none => Command.isInteractive name = false ∧ Command.isFileSystem name = false
  | .error _ => Command.isInteractive name = true ∨ Command.isFileSystem name = true

/-- An argument that does not fit is a fault only where faults are contained. -/
theorem fits_bind {name : String} {α : Type} {argument : Except Fault α}
    {read : α → Except Fault (Option ClientCommand)}
    (contained : Command.isInteractive name = true ∨ Command.isFileSystem name = true)
    (fits : ∀ a, Fits name (read a)) : Fits name (argument >>= read) := by
  cases argument with
  | ok a => exact fits a
  | error fault => exact contained

/-- The tables of names agree. -/
theorem parse_fits (name : String) (arguments : List Json) : Fits name (parse name arguments) := by
  unfold parse
  split_ifs with bar restart cli input proxy related text stat entries
  · subst bar
    exact ⟨by decide, by decide⟩
  · subst restart
    exact ⟨by decide, by decide⟩
  · subst cli
    exact ⟨fun _ => rfl, fun other => absurd other (by decide)⟩
  · subst input
    refine fits_bind (.inl rfl) fun _ => fits_bind (.inl rfl) fun _ => ?_
    exact ⟨fun _ => rfl, fun other => absurd other (by decide)⟩
  · subst proxy
    refine fits_bind (.inl rfl) fun _ => fits_bind (.inl rfl) fun _ => ?_
    exact ⟨fun _ => rfl, fun other => absurd other (by decide)⟩
  · subst related
    exact fits_bind (.inl rfl) fun _ => ⟨fun _ => rfl, fun other => absurd other (by decide)⟩
  · subst text
    exact fits_bind (.inr rfl) fun _ => ⟨fun other => absurd other (by decide), fun _ => rfl⟩
  · subst stat
    exact fits_bind (.inr rfl) fun _ => ⟨fun other => absurd other (by decide), fun _ => rfl⟩
  · subst entries
    exact fits_bind (.inr rfl) fun _ => ⟨fun other => absurd other (by decide), fun _ => rfl⟩
  · -- a name that is none of these is of neither kind
    constructor
    · simp [Command.isInteractive, cli, input, proxy, related]
    · simp [Command.isFileSystem, text, stat, entries]

end ClientCommand

namespace Session

variable {setup : Setup} {said : List Exchange}

/-! ## Interactive commands -/

/-- Whatever comes of a program whose failures are shown, it yields null. -/
theorem Gives.contained {p : Prog (Except Fault Unit)} {outcome : Except Fault Json}
    (comes : Gives setup (Dispatch.contained p) said outcome) : outcome = .ok .null := by
  obtain ⟨_, _, _, -, -, comes⟩ := comes.of_bind
  obtain ⟨_, _, _, -, -, comes⟩ := comes.of_bind
  exact comes.of_done.2

theorem Gives.interactive {command : ClientCommand} {outcome : Except Fault Json}
    (interactive : command.isInteractive = true)
    (comes : Gives setup (Dispatch.run setup command) said outcome) : outcome = .ok .null := by
  cases command with
  | runInCli | getUserInput | proxyCommand | openRelatedFile => exact comes.contained
  | _ => contradiction

/-! ## Commands that look at files -/

/-- Questions about a file. -/
def Question.looksAtFile : Question → Bool
  | .content _ | .stat _ | .entries _ => true
  | _ => false

/-- A question about a file that found no answer. -/
def Exchange.foundNothing : Exchange → Bool
  | ⟨.content _, .error _⟩ | ⟨.stat _, .error _⟩ | ⟨.entries _, .error _⟩ => true
  | _ => false

/-- What a look at files comes to: at most one question, about a file, and null if none
was asked or it found no answer. -/
def Looks (said : List Exchange) (v : Json) : Prop :=
  (said = [] ∧ v = .null) ∨
    ∃ e, said = [e] ∧ e.question.looksAtFile = true ∧ (e.foundNothing = true → v = .null)

theorem Gives.askFile {γ : Type} {uri : String} {q : Text.Bytes → Prog (Except IoKind γ)}
    {encode : γ → Json} {v : Json}
    (asks : ∀ path said found, Gives setup (q path) said found →
      ∃ e, said = [e] ∧ e.question.looksAtFile = true ∧
        (e.foundNothing = true → ∃ kind, found = .error kind))
    (comes : Gives setup (Dispatch.askFile uri q encode) said v) : Looks said v := by
  unfold Dispatch.askFile at comes
  split at comes
  · exact .inl comes.of_done
  · obtain ⟨found, first, second, rfl, asked, comes⟩ := comes.of_bind
    obtain ⟨e, rfl, file, nothing⟩ := asks _ first found asked
    cases found with
    | ok a =>
      obtain ⟨rfl, rfl⟩ := comes.of_done
      refine .inr ⟨e, rfl, file, fun failed => ?_⟩
      obtain ⟨kind, wrong⟩ := nothing failed
      contradiction
    | error kind =>
      obtain ⟨rfl, rfl⟩ := comes.of_done
      exact .inr ⟨e, rfl, file, fun _ => rfl⟩

/-- What a question about a file is replied with, is found or not. -/
theorem Gives.looks {command : ClientCommand} {outcome : Except Fault Json}
    (looks : command.looksAtFiles = true)
    (comes : Gives setup (Dispatch.run setup command) said outcome) :
    ∃ v, outcome = .ok v ∧ Looks said v := by
  -- the three commands look at a file in one way, and differ in what they ask
  have wrapped {γ : Type} {uri : String} {q : Text.Bytes → Prog (Except IoKind γ)}
      {encode : γ → Json}
      (asks : ∀ path said found, Gives setup (q path) said found →
        ∃ e, said = [e] ∧ e.question.looksAtFile = true ∧
          (e.foundNothing = true → ∃ kind, found = .error kind))
      (comes : Gives setup (do return .ok (← Dispatch.askFile uri q encode)) said outcome) :
      ∃ v, outcome = .ok v ∧ Looks said v := by
    obtain ⟨v, first, second, rfl, asked, comes⟩ := comes.of_bind
    obtain ⟨rfl, rfl⟩ := comes.of_done
    rw [List.append_nil]
    exact ⟨v, rfl, asked.askFile asks⟩
  cases command with
  | fileText uri =>
    refine wrapped (fun path said found comes => ⟨_, comes.question rfl, rfl, ?_⟩) comes
    cases found <;> simp [Exchange.foundNothing]
  | fileStat uri =>
    refine wrapped (fun path said found comes => ⟨_, comes.question rfl, rfl, ?_⟩) comes
    cases found <;> simp [Exchange.foundNothing]
  | directoryEntries uri =>
    refine wrapped (fun path said found comes => ⟨_, comes.question rfl, rfl, ?_⟩) comes
    cases found <;> simp [Exchange.foundNothing]
  | _ => contradiction

/-! ## By name -/

/-- A command whose failures are shown yields null. -/
theorem Gives.executeInteractive {name : String} {arguments : List Json}
    {outcome : Except Fault Json} (interactive : Command.isInteractive name = true)
    (comes : Gives setup (Dispatch.execute setup name arguments) said outcome) :
    outcome = .ok .null := by
  have fits := ClientCommand.parse_fits name arguments
  unfold Dispatch.execute at comes
  split at comes
  · next command read =>
    rw [read] at fits
    exact comes.interactive (fits.1 interactive)
  · next read =>
    rw [read] at fits
    exact absurd (interactive.symm.trans fits.1) (by simp)
  · rw [if_pos interactive] at comes
    obtain ⟨_, _, _, -, -, comes⟩ := comes.of_bind
    exact comes.of_done.2

/-- A command that looks at files yields what it finds, or null. -/
theorem Gives.executeFileSystem {name : String} {arguments : List Json}
    {outcome : Except Fault Json} (fileSystem : Command.isFileSystem name = true)
    (comes : Gives setup (Dispatch.execute setup name arguments) said outcome) :
    ∃ v, outcome = .ok v ∧ Looks said v := by
  have fits := ClientCommand.parse_fits name arguments
  have silent : Command.isInteractive name = false := by
    simp only [Command.isFileSystem, List.contains_eq_mem, List.mem_cons, List.not_mem_nil,
      or_false, decide_eq_true_eq] at fileSystem
    rcases fileSystem with rfl | rfl | rfl <;> decide
  unfold Dispatch.execute at comes
  split at comes
  · next command read =>
    rw [read] at fits
    exact comes.looks (fits.2 fileSystem)
  · next read =>
    rw [read] at fits
    exact absurd (fileSystem.symm.trans fits.2) (by simp)
  · rw [silent, if_neg (by simp), if_pos fileSystem] at comes
    obtain ⟨rfl, rfl⟩ := comes.of_done
    exact ⟨.null, rfl, .inl ⟨rfl, rfl⟩⟩

/-- What a command with this name may come to, as far as the name tells. -/
structure Contained (name : String) (said : List Exchange) (outcome : Except Fault Json) :
    Prop where
  interactive : Command.isInteractive name = true → outcome = .ok .null
  fileSystem : Command.isFileSystem name = true → ∃ v, outcome = .ok v ∧ Looks said v

theorem Gives.executeContained {name : String} {arguments : List Json}
    {outcome : Except Fault Json}
    (comes : Gives setup (Dispatch.execute setup name arguments) said outcome) :
    Contained name said outcome :=
  ⟨fun interactive => comes.executeInteractive interactive,
    fun fileSystem => comes.executeFileSystem fileSystem⟩

/-- A server that asks for such a command gets a result. -/
theorem Gives.answerContained {params : Json} {command : String} {arguments : List Json}
    {outcome : Outcome} (readable : Handler.executeParams? params = some (command, arguments))
    (contained : Command.isInteractive command = true ∨ Command.isFileSystem command = true)
    (comes : Gives setup (Handler.answer setup Connection.executeMethod params) said outcome) :
    ∃ v, outcome = .ok v := by
  rw [Handler.answer, if_pos rfl, readable] at comes
  obtain ⟨ran, first, second, rfl, inside, comes⟩ := comes.of_run
  have fine : ∃ v, ran = .ok v := by
    rcases contained with interactive | fileSystem
    · exact ⟨_, inside.executeInteractive interactive⟩
    · obtain ⟨v, same, -⟩ := inside.executeFileSystem fileSystem
      exact ⟨v, same⟩
  obtain ⟨v, rfl⟩ := fine
  exact ⟨v, comes.of_done.2⟩

/-! ## In every run -/

/-- A look at a file leaves everything in a session as it was. -/
theorem reply_of_looksAtFile {s s₁ : Session} {task : Nat} {q : Question} {r : q.Reply}
    (file : q.looksAtFile = true) (replied : s.reply task q = some (s₁, r)) : s₁ = s := by
  cases q with
  | content | stat | entries => exact (Prod.mk.inj (Option.some.inj replied)).1.symm
  | _ => contradiction

/-- Whatever a command of the client's is asked for and whatever its editor, its disk, its server and the
commands that it runs come to, its failures stay inside.

* A name whose arguments can be refused is one of those whose failures are contained.
* Running one of these comes to a result: null where failures are shown, and for a look at a
  file what was found, or null; nothing was done then but to ask for the file, and that
  leaves the session as it was.
* So it is for every job of a session, and a server that asks for such a command is
  answered with a result, in whatever state the session is and whatever else is under way. -/
theorem failures_contained {actions : List Action} {s s' : Session} (fresh : s.tasks = [])
    (hrun : run actions s = some s') :
    (∀ name arguments fault, ClientCommand.parse name arguments = .error fault →
      Command.isInteractive name = true ∨ Command.isFileSystem name = true) ∧
    (∀ setup name arguments said outcome,
      Gives setup (Dispatch.execute setup name arguments) said outcome →
      Contained name said outcome) ∧
    (∀ (s s₁ : Session) (task : Nat) (q : Question) (r : q.Reply), q.looksAtFile = true →
      s.reply task q = some (s₁, r) → s₁ = s) ∧
    (∀ task name arguments r,
      (origins actions s)[task]? = some (.job (.execute name arguments)) →
      s'.result? task = some r →
      ∃ outcome, r = .outcome outcome ∧ Contained name (dialogue task actions s) outcome) ∧
    (∀ task server place params command arguments,
      (origins actions s)[task]? =
        some (.request server place Connection.executeMethod params) →
      Handler.executeParams? params = some (command, arguments) →
      (Command.isInteractive command = true ∨ Command.isFileSystem command = true) →
      ∀ i j outcome, ⟨.respond i j outcome, ()⟩ ∈ dialogue task actions s →
      i = server ∧ j = place ∧ ∃ v, outcome = .ok v) := by
  refine ⟨?_, fun _ _ _ _ _ comes => comes.executeContained,
    fun _ _ _ _ _ => reply_of_looksAtFile, ?_, ?_⟩
  · intro name arguments fault refused
    have fits := ClientCommand.parse_fits name arguments
    rwa [refused] at fits
  · -- a job for a command is that command, and its outcome with nothing told after it
    intro task name arguments r begun result
    have comes := gives_of_result fresh hrun begun result
    obtain ⟨outcome, first, second, said, inside, comes⟩ := Gives.of_bind comes
    obtain ⟨rfl, rfl⟩ := comes.of_done
    rw [said, List.append_nil]
    exact ⟨outcome, rfl, inside.executeContained⟩
  · intro task server place params command arguments begun readable contained i j outcome responded
    obtain ⟨p, leads⟩ := leads_of_begun fresh hrun begun
    obtain ⟨rfl, rfl, first, -, comes⟩ := responded_of_leads leads responded
    exact ⟨rfl, rfl, comes.answerContained readable contained⟩

/-- The editor does not open a file, and somebody asks for a file without naming it. -/
def refused : List Action :=
  [.begin (.execute Command.openRelatedFile [.str "/app/a.js"]), .advance 0,
    .opened 0 (.error (.host "no such file")), .advance 0, .begin (.execute Command.stat [])]

/-- `failures_contained` where two commands fail: both have come to null. -/
theorem failures_contained_refused :
    ∃ s, run refused { setup := bareSetup } = some s ∧
      s.result? 0 = some (.outcome (.ok .null)) ∧ s.result? 1 = some (.outcome (.ok .null)) := by
  have done : ((run refused { setup := bareSetup }).any fun s =>
      (s.result? 0).isSome && (s.result? 1).isSome) = true := by decide +kernel
  obtain ⟨s, hrun, results⟩ := (Option.any_eq_true _ _).mp done
  obtain ⟨opened, looked⟩ := Bool.and_eq_true_iff.mp results
  obtain ⟨r, opened⟩ := Option.isSome_iff_exists.mp opened
  obtain ⟨r', looked⟩ := Option.isSome_iff_exists.mp looked
  have begun : (origins refused { setup := bareSetup })[0]? =
      some (.job (.execute Command.openRelatedFile [.str "/app/a.js"])) := by rfl
  have begun' : (origins refused { setup := bareSetup })[1]? =
      some (.job (.execute Command.stat [])) := by rfl
  have silent : dialogue 1 refused { setup := bareSetup } = [] := by rfl
  obtain ⟨-, -, -, jobs, -⟩ := failures_contained rfl hrun
  obtain ⟨outcome, rfl, shown⟩ := jobs 0 _ _ r begun opened
  obtain ⟨outcome', rfl, quiet⟩ := jobs 1 _ _ r' begun' looked
  obtain ⟨v, rfl, nothing | ⟨e, one, -⟩⟩ := quiet.fileSystem rfl
  · obtain ⟨-, rfl⟩ := nothing
    rw [shown.interactive rfl] at opened
    exact ⟨s, hrun, opened, looked⟩
  · rw [silent] at one
    contradiction

end Session

end EmberClient
