import EmberClient.Proofs.InputBox
import EmberClient.Proofs.Session.Exits
import EmberClient.Proofs.Session.Namespaces

/-!
# Commands that call back

`els.getUserInput` asks the user for a text, `els.proxyCommand` runs a command, and both hand what
comes of it on to a callback, with the place that they were invoked from. They are one program
(`Invocation.handOn`) with two first steps.

The proxied command and the callback are run by their names. They may be any commands, these two
among them, and take as many strides of their own as they like. `Reaches` says what a program
does next after its strides. It is composed as programs are (`reaches_bind`), so that the
strides of an invocation fall apart into those of its first step, the look at what the
editor shows and those of the callback, with no word about what these do in turn:

> `course_iff`: the strides that an invocation can take are just those of a `Course`.

In a session every run of a command by its name is an invocation of it, by a task, at some depth
(`invokes_of_runs`), and a stride is taken at one moment (`takes_of_strides`).

> `callbacks_follow_protocol`: in every run every invocation follows its course, the callback is
> told what the editor showed after the first step, and whatever the invocation does itself it
> can do without waiting for anyone but the user.
-/

namespace EmberClient.Session

variable {setup : Setup} {files : FileSystem} {view : EditorView} {α β : Type}
  {actions before after : List Action} {start s d d' : Session} {a : Action} {task : Nat}

/-! ## What comes next -/

/-- What a program does next. -/
inductive Upcoming (α : Type) where
  | asks (q : Question)
  | yields (a : α)

def upcoming : Prog α → Upcoming α
  | .done a => .yields a
  | .ask q _ => .asks q

/-- By these strides a program comes to what is next. -/
def Reaches (setup : Setup) (p : Prog α) (done : List Stride) (next : Upcoming α) : Prop :=
  ∃ q put, Goes setup p done q put ∧ upcoming q = next

section

variable {p : Prog α} {f : α → Prog β} {done : List Stride}

theorem Goes.reaches {q : Prog α} {put : Bool} (goes : Goes setup p done q put) :
    Reaches setup p done (upcoming q) := ⟨q, put, goes, rfl⟩

/-- What a program yields is what it ends with. -/
theorem reaches_yields {b : α} : Reaches setup p done (.yields b) ↔ Ends setup p done b := by
  constructor
  · rintro ⟨q, put, goes, next⟩
    cases q with
    | done b' =>
      obtain rfl := Upcoming.yields.inj next
      obtain rfl := goes.of_ended
      exact goes
    | ask => contradiction
  · exact Goes.reaches

/-- A program that is done reaches its value and nothing else. -/
theorem reaches_done {b : α} {next : Upcoming α} :
    Reaches setup (.done b) done next ↔ done = [] ∧ next = .yields b := by
  constructor
  · rintro ⟨q, put, goes, rfl⟩
    obtain ⟨rfl, rfl⟩ := goes.of_done
    exact ⟨rfl, rfl⟩
  · rintro ⟨rfl, rfl⟩
    exact Goes.nothing.reaches

/-- A question is upcoming until it has its reply, and then the reply is there. -/
theorem reaches_ask {q : Question} {next : Upcoming q.Reply} (plain : q.isRun = false) :
    Reaches setup (ask q) done next ↔
      (next = .asks q ∧ (done = [] ∨ mustPut q = true ∧ done = [.puts q])) ∨
        ∃ r, done = asked q r ∧ next = .yields r := by
  constructor
  · rintro ⟨t, put, goes, rfl⟩
    rcases goes.of_ask plain with ⟨rfl, rfl, -⟩ | ⟨outward, rfl, rfl, -⟩ | ⟨r, rfl, rfl⟩
    · exact .inl ⟨rfl, .inl rfl⟩
    · exact .inl ⟨rfl, .inr ⟨outward, rfl⟩⟩
    · exact .inr ⟨r, rfl, rfl⟩
  · rintro (⟨rfl, rfl | ⟨outward, rfl⟩⟩ | ⟨r, rfl, rfl⟩)
    · exact Goes.nothing.reaches
    · exact (Goes.does .nothing (.puts outward)).reaches
    · unfold asked
      split
      · next outward =>
        have put : Goes setup (ask q) [.puts q] (ask q) true := .does .nothing (.puts outward)
        exact (put.does (.told plain (fun _ => rfl) r)).reaches
      · next inward =>
        have told : Stride.Leads setup (.told ⟨q, r⟩) (ask q) false (.done r) false :=
          .told plain (fun outward => absurd outward inward) r
        exact (Goes.nothing.does told).reaches

/-- Running a command is doing what the command does, once that is begun. -/
theorem reaches_run {name : String} {arguments : List Json}
    {next : Upcoming (Except Fault Json)} :
    Reaches setup (ask (.run name arguments)) done next ↔
      (done = [] ∧ next = .asks (.run name arguments)) ∨
        ∃ inner, done = .runs name arguments :: inner ∧
          Reaches setup (Dispatch.execute setup name arguments) inner next := by
  constructor
  · rintro ⟨t, put, goes, rfl⟩
    rcases goes.of_run with ⟨rfl, rfl, -⟩ | ⟨inner, rfl, inside⟩
    · exact .inl ⟨rfl, rfl⟩
    · exact .inr ⟨inner, rfl, inside.reaches⟩
  · rintro (⟨rfl, rfl⟩ | ⟨inner, rfl, t, put, goes, rfl⟩)
    · exact Goes.nothing.reaches
    · have begun : Goes setup (ask (.run name arguments)) [.runs name arguments]
          (Dispatch.execute setup name arguments) false := by
        have leads : Goes setup (ask (.run name arguments)) ([] ++ [.runs name arguments])
          ((Dispatch.execute setup name arguments).bind .done) false := .does .nothing .runs
        rwa [Program.bind_done] at leads
      exact (begun.trans goes).reaches

/-- Of two programs, one after the other, the first is under way, or it has come to a result and
the second goes on from it. -/
theorem reaches_bind {next : Upcoming β} :
    Reaches setup (p >>= f) done next ↔
      (∃ q, Reaches setup p done (.asks q) ∧ next = .asks q) ∨
        ∃ b first second, done = first ++ second ∧ Reaches setup p first (.yields b) ∧
          Reaches setup (f b) second next := by
  constructor
  · rintro ⟨t, put, goes, rfl⟩
    rcases goes.of_bind with ⟨q, under, rfl⟩ | ⟨b, first, second, rfl, ends, since⟩
    · cases q with
      | done b =>
        -- the first is done, and the second has not taken a stride
        exact .inr ⟨b, done, [], (List.append_nil _).symm, under.reaches, Goes.nothing.reaches⟩
      | ask q following => exact .inl ⟨q, under.reaches, rfl⟩
    · exact .inr ⟨b, first, second, rfl, Goes.reaches ends, since.reaches⟩
  · rintro (⟨q, ⟨t, put, goes, same⟩, rfl⟩ | ⟨b, first, second, rfl, ends, t, put, goes, rfl⟩)
    · cases t with
      | done => contradiction
      | ask q' following =>
        obtain rfl := Upcoming.asks.inj same
        exact (goes.bind f).reaches
    · have first := Goes.bind (reaches_yields.mp ends) f
      exact (first.trans goes).reaches

/-- A question that comes first is not answered, or the program goes on with the reply. -/
theorem reaches_first {q : Question} {g : q.Reply → Prog β} {next : Upcoming β}
    (plain : q.isRun = false) :
    Reaches setup (ask q >>= g) done next ↔
      (next = .asks q ∧ (done = [] ∨ mustPut q = true ∧ done = [.puts q])) ∨
        ∃ r rest, done = asked q r ++ rest ∧ Reaches setup (g r) rest next := by
  simp only [reaches_bind, reaches_ask plain]
  constructor
  · rintro (⟨q', asks, rfl⟩ | ⟨r, first, rest, rfl, yields, since⟩)
    · rcases asks with ⟨same, unanswered⟩ | ⟨r, -, same⟩
      · obtain rfl := Upcoming.asks.inj same
        exact .inl ⟨rfl, unanswered⟩
      · contradiction
    · rcases yields with ⟨same, -⟩ | ⟨r', rfl, same⟩
      · contradiction
      · obtain rfl := Upcoming.yields.inj same
        exact .inr ⟨r, rest, rfl, since⟩
  · rintro (⟨rfl, unanswered⟩ | ⟨r, rest, rfl, since⟩)
    · exact .inl ⟨q, .inl ⟨rfl, unanswered⟩, rfl⟩
    · exact .inr ⟨r, _, rest, rfl, .inr ⟨r, rfl, rfl⟩, since⟩

end

/-! ## Invocations -/

/-- What is done before the callback is run. -/
inductive FirstStep where
  | prompt (options : InputBoxOptions)
  | command (name : String) (arguments : List Json)

/-- A command that calls back, with what it is invoked with. -/
structure Invocation where
  first : FirstStep
  callback : String
  /-- The last argument of the callback. -/
  tail : Json

/-- How the user is to be asked, by the argument for it: in the usual way if there is none. -/
inductive Asking : Option Json → InputBoxOptions → Prop where
  | absent : Asking none {}
  | null : Asking (some .null) {}
  | given {v : Json} {options : InputBoxOptions} (tells : options.Tells v) :
      Asking (some v) options

/-- What a proxied command is run with, by the argument for it: a list, or one value. -/
inductive Passing : Option Json → List Json → Prop where
  | absent : Passing none []
  | null : Passing (some .null) []
  | list (items : List Json) : Passing (some (.arr items)) items
  | one {v : Json} (present : v ≠ .null) (single : ∀ items, v ≠ .arr items) : Passing (some v) [v]

/-- The names and arguments that are an invocation. What is missing behind the callback is null,
and an empty object behind a proxied command's. -/
inductive Invocation.Reads : String → List Json → Invocation → Prop where
  | getUserInput {arguments : List Json} {options : InputBoxOptions} {callback : String}
      (asking : Asking arguments[0]? options) (named : arguments[1]? = some (.str callback)) :
    Reads Command.getUserInput arguments
      { first := .prompt options, callback, tail := arguments[2]?.getD .null }
  | proxyCommand {arguments passed : List Json} {command callback : String}
      (proxied : arguments[0]? = some (.str command)) (passing : Passing arguments[1]? passed)
      (named : arguments[2]? = some (.str callback)) :
    Reads Command.proxyCommand arguments
      { first := .command command passed, callback, tail := arguments[3]?.getD (.obj []) }

/-- The first step; what the user typed is a text, and null if the prompt was dismissed. -/
def FirstStep.program : FirstStep → Prog (Except Fault Json)
  | .prompt options => do return (← ask (.prompt options)).map .ofString?
  | .command name arguments => ask (.run name arguments)

/-- Does the first step, and hands what comes of it on to the callback. -/
def Invocation.handOn (invocation : Invocation) : Prog (Except Fault Unit) := do
  match ← invocation.first.program with
  | .error fault => return .error fault
  | .ok value =>
    let place ← Dispatch.context
    Dispatch.callBack invocation.callback [place, value, invocation.tail]

/-- The prompt command hands on the answer to its prompt. -/
theorem getUserInput_eq (options : InputBoxOptions) (callback : String) (tail : Json) :
    Dispatch.getUserInput options callback tail =
      Invocation.handOn { first := .prompt options, callback, tail } := by
  refine congrArg (Program.ask (Question.prompt options)) (funext fun input => ?_)
  cases input with
  | error | ok => rfl

/-- The forwarding command hands on the outcome of the command it forwards. -/
theorem proxyCommand_eq (command : String) (arguments : List Json) (callback : String)
    (tail : Json) :
    Dispatch.proxyCommand command arguments callback tail =
      Invocation.handOn { first := .command command arguments, callback, tail } := by
  refine congrArg (Program.ask (Question.run command arguments)) (funext fun outcome => ?_)
  cases outcome with
  | error | ok => rfl

/-! ### How they are read -/

/-- The invocation that a command is, if it calls back. -/
def invocation? : ClientCommand → Option Invocation
  | .getUserInput options callback tail => some { first := .prompt options, callback, tail }
  | .proxyCommand command arguments callback tail =>
    some { first := .command command arguments, callback, tail }
  | _ => none

/-- A text argument is read when it is there and is a text. -/
theorem textArgument_iff {arguments : List Json} {index : Nat} {name text : String} :
    ClientCommand.textArgument arguments index name = .ok text ↔
      arguments[index]? = some (.str text) := by
  unfold ClientCommand.textArgument
  cases arguments[index]? with
  | none => simp
  | some v => cases v <;> simp [Json.string?]

/-- The options of a prompt are read as `Asking` says. -/
theorem optionsArgument_iff {argument : Option Json} {options : InputBoxOptions} :
    ClientCommand.optionsArgument argument = .ok options ↔ Asking argument options := by
  constructor
  · intro read
    match argument with
    | none =>
      obtain rfl := Except.ok.inj read
      exact .absent
    | some .null =>
      obtain rfl := Except.ok.inj read
      exact .null
    | some (.bool _) | some (.num _) | some (.str _) | some (.arr _) | some (.obj _) =>
      simp only [ClientCommand.optionsArgument] at read
      split at read
      · next fits =>
        obtain rfl := Except.ok.inj read
        exact .given (InputBoxOptions.ofJson?_eq_some_iff.mp fits)
      · contradiction
  · intro asking
    cases asking with
    | absent | null => rfl
    | given tells =>
      have fits := InputBoxOptions.ofJson?_eq_some_iff.mpr tells
      cases tells with
      | members | items => simp only [ClientCommand.optionsArgument, fits]

/-- The arguments passed on are those that `Passing` says. -/
theorem passedArguments_iff {argument : Option Json} {passed : List Json} :
    ClientCommand.passedArguments argument = passed ↔ Passing argument passed := by
  constructor
  · rintro rfl
    match argument with
    | none => exact .absent
    | some .null => exact .null
    | some (.arr items) => exact .list items
    | some (.bool _) | some (.num _) | some (.str _) | some (.obj _) =>
      exact .one (by simp) (by simp)
  · intro passing
    cases passing with
    | absent | null | list => rfl
    | @one v present single =>
      cases v with
      | null => contradiction
      | arr items => exact absurd rfl (single items)
      | _ => rfl

/-- Two readings in a row succeed when each does. -/
theorem bind_eq_ok {x : Except Fault α} {f : α → Except Fault β} {b : β} :
    x >>= f = .ok b ↔ ∃ a, x = .ok a ∧ f a = .ok b := by
  cases x with
  | error => simp [Bind.bind, Except.bind]
  | ok => simp [Bind.bind, Except.bind]

/-- The prompt command takes its options, the callback and the tail. -/
theorem parse_getUserInput (arguments : List Json) :
    ClientCommand.parse Command.getUserInput arguments = do
      let options ← ClientCommand.optionsArgument arguments.head?
      let callback ← ClientCommand.textArgument arguments 1 "callbackCommandName"
      return some (.getUserInput options callback (arguments[2]?.getD .null)) := by
  unfold ClientCommand.parse
  rw [if_neg (by decide), if_neg (by decide), if_neg (by decide), if_pos rfl]

/-- The forwarding command takes a name, arguments, the callback and the tail. -/
theorem parse_proxyCommand (arguments : List Json) :
    ClientCommand.parse Command.proxyCommand arguments = do
      let command ← ClientCommand.textArgument arguments 0 "commandName"
      let callback ← ClientCommand.textArgument arguments 2 "callbackCommandName"
      return some (.proxyCommand command (ClientCommand.passedArguments arguments[1]?) callback
        (arguments[3]?.getD (.obj []))) := by
  unfold ClientCommand.parse
  rw [if_neg (by decide), if_neg (by decide), if_neg (by decide), if_neg (by decide), if_pos rfl]

/-- The two are told by their names. -/
theorem name_of_invocation {name : String} {arguments : List Json} {command : ClientCommand}
    {invocation : Invocation} (parsed : ClientCommand.parse name arguments = .ok (some command))
    (calls : invocation? command = some invocation) :
    name = Command.getUserInput ∨ name = Command.proxyCommand := by
  by_contra neither
  obtain ⟨input, proxy⟩ := not_or.mp neither
  unfold ClientCommand.parse at parsed
  -- what is read under any other name is no command that calls back
  have apart {α : Type} {x : Except Fault α} {f : α → ClientCommand}
      (read : (x >>= fun a => .ok (some (f a))) = Except.ok (some command))
      (other : ∀ a, invocation? (f a) = none) : False := by
    obtain ⟨a, -, same⟩ := bind_eq_ok.mp read
    obtain rfl := Option.some.inj (Except.ok.inj same)
    exact absurd (calls.symm.trans (other a)) (by simp)
  split_ifs at parsed with bar restart cli related text stat entries
  · obtain rfl := Option.some.inj (Except.ok.inj parsed)
    contradiction
  · obtain rfl := Option.some.inj (Except.ok.inj parsed)
    contradiction
  · obtain rfl := Option.some.inj (Except.ok.inj parsed)
    contradiction
  · exact apart parsed fun _ => rfl
  · exact apart parsed fun _ => rfl
  · exact apart parsed fun _ => rfl
  · exact apart parsed fun _ => rfl
  · exact absurd (Except.ok.inj parsed) (by simp)

/-- Whatever is read as a command that calls back is one of these invocations. -/
theorem Invocation.reads_iff {name : String} {arguments : List Json} {invocation : Invocation} :
    invocation.Reads name arguments ↔
      ∃ command, ClientCommand.parse name arguments = .ok (some command) ∧
        invocation? command = some invocation := by
  constructor
  · intro reads
    cases reads with
    | getUserInput asking named =>
      refine ⟨.getUserInput _ _ _, ?_, rfl⟩
      rw [parse_getUserInput, List.head?_eq_getElem?]
      exact bind_eq_ok.mpr ⟨_, optionsArgument_iff.mpr asking,
        bind_eq_ok.mpr ⟨_, textArgument_iff.mpr named, rfl⟩⟩
    | proxyCommand proxied passing named =>
      obtain rfl := passedArguments_iff.mpr passing
      refine ⟨.proxyCommand _ _ _ _, ?_, rfl⟩
      rw [parse_proxyCommand]
      exact bind_eq_ok.mpr ⟨_, textArgument_iff.mpr proxied,
        bind_eq_ok.mpr ⟨_, textArgument_iff.mpr named, rfl⟩⟩
  · rintro ⟨command, parsed, calls⟩
    -- two names call back
    rcases name_of_invocation parsed calls with rfl | rfl
    · rw [parse_getUserInput, List.head?_eq_getElem?] at parsed
      obtain ⟨options, fits, parsed⟩ := bind_eq_ok.mp parsed
      obtain ⟨callback, named, parsed⟩ := bind_eq_ok.mp parsed
      obtain rfl := Option.some.inj (Except.ok.inj parsed)
      obtain rfl := Option.some.inj calls
      exact .getUserInput (optionsArgument_iff.mp fits) (textArgument_iff.mp named)
    · rw [parse_proxyCommand] at parsed
      obtain ⟨proxied, fits, parsed⟩ := bind_eq_ok.mp parsed
      obtain ⟨callback, named, parsed⟩ := bind_eq_ok.mp parsed
      obtain rfl := Option.some.inj (Except.ok.inj parsed)
      obtain rfl := Option.some.inj calls
      exact .proxyCommand (textArgument_iff.mp fits) (passedArguments_iff.mp rfl)
        (textArgument_iff.mp named)

/-- A command with a callback is run contained. -/
theorem run_of_invocation {command : ClientCommand} {invocation : Invocation}
    (calls : invocation? command = some invocation) :
    Dispatch.run setup command = Dispatch.contained invocation.handOn := by
  cases command with
  | getUserInput options callback tail =>
    obtain rfl := Option.some.inj calls
    exact congrArg Dispatch.contained (getUserInput_eq ..)
  | proxyCommand command arguments callback tail =>
    obtain rfl := Option.some.inj calls
    exact congrArg Dispatch.contained (proxyCommand_eq ..)
  | _ => contradiction

/-- Whoever sends such a command by its name gets the same program. -/
theorem execute_of_reads {name : String} {arguments : List Json} {invocation : Invocation}
    (reads : invocation.Reads name arguments) :
    Dispatch.execute setup name arguments = Dispatch.contained invocation.handOn := by
  obtain ⟨command, parsed, calls⟩ := Invocation.reads_iff.mp reads
  simp only [Dispatch.execute, parsed, run_of_invocation calls]

/-! ## Courses -/

/-- The strides in which a command is run by its name, and what comes next. -/
inductive Runs (setup : Setup) (name : String) (arguments : List Json) :
    List Stride → Upcoming (Except Fault Json) → Prop where
  | due : Runs setup name arguments [] (.asks (.run name arguments))
  /-- It has been begun, once, and the strides since are its own. -/
  | begun {inner : List Stride} {next : Upcoming (Except Fault Json)}
      (inside : Reaches setup (Dispatch.execute setup name arguments) inner next) :
    Runs setup name arguments (.runs name arguments :: inner) next

/-- The strides of a first step, and what comes next. -/
inductive FirstStep.Tries (setup : Setup) :
    FirstStep → List Stride → Upcoming (Except Fault Json) → Prop where
  | due (options : InputBoxOptions) : Tries setup (.prompt options) [] (.asks (.prompt options))
  | asking (options : InputBoxOptions) :
    Tries setup (.prompt options) [.puts (.prompt options)] (.asks (.prompt options))
  | typed (options : InputBoxOptions) (text : String) :
    Tries setup (.prompt options)
      [.puts (.prompt options), .told ⟨.prompt options, .ok (some text)⟩] (.yields (.ok (.str text)))
  | dismissed (options : InputBoxOptions) :
    Tries setup (.prompt options) [.puts (.prompt options), .told ⟨.prompt options, .ok none⟩]
      (.yields (.ok .null))
  | unanswered (options : InputBoxOptions) (fault : Fault) :
    Tries setup (.prompt options) [.puts (.prompt options), .told ⟨.prompt options, .error fault⟩]
      (.yields (.error fault))
  | command {name : String} {arguments : List Json} {tried : List Stride}
      {next : Upcoming (Except Fault Json)} (runs : Runs setup name arguments tried next) :
    Tries setup (.command name arguments) tried next

/-- Where the editor is: at the document that is open if there is one, else in the first folder,
else at the root. -/
inductive Whereabouts (view : EditorView) : Json → Prop where
  | document {path : String} (shown : view.active = some path) : Whereabouts view (.str path)
  | folder {path : String} {others : List String} (unshown : view.active = none)
      (folders : view.folders = path :: others) : Whereabouts view (.str path)
  | root {path : String} (unshown : view.active = none) (bare : view.folders = [])
      (root : view.root = some path) : Whereabouts view (.str path)
  | nowhere (unshown : view.active = none) (bare : view.folders = [])
      (rootless : view.root = none) : Whereabouts view .null

/-- The strides of an invocation until it is settled whether it failed, and what comes next. -/
inductive Invocation.HandsOn (setup : Setup) (invocation : Invocation) :
    List Stride → Upcoming (Except Fault Unit) → Prop where
  | trying {tried : List Stride} {q : Question}
      (tries : invocation.first.Tries setup tried (.asks q)) :
    HandsOn setup invocation tried (.asks q)
  /-- The first step failed, so the callback is not run. -/
  | failed {tried : List Stride} {fault : Fault}
      (tries : invocation.first.Tries setup tried (.yields (.error fault))) :
    HandsOn setup invocation tried (.yields (.error fault))
  /-- The first step succeeded. -/
  | looking {tried : List Stride} {value : Json}
      (tries : invocation.first.Tries setup tried (.yields (.ok value))) :
    HandsOn setup invocation tried (.asks .view)
  | calling {tried called : List Stride} {value place : Json} {view : EditorView} {q : Question}
      (tries : invocation.first.Tries setup tried (.yields (.ok value)))
      (whereabouts : Whereabouts view place)
      (runs : Runs setup invocation.callback [place, value, invocation.tail] called (.asks q)) :
    HandsOn setup invocation (tried ++ .told ⟨.view, view⟩ :: called) (.asks q)
  | called {tried called : List Stride} {value place : Json} {view : EditorView}
      {outcome : Except Fault Json}
      (tries : invocation.first.Tries setup tried (.yields (.ok value)))
      (whereabouts : Whereabouts view place)
      (runs : Runs setup invocation.callback [place, value, invocation.tail] called
        (.yields outcome)) :
    HandsOn setup invocation (tried ++ .told ⟨.view, view⟩ :: called)
      (.yields (outcome.map fun _ => ()))

/-- The strides of an invocation, and what comes next. -/
inductive Invocation.Course (setup : Setup) (invocation : Invocation) :
    List Stride → Upcoming (Except Fault Json) → Prop where
  | under {own : List Stride} {q : Question} (handsOn : invocation.HandsOn setup own (.asks q)) :
    Course setup invocation own (.asks q)
  /-- Nothing failed, and nothing is shown. -/
  | fine {own : List Stride} (handsOn : invocation.HandsOn setup own (.yields (.ok ()))) :
    Course setup invocation own (.yields (.ok .null))
  | failing {own : List Stride} {fault : Fault}
      (handsOn : invocation.HandsOn setup own (.yields (.error fault))) :
    Course setup invocation own (.asks (.showError fault.message))
  /-- A failure was shown, once, and is not handed outward. -/
  | shown {own : List Stride} {fault : Fault}
      (handsOn : invocation.HandsOn setup own (.yields (.error fault))) :
    Course setup invocation (own ++ [.told ⟨.showError fault.message, ()⟩]) (.yields (.ok .null))

section

variable {invocation : Invocation} {name : String} {arguments : List Json} {done : List Stride}

/-- Running a command within a program is described by `Runs`, in both directions. -/
theorem runs_iff {next : Upcoming (Except Fault Json)} :
    Reaches setup (ask (.run name arguments)) done next ↔ Runs setup name arguments done next := by
  rw [reaches_run]
  constructor
  · rintro (⟨rfl, rfl⟩ | ⟨inner, rfl, inside⟩)
    · exact .due
    · exact .begun inside
  · rintro (_ | inside)
    · exact .inl ⟨rfl, rfl⟩
    · exact .inr ⟨_, rfl, inside⟩

/-- So is the first of the two steps, by `Tries`. -/
theorem tries_iff {first : FirstStep} {next : Upcoming (Except Fault Json)} :
    Reaches setup first.program done next ↔ first.Tries setup done next := by
  cases first with
  | prompt options =>
    refine (reaches_first (q := .prompt options) rfl).trans ?_
    constructor
    · rintro (⟨rfl, rfl | ⟨-, rfl⟩⟩ | ⟨input, rest, rfl, since⟩)
      · exact .due options
      · exact .asking options
      · obtain ⟨rfl, rfl⟩ := reaches_done.mp since
        match input with
        | .ok (some text) => exact .typed options text
        | .ok none => exact .dismissed options
        | .error fault => exact .unanswered options fault
    · intro tries
      cases tries with
      | due => exact .inl ⟨rfl, .inl rfl⟩
      | asking => exact .inl ⟨rfl, .inr ⟨rfl, rfl⟩⟩
      | typed | dismissed | unanswered => exact .inr ⟨_, [], rfl, reaches_done.mpr ⟨rfl, rfl⟩⟩
  | command name arguments =>
    exact runs_iff.trans ⟨.command, fun | .command runs => runs⟩

/-- The callback is asked whatever the command it names asks, and its failure is passed on. -/
theorem callBack_iff {next : Upcoming (Except Fault Unit)} :
    Reaches setup (Dispatch.callBack name arguments) done next ↔
      (∃ q, Runs setup name arguments done (.asks q) ∧ next = .asks q) ∨
        ∃ outcome, Runs setup name arguments done (.yields outcome) ∧
          next = .yields (outcome.map fun _ => ()) := by
  refine reaches_bind.trans ?_
  constructor
  · rintro (⟨q, runs, rfl⟩ | ⟨outcome, called, rest, rfl, runs, since⟩)
    · exact .inl ⟨q, runs_iff.mp runs, rfl⟩
    · obtain ⟨rfl, rfl⟩ := reaches_done.mp since
      rw [List.append_nil]
      exact .inr ⟨outcome, runs_iff.mp runs, rfl⟩
  · rintro (⟨q, runs, rfl⟩ | ⟨outcome, runs, rfl⟩)
    · exact .inl ⟨q, runs_iff.mpr runs, rfl⟩
    · exact .inr ⟨outcome, done, [], (List.append_nil _).symm, runs_iff.mpr runs,
        reaches_done.mpr ⟨rfl, rfl⟩⟩

/-- The context names the place that `Whereabouts` describes and no other. -/
theorem whereabouts_iff {view : EditorView} {place : Json} :
    Whereabouts view place ↔ place = .ofString? view.contextPath := by
  obtain ⟨root, folders, active⟩ := view
  constructor
  · intro whereabouts
    cases whereabouts with
    | document shown =>
      obtain rfl := shown
      rfl
    | folder unshown folders =>
      obtain rfl := unshown
      obtain rfl := folders
      rfl
    | root unshown bare root =>
      obtain rfl := unshown
      obtain rfl := bare
      obtain rfl := root
      rfl
    | nowhere unshown bare rootless =>
      obtain rfl := unshown
      obtain rfl := bare
      obtain rfl := rootless
      rfl
  · rintro rfl
    match active, folders, root with
    | some path, _, _ => exact .document rfl
    | none, path :: others, _ => exact .folder rfl rfl
    | none, [], some path => exact .root rfl rfl rfl
    | none, [], none => exact .nowhere rfl rfl rfl

/-- What the first step came to is handed on with the place that the editor shows. -/
theorem reaches_context {value : Json} {next : Upcoming (Except Fault Unit)} :
    Reaches setup (do
      let place ← Dispatch.context
      Dispatch.callBack invocation.callback [place, value, invocation.tail]) done next ↔
    (done = [] ∧ next = .asks .view) ∨
      ∃ view called, done = .told ⟨.view, view⟩ :: called ∧
        Reaches setup (Dispatch.callBack invocation.callback
          [.ofString? view.contextPath, value, invocation.tail]) called next := by
  refine (reaches_first (q := .view) rfl).trans ?_
  simp [asked, mustPut, and_comm]

/-- The two steps together are described by `HandsOn`, in both directions. -/
theorem handsOn_iff {next : Upcoming (Except Fault Unit)} :
    Reaches setup invocation.handOn done next ↔ invocation.HandsOn setup done next := by
  -- it tries its first step, and calls back with the view as it is when that came to a value
  refine reaches_bind.trans ?_
  simp only [tries_iff]
  constructor
  · rintro (⟨q, tries, rfl⟩ | ⟨outcome, tried, rest, rfl, tries, since⟩)
    · exact .trying tries
    · cases outcome with
      | error fault =>
        obtain ⟨rfl, rfl⟩ := reaches_done.mp since
        rw [List.append_nil]
        exact .failed tries
      | ok value =>
        rcases reaches_context.mp since with ⟨rfl, rfl⟩ | ⟨view, called, rfl, calls⟩
        · rw [List.append_nil]
          exact .looking tries
        · rcases callBack_iff.mp calls with ⟨q, runs, rfl⟩ | ⟨outcome, runs, rfl⟩
          · exact .calling tries (whereabouts_iff.mpr rfl) runs
          · exact .called tries (whereabouts_iff.mpr rfl) runs
  · intro handsOn
    cases handsOn with
    | @trying _ q tries => exact .inl ⟨q, tries, rfl⟩
    | @failed _ fault tries =>
      exact .inr ⟨_, done, [], (List.append_nil _).symm, tries, reaches_done.mpr ⟨rfl, rfl⟩⟩
    | @looking _ value tries =>
      exact .inr ⟨_, done, [], (List.append_nil _).symm, tries, reaches_context.mpr (.inl ⟨rfl, rfl⟩)⟩
    | @calling tried called value place view q tries whereabouts runs =>
      obtain rfl := whereabouts_iff.mp whereabouts
      exact .inr ⟨_, tried, _, rfl, tries, reaches_context.mpr (.inr ⟨view, called, rfl,
        callBack_iff.mpr (.inl ⟨q, runs, rfl⟩)⟩)⟩
    | @called tried called value place view outcome tries whereabouts runs =>
      obtain rfl := whereabouts_iff.mp whereabouts
      exact .inr ⟨_, tried, _, rfl, tries, reaches_context.mpr (.inr ⟨view, called, rfl,
        callBack_iff.mpr (.inr ⟨outcome, runs, rfl⟩)⟩)⟩

/-- A failure is shown and then forgotten. -/
theorem reaches_contain {fault : Fault} {next : Upcoming (Except Fault Json)} :
    Reaches setup (do
      Dispatch.contain (.error fault)
      return .ok .null) done next ↔
    (done = [] ∧ next = .asks (.showError fault.message)) ∨
      (done = [.told ⟨.showError fault.message, ()⟩] ∧ next = .yields (.ok .null)) := by
  refine (reaches_first (q := .showError fault.message) rfl).trans ?_
  constructor
  · rintro (⟨rfl, rfl | ⟨outward, -⟩⟩ | ⟨nothing, rest, rfl, since⟩)
    · exact .inl ⟨rfl, rfl⟩
    · contradiction
    · obtain ⟨rfl, rfl⟩ := reaches_done.mp since
      exact .inr ⟨rfl, rfl⟩
  · rintro (⟨rfl, rfl⟩ | ⟨rfl, rfl⟩)
    · exact .inl ⟨rfl, .inl rfl⟩
    · exact .inr ⟨(), [], rfl, reaches_done.mpr ⟨rfl, rfl⟩⟩

/-- **The strides of an invocation are just those of a course.** -/
theorem course_iff {next : Upcoming (Except Fault Json)} (reads : invocation.Reads name arguments) :
    Reaches setup (Dispatch.execute setup name arguments) done next ↔
      invocation.Course setup done next := by
  rw [execute_of_reads reads]
  -- its own part first; what becomes of a failure comes after that
  refine reaches_bind.trans ?_
  simp only [handsOn_iff]
  constructor
  · rintro (⟨q, handsOn, rfl⟩ | ⟨outcome, own, rest, rfl, handsOn, since⟩)
    · exact .under handsOn
    · cases outcome with
      | ok nothing =>
        obtain ⟨rfl, rfl⟩ := reaches_done.mp since
        rw [List.append_nil]
        exact .fine handsOn
      | error fault =>
        rcases reaches_contain.mp since with ⟨rfl, rfl⟩ | ⟨rfl, rfl⟩
        · rw [List.append_nil]
          exact .failing handsOn
        · exact .shown handsOn
  · intro course
    cases course with
    | @under _ q handsOn => exact .inl ⟨q, handsOn, rfl⟩
    | fine handsOn =>
      exact .inr ⟨_, done, [], (List.append_nil _).symm, handsOn, reaches_done.mpr ⟨rfl, rfl⟩⟩
    | failing handsOn =>
      exact .inr ⟨_, done, [], (List.append_nil _).symm, handsOn,
        reaches_contain.mpr (.inl ⟨rfl, rfl⟩)⟩
    | shown handsOn =>
      exact .inr ⟨_, _, _, rfl, handsOn, reaches_contain.mpr (.inr ⟨rfl, rfl⟩)⟩

end

/-! ## In a session -/

/-- Having taken these strides and no others, the task stood at this program. -/
def Stood (actions : List Action) (start : Session) (task : Nat) (past : List Stride)
    (p : Prog Result) : Prop :=
  ∃ o, (origins actions start)[task]? = some o ∧
    Goes start.setup (o.program start.setup) past p false

/-- A task runs a command by its name, at whatever depth. It stood at the command when it had
taken the strides `past`, and has taken `since` since; what the command yields is handed
`back`. -/
structure Invokes (actions : List Action) (start : Session) (task : Nat)
    (past since : List Stride) (name : String) (arguments : List Json)
    (back : Except Fault Json → Prog Result) : Prop where
  stood : Stood actions start task past (Dispatch.execute start.setup name arguments >>= back)
  strides : strides task actions start = past ++ since

section

variable {past since : List Stride} {name : String} {arguments : List Json}
  {back : Except Fault Json → Prog Result} {invocation : Invocation}

/-- A task that took a stride, or was begun, is there. -/
theorem task_of_stood {p : Prog Result} (hrun : run actions { setup, files, view } = some s)
    (stood : Stood actions { setup, files, view } task past p)
    (taken : strides task actions { setup, files, view } = past ++ since) :
    ∃ t, s.tasks[task]? = some t ∧ Goes setup p since t.program t.isPut := by
  obtain ⟨o, begun, goes⟩ := stood
  have inside := length_of_getElem? begun
  have progress := progress_of_run rfl hrun
  rw [← progress.length] at inside
  obtain ⟨o', begun', stands⟩ := progress.goes task _ (List.getElem?_eq_getElem inside)
  obtain rfl := Option.some.inj (begun.symm.trans begun')
  rw [taken] at stands
  exact ⟨_, List.getElem?_eq_getElem inside, goes.since stands⟩

theorem invokes_of_job
    (begun : (origins actions start)[task]? = some (.job (.execute name arguments))) :
    Invokes actions start task [] (strides task actions start) name arguments
      fun outcome => .done (.outcome outcome) :=
  ⟨⟨_, begun, .nothing⟩, rfl⟩

/-- Every run of a command by its name is an invocation. -/
theorem invokes_of_runs (fresh : start.tasks = []) (hrun : run actions start = some s)
    (taken : strides task actions start = past ++ .runs name arguments :: since) :
    ∃ back, Invokes actions start task (past ++ [.runs name arguments]) since name arguments
      back := by
  have progress := progress_of_run fresh hrun
  have inside : task < s.tasks.length := by
    by_contra outside
    rw [progress.beyond task (Nat.le_of_not_lt outside)] at taken
    exact absurd taken (by simp)
  obtain ⟨o, begun, stands⟩ := progress.goes task _ (List.getElem?_eq_getElem inside)
  rw [taken, List.append_cons] at stands
  obtain ⟨p, put, goes⟩ := stands.of_append
  obtain ⟨q, put', -, leads⟩ := goes.of_snoc
  cases leads with
  | @runs _ _ next put =>
    refine ⟨next, ⟨o, begun, goes⟩, ?_⟩
    rw [taken, List.append_cons]

/-- Every invocation follows its course: it is under way, or has handed back null. -/
theorem Invokes.course (hrun : run actions { setup, files, view } = some s)
    (reads : invocation.Reads name arguments)
    (invokes : Invokes actions { setup, files, view } task past since name arguments back) :
    (∃ q, invocation.Course setup since (.asks q) ∧ s.question? task = some q) ∨
      ∃ own rest, since = own ++ rest ∧ invocation.Course setup own (.yields (.ok .null)) ∧
        Stood actions { setup, files, view } task (past ++ own) (back (.ok .null)) := by
  obtain ⟨t, here, goes⟩ := task_of_stood hrun invokes.stood invokes.strides
  obtain ⟨o, begun, reached⟩ := invokes.stood
  have ended {own : List Stride} {outcome : Except Fault Json}
      (ends : Ends setup (Dispatch.execute setup name arguments) own outcome) :
      outcome = .ok .null ∧ invocation.Course setup own (.yields (.ok .null)) ∧
        Stood actions { setup, files, view } task (past ++ own) (back outcome) := by
    have course := (course_iff reads).mp (reaches_yields.mpr ends)
    have null : outcome = .ok .null := by
      cases course with
      | fine | shown => rfl
    exact ⟨null, null ▸ course, o, begun, reached.trans (Goes.bind ends back)⟩
  -- the strides since are the command's, up to where it comes to a result, and then its invoker's
  rcases goes.of_bind with ⟨q, under, same⟩ | ⟨outcome, own, rest, rfl, ends, -⟩
  · cases q with
    | ask q next => exact .inl ⟨q, (course_iff reads).mp under.reaches, question?_of here same⟩
    | done outcome =>
      obtain ⟨rfl, course, stood⟩ := ended (reaches_yields.mp under.reaches)
      exact .inr ⟨since, [], (List.append_nil _).symm, course, stood⟩
  · obtain ⟨rfl, course, stood⟩ := ended ends
    exact .inr ⟨own, rest, rfl, course, stood⟩

end

/-! ### Going on -/

/-- What an invocation itself asks that nobody has to be waited for. -/
def Question.isOwn : Question → Bool
  | .view | .showError _ | .run .. => true
  | _ => false

/-- A question that a task can answer for itself never keeps it waiting. -/
theorem step_of_own {q : Question} (asked : s.question? task = some q) (own : q.isOwn = true) :
    (s.step (.advance task)).isSome = true := by
  obtain ⟨t, next, here, question⟩ := task_of_question? asked
  cases q with
  | run name arguments => exact isSome_of_stepped (.runs here question)
  | view | showError => exact step_of_ready here question (.inr rfl)
  | _ => contradiction

/-- A prompt is put before the user, who can answer it with anything. -/
theorem step_of_prompt {options : InputBoxOptions}
    (asked : s.question? task = some (.prompt options)) :
    (s.step (.advance task)).isSome = true ∨
      ∀ input, (s.step (.typed task input)).isSome = true := by
  obtain ⟨t, next, here, question⟩ := task_of_question? asked
  cases put : t.isPut with
  | false => exact .inl (step_of_ready here question (.inl ⟨rfl, put⟩))
  | true =>
    exact .inr fun input => isSome_of_stepped (.brought here question (fun _ => put) (.typed input))

/-! ### The protocol -/

/-- **Commands that call back follow their protocol.** In every run of a session, whatever the
user, the editor and servers do, and however many other tasks are under way:

- Whenever the client runs a command by its name, for a job, for a server, or for another command
  at whatever depth, that is an invocation of it.
- Each invocation of a command that calls back is under way on its course, or has completed it
  and handed back null. On its course the first step is taken once; the callback is
  run if that succeeded, once, after it, with the place, the value and the last argument; and the
  fault of either is shown once. The place is the document that is open, else the first folder,
  else the root.
- Each stride of a task shows the editor what it says and nothing else, and the place is what the
  editor shows when it is looked at.
- Nothing that an invocation does itself has to wait, except for the user's answer to a prompt,
  which can always come. -/
theorem callbacks_follow_protocol (hrun : run actions { setup, files, view } = some s) :
    (∀ task name arguments,
      (origins actions { setup, files, view })[task]? = some (.job (.execute name arguments)) →
        Invokes actions { setup, files, view } task [] (strides task actions { setup, files, view })
          name arguments fun outcome => .done (.outcome outcome)) ∧
    (∀ task past since name arguments,
      strides task actions { setup, files, view } = past ++ .runs name arguments :: since →
        ∃ back, Invokes actions { setup, files, view } task (past ++ [.runs name arguments]) since
          name arguments back) ∧
    (∀ task past since name arguments back (invocation : Invocation),
      invocation.Reads name arguments →
      Invokes actions { setup, files, view } task past since name arguments back →
        (∃ q, invocation.Course setup since (.asks q) ∧ s.question? task = some q) ∨
          ∃ own rest, since = own ++ rest ∧ invocation.Course setup own (.yields (.ok .null)) ∧
            Stood actions { setup, files, view } task (past ++ own) (back (.ok .null))) ∧
    (∀ task past stride since,
      strides task actions { setup, files, view } = past ++ stride :: since →
        ∃ d d', Takes actions { setup, files, view } task past stride d d' ∧
          d'.shown = d.shown ++ stride.shows?.toList ∧
          ∀ view', stride = .told ⟨.view, view'⟩ → view' = d.view) ∧
    (∀ task q, s.question? task = some q → q.isOwn = true →
      (s.step (.advance task)).isSome = true) ∧
    ∀ task options, s.question? task = some (.prompt options) →
      (s.step (.advance task)).isSome = true ∨
        ∀ input, (s.step (.typed task input)).isSome = true := by
  refine ⟨fun _ _ _ => invokes_of_job, fun _ _ _ _ _ => invokes_of_runs rfl hrun, ?_, ?_,
    fun _ _ => step_of_own, fun _ _ => step_of_prompt⟩
  · exact fun _ _ _ _ _ _ _ reads invokes => invokes.course hrun reads
  · intro task past stride since split
    obtain ⟨d, d', takes⟩ := takes_of_strides hrun split
    obtain ⟨before, a, after, -, -, hstep, took, -⟩ := id takes
    refine ⟨d, d', takes, ?_, ?_⟩
    · rw [shown_of_stride hstep, took]
      rfl
    · rintro view' rfl
      exact view_of_stride hstep took

/-- A command of the editor's is run, and the callback is one that nobody is there to run. -/
def calledBack : List Action :=
  [.begin (.execute Command.proxyCommand [.str "format", .arr [], .str "els.report"]), .advance 0,
    .advance 0, .advance 0, .ran 0 (.ok (.str "done")), .advance 0, .advance 0, .advance 0,
    .advance 0]

/-- An editor that shows no document and has one folder. -/
def folderView : EditorView := { folders := ["/work/app"] }

/-- The proxied command's result is handed on with the folder, the callback's failure is shown,
and null comes of it. -/
theorem callbacks_follow_protocol_called :
    ∃ s invocation, run calledBack { setup := bareSetup, view := folderView } = some s ∧
      Invocation.Reads Command.proxyCommand [.str "format", .arr [], .str "els.report"] invocation ∧
      s.shown.length = 2 ∧
      (strides 0 calledBack { setup := bareSetup, view := folderView })[5]? =
        some (.runs "els.report" [.str "/work/app", .str "done", .obj []]) ∧
      ∃ own rest, strides 0 calledBack { setup := bareSetup, view := folderView } = own ++ rest ∧
        invocation.Course bareSetup own (.yields (.ok .null)) := by
  have reached : ((run calledBack { setup := bareSetup, view := folderView }).any fun s =>
      s.shown.length = 2 ∧ (s.question? 0).isNone = true) = true := by
    decide +kernel
  obtain ⟨s, hrun, after⟩ := (Option.any_eq_true _ _).mp reached
  obtain ⟨shown, still⟩ := of_decide_eq_true after
  have reads := @Invocation.Reads.proxyCommand [.str "format", .arr [], .str "els.report"] []
    "format" "els.report" rfl (.list []) rfl
  obtain ⟨jobs, -, courses, -⟩ := callbacks_follow_protocol hrun
  have begun : (origins calledBack { setup := bareSetup, view := folderView })[0]? = some (.job
      (.execute Command.proxyCommand [.str "format", .arr [], .str "els.report"])) := by rfl
  have invokes := jobs 0 _ _ begun
  refine ⟨s, _, hrun, reads, shown, rfl, ?_⟩
  rcases courses _ _ _ _ _ _ _ reads invokes with ⟨q, -, asked⟩ | ⟨own, rest, split, course, -⟩
  · rw [asked] at still
    contradiction
  · exact ⟨own, rest, split, course⟩

end EmberClient.Session
