import EmberClient.Proofs.Session.Run

/-!
# What the tasks of a session do

A program of the client puts questions, goes on with the replies, and runs commands by their
names, where what the command does takes the place of running it. These are its strides. `Goes`
says where a program stands after some of them. It leaves open who replies and what.

In a session the replies come from what is shared. `origins` tells of each task what it was
begun for, `strides` what it did in a run, and the two determine where it stands. `Strode`
says all that a step does to the programs: one takes a stride or none does, and some are begun
behind them.

> `progress_of_run`: after every run each task stands where its strides lead the program that it
> was begun with.

So what is shown of a program for all strides holds of each of its tasks in every run, beside
whatever else is under way.
-/

namespace EmberClient.Session

/-! ## Strides -/

/-- A question and the reply to it. -/
structure Exchange where
  question : Question
  reply : question.Reply

/-- What a task does in one step. -/
inductive Stride where
  /-- It puts a question where others see it. -/
  | puts (q : Question)
  /-- It goes on with a reply. -/
  | told (e : Exchange)
  /-- It begins to do what a command does. -/
  | runs (name : String) (arguments : List Json)

/-- How a program and its question stand before a stride and after it. -/
inductive Stride.Leads (setup : Setup) {α : Type} : Stride → Prog α → Bool → Prog α → Bool → Prop where
  | puts {q : Question} {next : q.Reply → Prog α} (outward : mustPut q = true) :
    Leads setup (.puts q) (.ask q next) false (.ask q next) true
  | told {q : Question} {next : q.Reply → Prog α} {put : Bool} (plain : q.isRun = false)
      (ready : mustPut q = true → put = true) (r : q.Reply) :
    Leads setup (.told ⟨q, r⟩) (.ask q next) put (next r) false
  | runs {name : String} {arguments : List Json} {next : Except Fault Json → Prog α} {put : Bool} :
    Leads setup (.runs name arguments) (.ask (.run name arguments) next) put
      ((Dispatch.execute setup name arguments).bind next) false

/-- Where strides lead a program, and whether its question has been put there. -/
inductive Goes (setup : Setup) {α : Type} (p : Prog α) : List Stride → Prog α → Bool → Prop where
  | nothing : Goes setup p [] p false
  | does {done : List Stride} {stride : Stride} {q q' : Prog α} {put put' : Bool}
      (before : Goes setup p done q put) (leads : stride.Leads setup q put q' put') :
    Goes setup p (done ++ [stride]) q' put'

/-- Strides in which a program comes to a result. -/
def Ends (setup : Setup) {α : Type} (p : Prog α) (done : List Stride) (a : α) : Prop :=
  Goes setup p done (.done a) false

section

variable {setup : Setup} {α β : Type} {p q r : Prog α} {f : α → Prog β} {done more : List Stride}
  {stride : Stride} {put put' : Bool}

/-- A stride of a program is a stride of that program with more behind it. -/
theorem Stride.Leads.bind (leads : stride.Leads setup p put q put') (f : α → Prog β) :
    stride.Leads setup (p >>= f) put (q >>= f) put' := by
  cases leads with
  | puts outward => exact .puts outward
  | told plain ready r => exact .told plain ready r
  | @runs name arguments next put =>
    rw [show (Dispatch.execute setup name arguments).bind next >>= f =
      (Dispatch.execute setup name arguments).bind fun r => next r >>= f from
      Program.bind_bind ..]
    exact .runs

/-- A stride of two programs, one after the other, is one of the first, unless that is done. -/
theorem Stride.Leads.of_bind {t : Prog β} (leads : stride.Leads setup (p >>= f) put t put')
    (under : ∀ a, p ≠ .done a) : ∃ q, stride.Leads setup p put q put' ∧ t = q >>= f := by
  cases p with
  | done a => exact absurd rfl (under a)
  | ask question next =>
    generalize same : Program.ask question next >>= f = whole at leads
    cases leads with
    | puts outward =>
      obtain ⟨rfl, rfl⟩ := Program.ask.inj same
      exact ⟨_, .puts outward, rfl⟩
    | told plain ready reply =>
      obtain ⟨rfl, rfl⟩ := Program.ask.inj same
      exact ⟨_, .told plain ready reply, rfl⟩
    | @runs name arguments next' put =>
      obtain ⟨rfl, rfl⟩ := Program.ask.inj same
      exact ⟨_, .runs, (Program.bind_bind ..).symm⟩

/-- Strides in a row, with a reply in between, are strides. -/
theorem Goes.trans (first : Goes setup p done q false) (second : Goes setup q more r put) :
    Goes setup p (done ++ more) r put := by
  induction second with
  | nothing => rwa [List.append_nil]
  | does before leads ih =>
    rw [← List.append_assoc]
    exact .does ih leads

theorem Goes.bind (goes : Goes setup p done q put) (f : α → Prog β) :
    Goes setup (p >>= f) done (q >>= f) put := by
  induction goes with
  | nothing => exact .nothing
  | does before leads ih => exact .does ih (leads.bind f)

/-- What is done has put no question. -/
theorem Goes.of_ended {a : α} (goes : Goes setup p done (.done a) put) : put = false := by
  cases goes with
  | nothing => rfl
  | does before leads =>
    generalize same : Program.done a = q at leads
    cases leads with
    | puts => contradiction
    | told | runs => rfl

/-- The strides of two programs, one after the other, are still of the first, or the second has
begun where the first has come to a result. -/
theorem Goes.of_bind {t : Prog β} (goes : Goes setup (p >>= f) done t put) :
    (∃ q, Goes setup p done q put ∧ t = q >>= f) ∨
      ∃ a first second, done = first ++ second ∧ Ends setup p first a ∧
        Goes setup (f a) second t put := by
  induction goes with
  | nothing => exact .inl ⟨p, .nothing, rfl⟩
  | @does done stride q q' put put' before leads ih =>
    rcases ih with ⟨u, goes, rfl⟩ | ⟨a, first, second, rfl, ends, goes⟩
    -- this stride is the second's first one if the first has just come to its result
    · by_cases ended : ∃ a, u = .done a
      · obtain ⟨a, rfl⟩ := ended
        obtain rfl := goes.of_ended
        exact .inr ⟨a, done, [stride], rfl, goes, .does .nothing leads⟩
      · obtain ⟨u', inner, rfl⟩ := leads.of_bind fun a same => ended ⟨a, same⟩
        exact .inl ⟨u', .does goes inner, rfl⟩
    · exact .inr ⟨a, first, second ++ [stride], List.append_assoc .., ends, .does goes leads⟩

/-- A program that is done goes nowhere. -/
theorem Goes.of_done {a : α} (goes : Goes setup (.done a) done q put) : done = [] ∧ q = .done a := by
  induction goes with
  | nothing => exact ⟨rfl, rfl⟩
  | does before leads ih =>
    obtain ⟨-, rfl⟩ := ih
    contradiction

/-- A stride leads to one place. -/
theorem Stride.Leads.unique {q' : Prog α} {put'' : Bool} (leads : stride.Leads setup p put q put')
    (also : stride.Leads setup p put q' put'') : q = q' ∧ put' = put'' := by
  cases leads with
  | puts | told | runs =>
    cases also
    exact ⟨rfl, rfl⟩

/-- The last stride starts from where the ones before it lead. -/
theorem Goes.of_snoc (goes : Goes setup p (done ++ [stride]) r put') :
    ∃ q put, Goes setup p done q put ∧ stride.Leads setup q put r put' := by
  generalize same : done ++ [stride] = all at goes
  cases goes with
  | nothing => exact absurd same (by simp)
  | does before leads =>
    obtain ⟨rfl, last⟩ := List.append_inj' same rfl
    obtain rfl := List.singleton_inj.mp last
    exact ⟨_, _, before, leads⟩

/-- Strides lead to one place. -/
theorem Goes.unique {q' : Prog α} (goes : Goes setup p done q put)
    (also : Goes setup p done q' put') : q = q' ∧ put = put' := by
  induction goes generalizing q' put' with
  | nothing =>
    generalize same : ([] : List Stride) = none at also
    cases also with
    | nothing => exact ⟨rfl, rfl⟩
    | does => exact absurd same (by simp)
  | does before leads ih =>
    obtain ⟨u, put'', before', leads'⟩ := also.of_snoc
    obtain ⟨rfl, rfl⟩ := ih before'
    exact leads.unique leads'

/-- Whoever took all the strides took the first of them. -/
theorem Goes.of_append (goes : Goes setup p (done ++ more) r put) :
    ∃ q put', Goes setup p done q put' := by
  induction more using List.reverseRecOn generalizing r put with
  | nil =>
    rw [List.append_nil] at goes
    exact ⟨r, put, goes⟩
  | append_singleton more stride ih =>
    rw [← List.append_assoc] at goes
    obtain ⟨u, put', before, -⟩ := goes.of_snoc
    exact ih before

/-- What was done since a program stood somewhere leads on from there. -/
theorem Goes.since (past : Goes setup p done q false) (goes : Goes setup p (done ++ more) r put) :
    Goes setup q more r put := by
  -- the strides up to there lead to this program and to no other
  induction more using List.reverseRecOn generalizing r put with
  | nil =>
    rw [List.append_nil] at goes
    obtain ⟨rfl, rfl⟩ := past.unique goes
    exact .nothing
  | append_singleton more stride ih =>
    rw [← List.append_assoc] at goes
    obtain ⟨u, put', before, leads⟩ := goes.of_snoc
    exact .does (ih before) leads

/-- All that is done about a question that is answered. -/
def asked (q : Question) (r : q.Reply) : List Stride :=
  (if mustPut q then [.puts q] else []) ++ [.told ⟨q, r⟩]

/-- One question has not been put, or is open, or has been answered. -/
theorem Goes.of_ask {q : Question} {t : Prog q.Reply} (goes : Goes setup (ask q) done t put)
    (plain : q.isRun = false) :
    (done = [] ∧ t = ask q ∧ put = false) ∨
      (mustPut q = true ∧ done = [.puts q] ∧ t = ask q ∧ put = true) ∨
        ∃ r, done = asked q r ∧ t = .done r := by
  -- along the strides: put, told, and no stride after that
  induction goes with
  | nothing => exact .inl ⟨rfl, rfl, rfl⟩
  | does before leads ih =>
    rcases ih with ⟨rfl, rfl, rfl⟩ | ⟨outward, rfl, rfl, rfl⟩ | ⟨r, -, rfl⟩
    · cases leads with
      | puts outward => exact .inr (.inl ⟨outward, rfl, rfl, rfl⟩)
      | told plain ready r =>
        have inward : mustPut q = false := Bool.eq_false_iff.mpr fun put => by simpa using ready put
        exact .inr (.inr ⟨r, by simp [asked, inward], rfl⟩)
      | runs => contradiction
    · cases leads with
      | told plain ready r => exact .inr (.inr ⟨r, by simp [asked, outward], rfl⟩)
      | runs => contradiction
    · contradiction

/-- A command that is to be run has not been begun, or what it does is under way. -/
theorem Goes.of_run {name : String} {arguments : List Json} {t : Prog (Except Fault Json)}
    (goes : Goes setup (ask (.run name arguments)) done t put) :
    (done = [] ∧ t = ask (.run name arguments) ∧ put = false) ∨
      ∃ rest, done = .runs name arguments :: rest ∧
        Goes setup (Dispatch.execute setup name arguments) rest t put := by
  induction goes with
  | nothing => exact .inl ⟨rfl, rfl, rfl⟩
  | @does done stride q q' put put' before leads ih =>
    rcases ih with ⟨rfl, rfl, rfl⟩ | ⟨rest, rfl, goes⟩
    · refine .inr ⟨[], ?_⟩
      cases leads with
      | puts outward => contradiction
      | told plain => contradiction
      | runs =>
        rw [Program.bind_done]
        exact ⟨rfl, .nothing⟩
    · exact .inr ⟨rest ++ [stride], rfl, .does goes leads⟩

end

/-! ## Where tasks come from -/

/-- What a task was begun for. -/
inductive Origin where
  | job (work : Job)
  /-- To watch a server. -/
  | watcher (server : Nat)
  /-- To answer the request at a place among those of a server. -/
  | request (server place : Nat) (method : String) (params : Json)

/-- The program that a task is begun with. -/
def Origin.program (setup : Setup) : Origin → Prog Result
  | .job work => work.program setup
  | .watcher server => (Lifecycle.watchExit server).bind fun _ => .done .nothing
  | .request server place method params =>
    (Handler.handle setup server place method params).bind fun _ => .done .nothing

/-- What a reader's news begins a task for. -/
def Origin.ofEvent? (server : Nat) : Connection.Event → Option Origin
  | .request place method params => some (.request server place method params)
  | .notification .. => none

/-- What tasks an action begins. -/
def begun (s : Session) : Action → List Origin
  | .begin job => [.job job]
  | .advance task =>
    match s.question? task with
    | some (.watch server) => [.watcher server]
    | _ => []
  | .connection server action =>
    match (s.connection? server).bind fun c => c.step action with
    | some (_, events) => events.filterMap (Origin.ofEvent? server)
    | none => []
  | _ => []

/-- What tasks a sequence of actions begins, in the order of the tasks. -/
def origins : List Action → Session → List Origin
  | [], _ => []
  | a :: rest, s =>
    match s.step a with
    | some s' => s.begun a ++ origins rest s'
    | none => []

/-- The task with which something is begun. -/
def Origin.task (setup : Setup) (o : Origin) : Task := { program := o.program setup }

theorem origins_eq : origins = gathered begun := eq_gathered (fun _ => rfl) fun _ _ _ => rfl

/-- An action adds the tasks that it begins, after those of the run before it. -/
theorem origins_snoc {actions : List Action} {a : Action} {s d s' : Session}
    (hrun : run actions s = some d) (hstep : d.step a = some s') :
    origins (actions ++ [a]) s = origins actions s ++ d.begun a := by
  rw [origins_eq]
  exact gathered_snoc hrun hstep

/-! ## What tasks do -/

variable {actions : List Action} {start s s' d d' : Session} {a : Action} {task : Nat}

/-- Who is told something in an action, and what. -/
def told? (s : Session) : Action → Option (Nat × Exchange)
  | .advance task => do
    let t ← s.tasks[task]?
    match t.program with
    | .ask q _ =>
      if mustPut q ∧ t.isPut = false then none
      else (s.reply task q).map fun (_, r) => (task, ⟨q, r⟩)
    | .done _ => none
  | .launched task (.ok ()) =>
    (s.launching? task).map fun handler => (task, ⟨.launch handler, .ok s.servers.length⟩)
  | .launched task (.error fault) =>
    (s.launching? task).map fun handler => (task, ⟨.launch handler, .error fault⟩)
  | .terminated task =>
    match s.question? task with
    | some (.terminate server) => some (task, ⟨.terminate server, ()⟩)
    | _ => none
  | .typed task input =>
    match s.question? task with
    | some (.prompt options) => some (task, ⟨.prompt options, input⟩)
    | _ => none
  | .opened task outcome =>
    match s.question? task with
    | some (.openFile path) => some (task, ⟨.openFile path, outcome⟩)
    | _ => none
  | .ran task outcome =>
    match s.question? task with
    | some (.editorCommand name arguments) => some (task, ⟨.editorCommand name arguments, outcome⟩)
    | _ => none
  | .elapse task =>
    match s.question? task with
    | some (.awaitBriefly server place) => some (task, ⟨.awaitBriefly server place, none⟩)
    | _ => none
  | _ => none

/-- Who takes a stride in an action, and which. -/
def stride? (s : Session) : Action → Option (Nat × Stride)
  | .advance task => do
    let t ← s.tasks[task]?
    match t.program with
    | .done _ => none
    | .ask (.run name arguments) _ => some (task, .runs name arguments)
    | .ask q _ =>
      if mustPut q ∧ t.isPut = false then some (task, .puts q)
      else (s.reply task q).map fun (_, r) => (task, .told ⟨q, r⟩)
  | a => (s.told? a).map fun (task, e) => (task, .told e)

/-- The stride of a task in an action. -/
def stridesIn (s : Session) (task : Nat) (a : Action) : List Stride :=
  ((s.stride? a).filter fun (who, _) => who = task).toList.map (·.2)

/-- What a task did in a sequence of actions. -/
def strides (task : Nat) : List Action → Session → List Stride :=
  gathered fun s a => s.stridesIn task a

/-! ## Steps -/

/-- What a step does to the programs: one goes on by a stride, or none does. Behind them stand
those that are begun. -/
inductive Strode (s : Session) (a : Action) (s' : Session) : Prop where
  | does (f : Task → Task) {task : Nat} {stride : Stride} {t : Task} (setup : s'.setup = s.setup)
      (took : s.stride? a = some (task, stride)) (here : s.tasks[task]? = some t)
      (leads : stride.Leads s.setup t.program t.isPut (f t).program (f t).isPut)
      (tasks : s'.tasks = s.tasks.modify task f ++ (s.begun a).map (Origin.task s.setup))
  | stays (f : Task → Task) (task : Nat) (setup : s'.setup = s.setup) (none : s.stride? a = none)
      (same : ∀ t, (f t).program = t.program ∧ (f t).isPut = t.isPut)
      (tasks : s'.tasks = s.tasks.modify task f ++ (s.begun a).map (Origin.task s.setup))

/-- An action that takes no stride leaves every task as it was and adds those it begins. -/
theorem strode_of_append (setup : s'.setup = s.setup) (none : s.stride? a = none)
    (tasks : s'.tasks = s.tasks ++ (s.begun a).map (Origin.task s.setup)) : Strode s a s' := by
  refine .stays id 0 setup none (fun _ => ⟨rfl, rfl⟩) ?_
  rw [tasks, List.modify_id]

/-- What a task is brought from outside, it is told. -/
theorem told?_of_brings {q : Question} {r : q.Reply} {s₁ : Session}
    (brings : Brings s task a q r s₁) (asked : s.question? task = some q) :
    s.told? a = some (task, ⟨q, r⟩) := by
  cases brings with
  | launched | unlaunched => simp [told?, launching?, asked]
  | _ => simp only [told?, asked]

/-- A reply is the stride of the task that asked. -/
theorem stride?_of_brings {q : Question} {r : q.Reply} {s₁ : Session}
    (brings : Brings s task a q r s₁) (asked : s.question? task = some q) :
    s.stride? a = some (task, .told ⟨q, r⟩) := by
  have told := told?_of_brings brings asked
  cases brings <;> simp only [stride?, told, Option.map_some]

/-- A reply begins no task, the reply to a watch apart. -/
theorem begun_of_brings {q : Question} {r : q.Reply} {s₁ : Session}
    (brings : Brings s task a q r s₁) : s.begun a = [] := by
  cases brings <;> rfl

/-- A task goes on with a reply, and nothing is begun. -/
theorem strode_of_told {s₁ : Session} {t : Task} {q : Question} {next : q.Reply → Prog Result}
    {r : q.Reply} (took : s.stride? a = some (task, .told ⟨q, r⟩))
    (here : s.tasks[task]? = some t) (question : t.program = .ask q next)
    (plain : q.isRun = false) (ready : mustPut q = true → t.isPut = true)
    (none : s.begun a = []) (setup : s₁.setup = s.setup) (tasks : s₁.tasks = s.tasks) :
    Strode s a (s₁.setProgram task (next r)) := by
  refine .does (fun t => { t with program := next r, isPut := false }) setup took here ?_ ?_
  · rw [question]
    exact .told plain ready r
  · rw [none, List.map_nil, List.append_nil, ← tasks]
    rfl

/-- What the next step of a task can be, and what becomes of the session in it. -/
inductive Advances (s : Session) (task : Nat) (t : Task) : Stride → Session → Prop where
  | runs {name : String} {arguments : List Json} {next : Except Fault Json → Prog Result}
      (question : t.program = .ask (.run name arguments) next) :
    Advances s task t (.runs name arguments)
      (s.setProgram task ((Dispatch.execute s.setup name arguments).bind next))
  | puts {q : Question} {next : q.Reply → Prog Result} (question : t.program = .ask q next)
      (outward : mustPut q = true) (unput : t.isPut = false) :
    Advances s task t (.puts q) ((s.put task q).markPut task)
  | told {q : Question} {next : q.Reply → Prog Result} {r : q.Reply} {s₁ : Session}
      (question : t.program = .ask q next) (plain : q.isRun = false)
      (ready : mustPut q = true → t.isPut = true) (replied : s.reply task q = some (s₁, r)) :
    Advances s task t (.told ⟨q, r⟩) (s₁.setProgram task (next r))

/-- Going on with a task is a stride of that task. -/
theorem advances_of_step (hstep : s.step (.advance task) = some s') :
    ∃ t stride, s.tasks[task]? = some t ∧ s.stride? (.advance task) = some (task, stride) ∧
      Advances s task t stride s' := by
  cases stepped_of_step hstep with
  | runs here question => exact ⟨_, _, here, by simp [stride?, here, question], .runs question⟩
  | @puts _ t q next here question outward unput =>
    have took : s.stride? (.advance task) = some (task, .puts q) := by
      cases q <;> first | contradiction | simp [stride?, here, question, outward, unput]
    exact ⟨t, _, here, took, .puts question outward unput⟩
  | @replied _ t q next r s₁ here question plain ready replied =>
    have put : ¬(mustPut q = true ∧ t.isPut = false) := fun ⟨outward, unput⟩ =>
      Bool.false_ne_true (unput.symm.trans (ready outward))
    have took : s.stride? (.advance task) = some (task, .told ⟨q, r⟩) := by
      cases q <;> first | contradiction | simp [stride?, here, question, put, replied]
    exact ⟨t, _, here, took, .told question plain ready replied⟩
  | brought _ _ _ brings => cases brings

/-- Whoever puts a question is at it. -/
theorem asked_of_puts {q : Question} (hstep : s.step a = some s')
    (took : s.stride? a = some (task, .puts q)) : s.question? task = some q := by
  cases a with
  | advance task' =>
    obtain ⟨t, stride, here, took', advances⟩ := advances_of_step hstep
    obtain ⟨rfl, rfl⟩ := Prod.mk.inj (Option.some.inj (took.symm.trans took'))
    cases advances with
    | puts question => exact question?_of here question
  | begin | cancel | connection | editorShows => contradiction
  | _ =>
    obtain ⟨_, -, same⟩ := Option.map_eq_some_iff.mp took
    simp at same

/-- Only who starts to watch a server begins a task. -/
theorem begun_of_ask {t : Task} {q : Question} {next : q.Reply → Prog Result}
    (here : s.tasks[task]? = some t) (question : t.program = .ask q next)
    (other : ∀ server, q ≠ .watch server) : s.begun (.advance task) = [] := by
  simp only [begun, question?_of here question]
  split
  · next server same => exact absurd (Option.some.inj same) (other server)
  · rfl

theorem modify_append {α : Type} {l m : List α} {i : Nat} {f : α → α} (inside : i < l.length) :
    (l ++ m).modify i f = l.modify i f ++ m := by
  apply List.ext_getElem?
  intro j
  by_cases front : j < l.length
  · simp [List.getElem?_modify, List.getElem?_append, List.getElem_modify, front]
  · have apart : i ≠ j := by omega
    simp [List.getElem?_append, front, apart]

/-- Going on with a task is a stride in the terms that all actions share. -/
theorem strode_of_advance (hstep : s.step (.advance task) = some s') :
    Strode s (.advance task) s' := by
  obtain ⟨t, stride, here, took, advances⟩ := advances_of_step hstep
  cases advances with
  | @runs name arguments next question =>
    refine .does (fun t => { t with
      program := (Dispatch.execute s.setup name arguments).bind next, isPut := false })
      rfl took here ?_ ?_
    · rw [question]
      exact .runs
    · rw [begun_of_ask here question (by simp), List.map_nil, List.append_nil]
      rfl
  | @puts q next question outward unput =>
    have none : s.begun (.advance task) = [] :=
      begun_of_ask here question fun server same => absurd (same ▸ outward) (by simp [mustPut])
    have tasks : (s.put task q).tasks = s.tasks := by cases q <;> rfl
    have setup : (s.put task q).setup = s.setup := by cases q <;> rfl
    refine .does (fun t => { t with isPut := true }) setup took here ?_ ?_
    · rw [question, unput]
      exact .puts outward
    · rw [none, List.map_nil, List.append_nil, ← tasks]
      rfl
  | @told q next r s₁ question plain ready replied =>
    -- whoever starts to watch a server is told so while a task is begun for that
    by_cases watch : ∃ server, q = .watch server
    · obtain ⟨server, rfl⟩ := watch
      obtain ⟨rfl, -⟩ := Prod.mk.inj (Option.some.inj replied)
      have started : s.begun (.advance task) = [.watcher server] := by
        simp only [begun, question?_of here question]
      refine .does (fun t => { t with program := next r, isPut := false }) rfl took here ?_ ?_
      · rw [question]
        exact .told plain ready r
      · rw [started]
        exact modify_append (length_of_getElem? here)
    · have other : ∀ server, q ≠ .watch server := fun server same => watch ⟨server, same⟩
      have frame := reply_frame replied
      exact strode_of_told took here question plain ready (begun_of_ask here question other)
        frame.setup (frame.tasks other)

/-- The reader's news begin a task for each request. -/
theorem tasks_takes (server : Nat) (events : List Connection.Event) (s : Session) :
    (events.foldl (take server) s).setup = s.setup ∧
      (events.foldl (take server) s).tasks =
        s.tasks ++ (events.filterMap (Origin.ofEvent? server)).map (Origin.task s.setup) := by
  -- along the events: a request begins a task, a notification none
  induction events generalizing s with
  | nil => exact ⟨rfl, (List.append_nil _).symm⟩
  | cons event rest ih =>
    obtain ⟨setup, tasks⟩ := ih (take server s event)
    rw [List.foldl_cons]
    cases event with
    | request place method params =>
      refine ⟨setup, tasks.trans ?_⟩
      exact List.append_assoc ..
    | notification method params => exact ⟨setup, tasks⟩

/-- What every step does to the programs of a session. -/
theorem strode_of_step (hstep : s.step a = some s') : Strode s a s' := by
  cases stepped_of_step hstep with
  | begins job => exact strode_of_append rfl rfl rfl
  | runs | puts | replied => exact strode_of_advance hstep
  | brought here question ready brings =>
    have took := stride?_of_brings brings (question?_of here question)
    exact strode_of_told took here question brings.plain ready (begun_of_brings brings)
      brings.setup brings.tasks
  | cancels task =>
    exact .stays (fun t => { t with cancelled := true }) task rfl rfl (fun _ => ⟨rfl, rfl⟩)
      (List.append_nil _).symm
  | @acts server c c' act events conn _ _ acts =>
    have started : s.begun (.connection server act) =
        events.filterMap (Origin.ofEvent? server) := by
      simp only [begun, conn, Option.bind_some, acts]
    obtain ⟨setup, tasks⟩ := tasks_takes server events (s.editConnection server fun _ => c')
    refine strode_of_append setup rfl ?_
    rw [started]
    exact tasks
  | shows view => exact strode_of_append rfl rfl (List.append_nil _).symm

/-! ## In a run -/

theorem stridesIn_of_none (none : s.stride? a = none) (task : Nat) : s.stridesIn task a = [] := by
  simp [stridesIn, none]

/-- The stride that an action takes belongs to its task. -/
theorem stridesIn_self {stride : Stride} (took : s.stride? a = some (task, stride)) :
    s.stridesIn task a = [stride] := by
  simp [stridesIn, took]

theorem stridesIn_other {stride : Stride} {u : Nat} (took : s.stride? a = some (task, stride))
    (other : task ≠ u) : s.stridesIn u a = [] := by
  simp [stridesIn, took, other]

/-- The strides of a longer run are those of the run, then the one of its last action. -/
theorem strides_snoc (task : Nat) (hrun : run actions start = some d) (hstep : d.step a = some s') :
    strides task (actions ++ [a]) start = strides task actions start ++ d.stridesIn task a :=
  gathered_snoc hrun hstep

theorem Strode.setup (strode : Strode s a s') : s'.setup = s.setup := by
  cases strode with
  | does _ setup | stays _ _ setup => exact setup

/-- Tasks are added and never taken away. -/
theorem Strode.length (strode : Strode s a s') :
    s'.tasks.length = s.tasks.length + (s.begun a).length := by
  cases strode with
  | does _ _ _ _ _ tasks | stays _ _ _ _ _ tasks => simp [tasks]

/-- A task stands where its strides in an action lead. -/
theorem Strode.old (strode : Strode s a s') {t : Task} (here : s.tasks[task]? = some t) :
    ∃ t', s'.tasks[task]? = some t' ∧ ∀ (p : Prog Result) done,
      Goes s.setup p done t.program t.isPut →
        Goes s.setup p (done ++ s.stridesIn task a) t'.program t'.isPut := by
  have inside {l m : List Task} {f : Task → Task} {i : Nat} (there : l[task]? = some t) :
      (l.modify i f ++ m)[task]? = some (if i = task then f t else t) := by
    rw [List.getElem?_append_left (by simpa using length_of_getElem? there), List.getElem?_modify,
      there]
    rfl
  cases strode with
  | @does f u stride t₀ _ took here₀ leads tasks =>
    refine ⟨_, tasks ▸ inside here, fun p done goes => ?_⟩
    by_cases same : u = task
    · subst same
      obtain rfl := Option.some.inj (here.symm.trans here₀)
      rw [stridesIn_self took, if_pos rfl]
      exact .does goes leads
    · rw [stridesIn_other took same, List.append_nil, if_neg same]
      exact goes
  | stays f u _ none same tasks =>
    refine ⟨_, tasks ▸ inside here, fun p done goes => ?_⟩
    rw [stridesIn_of_none none, List.append_nil]
    split
    · rwa [(same t).1, (same t).2]
    · exact goes

/-- What is begun stands behind the others. -/
theorem Strode.new (strode : Strode s a s') (i : Nat) :
    s'.tasks[s.tasks.length + i]? = (s.begun a)[i]?.map (Origin.task s.setup) := by
  cases strode with
  | does f _ _ _ _ tasks | stays f u _ _ _ tasks =>
    rw [tasks, List.getElem?_append_right (by simp), List.length_modify, Nat.add_sub_cancel_left,
      List.getElem?_map]

/-- Who is not there does nothing. -/
theorem Strode.beyond (strode : Strode s a s') (outside : s.tasks.length ≤ task) :
    s.stridesIn task a = [] := by
  cases strode with
  | @does f u stride t _ took here _ _ =>
    refine stridesIn_other took fun same => ?_
    exact absurd (length_of_getElem? here) (Nat.not_lt_of_le (same ▸ outside))
  | stays _ _ _ none => exact stridesIn_of_none none task

/-- After some actions every task stands where its strides lead the program it was begun with,
and whoever is still to come has done nothing. -/
structure Progress (actions : List Action) (start s : Session) : Prop where
  setup : s.setup = start.setup
  length : s.tasks.length = (origins actions start).length
  goes : ∀ task t, s.tasks[task]? = some t → ∃ o, (origins actions start)[task]? = some o ∧
    Goes start.setup (o.program start.setup) (strides task actions start) t.program t.isPut
  beyond : ∀ task, s.tasks.length ≤ task → strides task actions start = []

/-- **After every run** each task stands where its strides lead the program it was begun with. -/
theorem progress_of_run (fresh : start.tasks = []) (hrun : run actions start = some s) :
    Progress actions start s := by
  induction actions using List.reverseRecOn generalizing s with
  | nil =>
    obtain rfl := Option.some.inj hrun
    exact ⟨rfl, by simp [fresh, origins], fun task t ht => by simp [fresh] at ht, fun _ _ => rfl⟩
  | append_singleton actions a ih =>
    obtain ⟨d, hbefore, hstep⟩ := run_snoc hrun
    obtain ⟨setup, length, stands, untouched⟩ := ih hbefore
    have strode := strode_of_step hstep
    have all := origins_snoc hbefore hstep
    refine ⟨strode.setup.trans setup, ?_, ?_, ?_⟩
    · rw [strode.length, all, List.length_append, length]
    · intro task t' ht'
      rw [all, strides_snoc task hbefore hstep, List.getElem?_append, ← length]
      -- who was there goes on from where it stood, and who came now stands at its beginning
      by_cases inside : task < d.tasks.length
      · rw [if_pos inside]
        have ht := List.getElem?_eq_getElem inside
        obtain ⟨o, ho, goes⟩ := stands task _ ht
        obtain ⟨t'', ht'', leads⟩ := strode.old ht
        obtain rfl := Option.some.inj (ht''.symm.trans ht')
        rw [← setup] at goes ⊢
        exact ⟨o, ho, leads _ _ goes⟩
      · have outside := Nat.le_of_not_lt inside
        rw [if_neg inside]
        have new := strode.new (task - d.tasks.length)
        rw [Nat.add_sub_cancel' outside, ht'] at new
        obtain ⟨o, ho, rfl⟩ := Option.map_eq_some_iff.mp new.symm
        rw [untouched task outside, strode.beyond outside, ← setup]
        exact ⟨o, ho, .nothing⟩
    · intro task outside
      have grown := strode.length
      rw [strides_snoc task hbefore hstep, untouched task (by omega), strode.beyond (by omega)]
      rfl

/-! ## Moments -/

/-- In a run, the task takes this stride after those it took before. The session is at `d` when
it does, and at `d'` next. -/
def Takes (actions : List Action) (start : Session) (task : Nat) (past : List Stride)
    (stride : Stride) (d d' : Session) : Prop :=
  ∃ before a after, actions = before ++ a :: after ∧ run before start = some d ∧
    d.step a = some d' ∧ d.stride? a = some (task, stride) ∧ strides task before start = past

theorem stride?_of_mem {stride : Stride} (mem : stride ∈ s.stridesIn task a) :
    s.stride? a = some (task, stride) := by
  simp only [stridesIn, List.mem_map, Option.mem_toList, Option.filter_eq_some_iff,
    decide_eq_true_eq] at mem
  obtain ⟨⟨who, stride'⟩, ⟨took, rfl⟩, rfl⟩ := mem
  exact took

/-- Every stride was taken at some moment. -/
theorem takes_of_strides {past future : List Stride} {stride : Stride}
    (hrun : run actions start = some s)
    (split : strides task actions start = past ++ stride :: future) :
    ∃ d d', Takes actions start task past stride d d' := by
  have single : ∀ s a, (stridesIn s task a).length ≤ 1 := by
    intro s a
    rw [stridesIn, List.length_map]
    exact Option.length_toList_le
  obtain ⟨before, a, after, d, d', rfl, hbefore, hstep, now, rfl⟩ :=
    moment_of_gathered single hrun split
  have took := stride?_of_mem (now ▸ List.mem_singleton_self stride : stride ∈ d.stridesIn task a)
  exact ⟨d, d', before, a, after, rfl, hbefore, hstep, took, rfl⟩

end EmberClient.Session
