import EmberClient.Session.Step

/-!
# What a step of a session can be

`Session.step` is read here, once: `Stepped` has a case for each thing that can be done, with all
that must hold for it and what it comes to. The answers that come from outside are one case, for
they all do the same: a task has put its question, and goes on with what is brought to it
(`Brings`).

> `step_eq_some_iff`: a step is possible just if it is one of these, and leads where they say.

Whatever every step keeps is shown along these cases.
-/

namespace EmberClient.Session

/-- Runs a command by its name. -/
def Question.isRun : Question → Bool
  | .run .. => true
  | _ => false

/-- An action brings a task the answer to its question from outside. It leaves the session so
that the task can go on in it. -/
inductive Brings (s : Session) (task : Nat) :
    Action → (q : Question) → q.Reply → Session → Prop where
  | launched {handler : Nat} :
    Brings s task (.launched task (.ok ())) (.launch handler) (.ok s.servers.length)
      { s with servers := s.servers ++ [{ handler }] }
  | unlaunched {handler : Nat} (fault : Fault) :
    Brings s task (.launched task (.error fault)) (.launch handler) (.error fault) s
  | terminated {server : Nat} : Brings s task (.terminated task) (.terminate server) () s
  | typed {options : InputBoxOptions} (input : Except Fault (Option String)) :
    Brings s task (.typed task input) (.prompt options) input s
  | opened {path : String} (outcome : Except Fault Unit) :
    Brings s task (.opened task outcome) (.openFile path) outcome s
  | ran {name : String} {arguments : List Json} (outcome : Except Fault Json) :
    Brings s task (.ran task outcome) (.editorCommand name arguments) outcome s
  | elapsed {server place : Nat} {c c' : Connection} {events : List Connection.Event}
      (conn : s.connection? server = some c)
      (abandons : c.step (.abandon place) = some (c', events)) :
    Brings s task (.elapse task) (.awaitBriefly server place) none
      (s.editConnection server fun _ => c')

/-- What a step can be. -/
inductive Stepped (s : Session) : Action → Session → Prop where
  | begins (job : Job) :
    Stepped s (.begin job) { s with tasks := s.tasks ++ [{ program := job.program s.setup }] }
  /-- A task does what a command does. -/
  | runs {task : Nat} {t : Task} {name : String} {arguments : List Json}
      {next : Except Fault Json → Prog Result} (here : s.tasks[task]? = some t)
      (question : t.program = .ask (.run name arguments) next) :
    Stepped s (.advance task)
      (s.setProgram task ((Dispatch.execute s.setup name arguments).bind next))
  /-- A task puts its question. -/
  | puts {task : Nat} {t : Task} {q : Question} {next : q.Reply → Prog Result}
      (here : s.tasks[task]? = some t) (question : t.program = .ask q next)
      (outward : mustPut q = true) (unput : t.isPut = false) :
    Stepped s (.advance task) ((s.put task q).markPut task)
  /-- A task is replied from what is shared. -/
  | replied {task : Nat} {t : Task} {q : Question} {next : q.Reply → Prog Result}
      {r : q.Reply} {s₁ : Session} (here : s.tasks[task]? = some t)
      (question : t.program = .ask q next) (plain : q.isRun = false)
      (ready : mustPut q = true → t.isPut = true) (replied : s.reply task q = some (s₁, r)) :
    Stepped s (.advance task) (s₁.setProgram task (next r))
  /-- A task is brought its answer. -/
  | brought {a : Action} {task : Nat} {t : Task} {q : Question} {next : q.Reply → Prog Result}
      {r : q.Reply} {s₁ : Session} (here : s.tasks[task]? = some t)
      (question : t.program = .ask q next) (ready : mustPut q = true → t.isPut = true)
      (brings : Brings s task a q r s₁) :
    Stepped s a (s₁.setProgram task (next r))
  | cancels (task : Nat) :
    Stepped s (.cancel task)
      { s with tasks := s.tasks.modify task fun t => { t with cancelled := true } }
  /-- A participant of a connection acts. -/
  | acts {server : Nat} {c c' : Connection} {act : Connection.Action}
      {events : List Connection.Event} (conn : s.connection? server = some c)
      (spontaneous : isSpontaneous act = true)
      (allowed : act = .release → s.mayRelease server = true)
      (acts : c.step act = some (c', events)) :
    Stepped s (.connection server act)
      (events.foldl (take server) (s.editConnection server fun _ => c'))
  | shows (view : EditorView) : Stepped s (.editorShows view) { s with view }

variable {s s' s₁ : Session} {a : Action} {task : Nat} {q : Question} {r : q.Reply}

/-! ## Answers from outside -/

namespace Brings

/-- A reply that an action brings is none to a command run within a program. -/
theorem plain (brings : Brings s task a q r s₁) : q.isRun = false := by
  cases brings <;> rfl

/-- It is no reply to a watch either, which begins a task. -/
theorem unwatched (brings : Brings s task a q r s₁) (server : Nat) : q ≠ .watch server := by
  cases brings <;> simp

theorem setup (brings : Brings s task a q r s₁) : s₁.setup = s.setup := by
  cases brings <;> rfl

theorem tasks (brings : Brings s task a q r s₁) : s₁.tasks = s.tasks := by
  cases brings <;> rfl

end Brings

/-- A task is answered when it has put its question, and the answer is to that. -/
theorem answered_eq_some_iff {next? : Prog Result → Option (Prog Result)} :
    s.answered task next? = some s' ↔
      ∃ t program, s.tasks[task]? = some t ∧ t.isPut = true ∧ next? t.program = some program ∧
        s' = s.setProgram task program := by
  simp only [answered, Option.bind_eq_bind, Option.bind_eq_some_iff, Option.ite_none_right_eq_some,
    Option.pure_def, Option.some.injEq]
  constructor
  · rintro ⟨t, here, put, program, next, rfl⟩
    exact ⟨t, program, here, put, next, rfl⟩
  · rintro ⟨t, program, here, put, next, rfl⟩
    exact ⟨t, here, put, program, next, rfl⟩

/-! ## Steps are these -/

/-- Going on with a task is a transition of the relation. -/
theorem stepped_of_advance (hstep : s.advance task = some s') : Stepped s (.advance task) s' := by
  simp only [advance, Option.bind_eq_bind, Option.bind_eq_some_iff] at hstep
  obtain ⟨t, here, hstep⟩ := hstep
  split at hstep
  · contradiction
  · next question =>
    obtain rfl := Option.some.inj hstep
    exact .runs here question
  · next q next other question =>
    have plain : q.isRun = false := by
      cases q with
      | run name arguments => exact (other _ _ _ rfl HEq.rfl).elim
      | _ => rfl
    split at hstep
    · next put =>
      obtain rfl := Option.some.inj hstep
      exact .puts here question put.1 put.2
    · next unput =>
      obtain ⟨⟨s₁, r⟩, replied, hstep⟩ := Option.bind_eq_some_iff.mp hstep
      obtain rfl := Option.some.inj hstep
      have ready : mustPut q = true → t.isPut = true := fun outward =>
        eq_true_of_ne_false fun put => unput ⟨outward, put⟩
      exact .replied here question plain ready replied

/-- Who waits for a server waits for one with its handler. -/
theorem launching?_of_question {t : Task} {handler : Nat} {next : Except Fault Nat → Prog Result}
    (here : s.tasks[task]? = some t) (question : t.program = .ask (.launch handler) next) :
    s.launching? task = some handler := by
  simp [launching?, question?, here, question]

/-- The end of a launch is a transition, whether it came up or not. -/
theorem stepped_of_launched {outcome : Except Fault Unit}
    (hstep : s.launched task outcome = some s') : Stepped s (.launched task outcome) s' := by
  cases outcome with
  | ok =>
    obtain ⟨handler, wanted, hstep⟩ := Option.bind_eq_some_iff.mp hstep
    obtain ⟨t, program, here, put, next, rfl⟩ := answered_eq_some_iff.mp hstep
    split at next
    · next question =>
      obtain rfl := Option.some.inj next
      have here : s.tasks[task]? = some t := here
      obtain rfl := Option.some.inj (wanted.symm.trans (launching?_of_question here question))
      exact .brought here question (fun _ => put) .launched
    · contradiction
  | error fault =>
    simp only [launched] at hstep
    obtain ⟨t, program, here, put, next, rfl⟩ := answered_eq_some_iff.mp hstep
    split at next
    · next question =>
      obtain rfl := Option.some.inj next
      exact .brought here question (fun _ => put) (.unlaunched fault)
    · contradiction

theorem stepped_of_elapse (hstep : s.elapse task = some s') : Stepped s (.elapse task) s' := by
  simp only [elapse, Option.bind_eq_bind, Option.bind_eq_some_iff] at hstep
  obtain ⟨t, here, hstep⟩ := hstep
  split at hstep
  · next question =>
    simp only [Option.bind_eq_some_iff] at hstep
    obtain ⟨c, conn, ⟨c', events⟩, abandons, hstep⟩ := hstep
    obtain rfl := Option.some.inj hstep
    exact .brought here question (by simp [mustPut]) (.elapsed conn abandons)
  · contradiction

theorem stepped_of_actOn {server : Nat} {act : Connection.Action}
    (hstep : s.actOn server act = some s') : Stepped s (.connection server act) s' := by
  simp only [actOn, Option.bind_eq_bind, Option.bind_eq_some_iff,
    Option.ite_none_right_eq_some] at hstep
  obtain ⟨c, conn, ⟨spontaneous, may⟩, ⟨c', events⟩, acts, hstep⟩ := hstep
  obtain rfl := Option.some.inj hstep
  refine .acts conn spontaneous ?_ acts
  rintro rfl
  exact may rfl

/-- Every step is a transition of the relation. -/
theorem stepped_of_step (hstep : s.step a = some s') : Stepped s a s' := by
  cases a with
  | begin job =>
    obtain rfl := Option.some.inj hstep
    exact .begins job
  | advance task => exact stepped_of_advance hstep
  | launched task outcome => exact stepped_of_launched hstep
  | terminated | typed | opened | ran =>
    simp only [step] at hstep
    obtain ⟨t, program, here, put, next, rfl⟩ := answered_eq_some_iff.mp hstep
    split at next
    · next question =>
      obtain rfl := Option.some.inj next
      exact .brought here question (fun _ => put) (by constructor)
    · contradiction
  | elapse task => exact stepped_of_elapse hstep
  | cancel task =>
    obtain rfl := Option.some.inj hstep
    exact .cancels task
  | connection server act => exact stepped_of_actOn hstep
  | editorShows view =>
    obtain rfl := Option.some.inj hstep
    exact .shows view

/-- Every transition of the relation is a step. -/
theorem step_of_stepped (stepped : Stepped s a s') : s.step a = some s' := by
  cases stepped with
  | begins | cancels | shows => rfl
  | runs here question => simp [step, advance, here, question]
  | @puts task t q next here question outward unput =>
    cases q with
    | run => contradiction
    | _ => simp [step, advance, here, question, outward, unput]
  | @replied task t q next r s₁ here question plain ready replied =>
    have put : ¬(mustPut q = true ∧ t.isPut = false) := fun ⟨outward, unput⟩ =>
      Bool.false_ne_true (unput.symm.trans (ready outward))
    cases q with
    | run => contradiction
    | _ => simp [step, advance, here, question, put, replied]
  | brought here question ready brings =>
    cases brings with
    | launched =>
      simp [step, launched, launching?_of_question here question, answered, here, question, ready rfl]
    | elapsed conn abandons => simp [step, elapse, here, question, conn, abandons]
    | _ => simp [step, launched, answered, here, question, ready rfl]
  | @acts server c c' act events conn spontaneous allowed acts =>
    simp only [step, actOn, conn, acts, Option.bind_eq_bind, Option.bind_some]
    refine if_pos ⟨spontaneous, ?_⟩
    cases act with
    | release => exact fun _ => allowed rfl
    | _ => exact nofun

/-- **Steps are these**, and no others are possible. -/
theorem step_eq_some_iff : s.step a = some s' ↔ Stepped s a s' :=
  ⟨stepped_of_step, step_of_stepped⟩

/-- Where there is a transition, the step is possible. -/
theorem isSome_of_stepped (stepped : Stepped s a s') : (s.step a).isSome = true := by
  rw [step_of_stepped stepped]
  rfl

end EmberClient.Session
