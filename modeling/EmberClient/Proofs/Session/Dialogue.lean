import EmberClient.Proofs.Session.Strides

/-!
# What the programs of a session are told

A program of the client asks and is replied; what it asked so far with the replies, in
order, is its dialogue. `Leads` says where a program stands after a dialogue. It leaves
open who replies and what: a program that runs a command by its name does what the
command does, and every other question may be replied with anything.

In a session the replies come from what is shared. `dialogue` lists what a task was told in a
run. It is what the strides of the task were told (`dialogue_eq_told`), and it determines where
the task stands, with what it was begun for:

> `leads_of_run`: after every run, each task stands where its dialogue leads the program
> it was begun with.

So what is shown of a program for all dialogues holds of each of its tasks in every run,
beside whatever else is under way.
-/

namespace EmberClient.Session

variable {setup : Setup} {α β : Type}

/-! ## Dialogues -/

/-- Where a dialogue leads a program. -/
inductive Leads (setup : Setup) {α : Type} (p : Prog α) : List Exchange → Prog α → Prop where
  | nothing : Leads setup p [] p
  /-- A question is replied. -/
  | told {said : List Exchange} {q : Question} {next : q.Reply → Prog α}
      (before : Leads setup p said (.ask q next)) (plain : q.isRun = false) (r : q.Reply) :
    Leads setup p (said ++ [⟨q, r⟩]) (next r)
  /-- What a command does takes the place of running it. -/
  | runs {said : List Exchange} {name : String} {arguments : List Json}
      {next : Except Fault Json → Prog α}
      (before : Leads setup p said (.ask (.run name arguments) next)) :
    Leads setup p said ((Dispatch.execute setup name arguments).bind next)

/-- A dialogue in which a program comes to a result. -/
def Gives (setup : Setup) (p : Prog α) (said : List Exchange) (a : α) : Prop :=
  Leads setup p said (.done a)

/-- What leads on from where a program led to is led to by the program. -/
theorem Leads.trans {p q r : Prog α} {said more : List Exchange} (first : Leads setup p said q)
    (second : Leads setup q more r) : Leads setup p (said ++ more) r := by
  induction second with
  | nothing => rwa [List.append_nil]
  | told before plain r ih =>
    rw [← List.append_assoc]
    exact .told ih plain r
  | runs before ih => exact .runs ih

/-- A dialogue of two programs, one after the other, is still with the first, or with the
second after the first has come to a result. -/
theorem Leads.of_bind {p : Prog α} {f : α → Prog β} {said : List Exchange} {r : Prog β}
    (leads : Leads setup (p >>= f) said r) :
    (∃ q, Leads setup p said q ∧ r = q >>= f) ∨
      ∃ a first second, said = first ++ second ∧ Gives setup p first a ∧
        Leads setup (f a) second r := by
  -- along what was said: the first part was still at it, or was done and the second goes on
  induction leads with
  | nothing => exact .inl ⟨p, .nothing, rfl⟩
  | @told said q next before plain reply ih =>
    rcases ih with ⟨q', leads, same⟩ | ⟨a, first, second, rfl, done, leads⟩
    · cases q' with
      | done a =>
        have here : Leads setup (f a) [] (.ask q next) := same ▸ .nothing
        exact .inr ⟨a, said, [⟨q, reply⟩], rfl, leads, here.told plain reply⟩
      | ask question following =>
        obtain ⟨rfl, rfl⟩ := Program.ask.inj same
        exact .inl ⟨following reply, leads.told plain reply, rfl⟩
    · exact .inr ⟨a, first, second ++ [⟨q, reply⟩], (List.append_assoc ..), done,
        leads.told plain reply⟩
  | @runs said name arguments next before ih =>
    rcases ih with ⟨q', leads, same⟩ | ⟨a, first, second, rfl, done, leads⟩
    · cases q' with
      | done a =>
        have here : Leads setup (f a) [] (.ask (.run name arguments) next) := same ▸ .nothing
        exact .inr ⟨a, said, [], (List.append_nil said).symm, leads, here.runs⟩
      | ask question following =>
        obtain ⟨rfl, rfl⟩ := Program.ask.inj same
        exact .inl ⟨_, leads.runs, (Program.bind_bind ..).symm⟩
    · exact .inr ⟨a, first, second, rfl, done, leads.runs⟩

/-- A program that is done leads nowhere. -/
theorem Leads.of_done {a : α} {said : List Exchange} {q : Prog α}
    (leads : Leads setup (.done a) said q) : said = [] ∧ q = .done a := by
  induction leads with
  | nothing => exact ⟨rfl, rfl⟩
  | told before plain r ih => exact absurd ih.2 (by simp)
  | runs before ih => exact absurd ih.2 (by simp)

/-- A question leads to its reply, or nowhere yet. -/
theorem Leads.of_ask {q : Question} {said : List Exchange} {p : Prog q.Reply}
    (leads : Leads setup (ask q) said p) (plain : q.isRun = false) :
    (said = [] ∧ p = ask q) ∨ ∃ r, said = [⟨q, r⟩] ∧ p = .done r := by
  induction leads with
  | nothing => exact .inl ⟨rfl, rfl⟩
  | told before _ r ih =>
    rcases ih with ⟨rfl, same⟩ | ⟨r', -, same⟩
    · obtain ⟨rfl, rfl⟩ := Program.ask.inj same
      exact .inr ⟨r, rfl, rfl⟩
    · exact absurd same (by simp)
  | runs before ih =>
    rcases ih with ⟨-, same⟩ | ⟨r', -, same⟩
    · obtain ⟨rfl, -⟩ := Program.ask.inj same
      exact absurd plain (by simp [Question.isRun])
    · exact absurd same (by simp)

/-- The first question is unanswered, or the reply to it begins the dialogue. -/
theorem Leads.of_first {q : Question} {f : q.Reply → Prog β} {said : List Exchange} {p : Prog β}
    (leads : Leads setup (ask q >>= f) said p) (plain : q.isRun = false) :
    (said = [] ∧ p = ask q >>= f) ∨ ∃ r rest, said = ⟨q, r⟩ :: rest ∧ Leads setup (f r) rest p := by
  rcases leads.of_bind with ⟨p', first, rfl⟩ | ⟨r, first, rest, rfl, asked, goes⟩
  · rcases first.of_ask plain with ⟨rfl, rfl⟩ | ⟨r, rfl, rfl⟩
    · exact .inl ⟨rfl, rfl⟩
    · exact .inr ⟨r, [], rfl, .nothing⟩
  · rcases Leads.of_ask asked plain with ⟨-, same⟩ | ⟨r', rfl, same⟩
    · exact absurd same (by simp [ask, Program.question])
    · obtain rfl := Program.done.inj same
      exact .inr ⟨r, rest, rfl, goes⟩

/-- Running a command by its name is doing what the command does. -/
theorem Leads.of_run {name : String} {arguments : List Json} {said : List Exchange}
    {p : Prog (Except Fault Json)} (leads : Leads setup (ask (.run name arguments)) said p) :
    (said = [] ∧ p = ask (.run name arguments)) ∨
      Leads setup (Dispatch.execute setup name arguments) said p := by
  -- along what was said: the command has not been run yet, or it is what goes on
  induction leads with
  | nothing => exact .inl ⟨rfl, rfl⟩
  | told before plain r ih =>
    rcases ih with ⟨-, same⟩ | inside
    · obtain ⟨rfl, -⟩ := Program.ask.inj same
      exact absurd plain (by simp [Question.isRun])
    · exact .inr (inside.told plain r)
  | runs before ih =>
    rcases ih with ⟨rfl, same⟩ | inside
    · obtain ⟨question, next⟩ := Program.ask.inj same
      obtain ⟨rfl, rfl⟩ := Question.run.inj question
      obtain rfl := eq_of_heq next
      rw [Program.bind_done]
      exact .inr .nothing
    · exact .inr inside.runs

section

variable {p : Prog α} {f : α → Prog β} {said : List Exchange} {a b : α} {c : β}

/-- What two programs in a row give is split where the first one ends. -/
theorem Gives.of_bind (comes : Gives setup (p >>= f) said c) :
    ∃ a first second, said = first ++ second ∧ Gives setup p first a ∧
      Gives setup (f a) second c := by
  rcases Leads.of_bind comes with ⟨q, leads, same⟩ | split
  · cases q with
    | done a =>
      have here : Gives setup (f a) [] c := by
        show Leads setup (f a) [] (.done c)
        rw [same]
        exact .nothing
      exact ⟨a, said, [], (List.append_nil said).symm, leads, here⟩
    | ask => exact absurd same (by simp [Bind.bind])
  · exact split

theorem Gives.of_done (comes : Gives setup (.done a) said b) : said = [] ∧ b = a := by
  obtain ⟨rfl, same⟩ := Leads.of_done comes
  exact ⟨rfl, Program.done.inj same⟩

/-- The reply to the first question begins a dialogue. -/
theorem Gives.of_ask {q : Question} {f : q.Reply → Prog β} (plain : q.isRun = false)
    (comes : Gives setup (ask q >>= f) said c) :
    ∃ r rest, said = ⟨q, r⟩ :: rest ∧ Gives setup (f r) rest c := by
  obtain ⟨r, first, rest, rfl, asked, goes⟩ := comes.of_bind
  rcases Leads.of_ask asked plain with ⟨-, same⟩ | ⟨r', rfl, same⟩
  · exact absurd same (by simp [ask, Program.question])
  · obtain rfl := Program.done.inj same
    exact ⟨r, rest, rfl, goes⟩

/-- One question comes to its reply. -/
theorem Gives.question {q : Question} {r : q.Reply} (comes : Gives setup (ask q) said r)
    (plain : q.isRun = false) : said = [⟨q, r⟩] := by
  rcases Leads.of_ask comes plain with ⟨-, same⟩ | ⟨r', rfl, same⟩
  · exact absurd same (by simp [ask, Program.question])
  · rw [Program.done.inj same]

/-- A command that is run by its name comes to a result of its own. -/
theorem Gives.of_run {name : String} {arguments : List Json} {f : Except Fault Json → Prog β}
    (comes : Gives setup (ask (.run name arguments) >>= f) said c) :
    ∃ outcome first second, said = first ++ second ∧
      Gives setup (Dispatch.execute setup name arguments) first outcome ∧
      Gives setup (f outcome) second c := by
  obtain ⟨outcome, first, second, rfl, ran, goes⟩ := comes.of_bind
  rcases Leads.of_run ran with ⟨-, same⟩ | inside
  · exact absurd same (by simp [ask, Program.question])
  · exact ⟨outcome, first, second, rfl, inside, goes⟩

end

/-! ## What tasks are told -/

/-- What a task is told in an action. -/
def told (s : Session) (task : Nat) (a : Action) : List Exchange :=
  ((s.told? a).filter fun (listener, _) => listener = task).toList.map (·.2)

/-- What a task was told in a sequence of actions. -/
def dialogue (task : Nat) : List Action → Session → List Exchange
  | [], _ => []
  | a :: rest, s =>
    match s.step a with
    | some s' => s.told task a ++ dialogue task rest s'
    | none => []

/-- An action that tells nobody anything tells no task anything. -/
theorem told_of_none {s : Session} {a : Action} (silent : s.told? a = none) (task : Nat) :
    s.told task a = [] := by
  simp [told, silent]

/-- The task that is told something is told just that. -/
theorem told_self {s : Session} {a : Action} {task : Nat} {e : Exchange}
    (heard : s.told? a = some (task, e)) : s.told task a = [e] := by
  simp [told, heard]

theorem told_other {s : Session} {a : Action} {task u : Nat} {e : Exchange}
    (heard : s.told? a = some (task, e)) (other : u ≠ task) : s.told u a = [] := by
  have apart : task ≠ u := fun same => other same.symm
  simp [told, heard, apart]

/-- A task is told one thing at most in an action. -/
theorem told_single (task : Nat) (s : Session) (a : Action) : (s.told task a).length ≤ 1 := by
  rw [told, List.length_map]
  exact Option.length_toList_le

/-! ## What strides tell -/

/-- What a stride is told. -/
def Stride.exchange? : Stride → Option Exchange
  | .told e => some e
  | _ => none

/-- Strides lead where what they are told leads. -/
theorem Goes.leads {p q : Prog α} {done : List Stride} {put : Bool}
    (goes : Goes setup p done q put) : Leads setup p (done.filterMap Stride.exchange?) q := by
  induction goes with
  | nothing => exact .nothing
  | does before leads ih =>
    rw [List.filterMap_append]
    cases leads with
    | puts =>
      rw [show [Stride.puts _].filterMap Stride.exchange? = [] from rfl, List.append_nil]
      exact ih
    | told plain _ r => exact ih.told plain r
    | runs =>
      rw [show [Stride.runs _ _].filterMap Stride.exchange? = [] from rfl, List.append_nil]
      exact ih.runs

/-- Whoever is told something goes on with it. -/
theorem told?_eq (s : Session) (a : Action) :
    s.told? a = (s.stride? a).bind fun (task, stride) => stride.exchange?.map fun e => (task, e) := by
  cases a with
  | advance task =>
    simp only [told?, stride?, Option.bind_eq_bind]
    cases s.tasks[task]? with
    | none => rfl
    | some t =>
      simp only [Option.bind_some]
      cases t.program with
      | done => rfl
      | ask q next =>
        cases q with
        | run => rfl
        | _ =>
          dsimp only
          split
          · rfl
          · cases s.reply task _ <;> rfl
  | begin | cancel | connection | editorShows => rfl
  | _ =>
    simp only [stride?]
    cases s.told? _ <;> rfl

/-- What a task is told is the exchange of the stride it takes. -/
theorem told?_of_stride {s : Session} {a : Action} {task : Nat} {stride : Stride}
    (took : s.stride? a = some (task, stride)) :
    s.told? a = stride.exchange?.map fun e => (task, e) := by
  rw [told?_eq, took]
  rfl

/-- Only the task that goes on is told anything, and what it is told is a reply to its question. -/
theorem heard_of_advance {s s' : Session} {u task : Nat} {q : Question} {r : q.Reply}
    (hstep : s.step (.advance u) = some s') (heard : s.told? (.advance u) = some (task, ⟨q, r⟩)) :
    u = task ∧ s.question? task = some q ∧
      ∃ s₁ program, s' = s₁.setProgram task program ∧ s.reply task q = some (s₁, r) := by
  obtain ⟨t, stride, here, took, advances⟩ := advances_of_step hstep
  have told := heard.symm.trans (told?_of_stride took)
  cases advances with
  | runs | puts => contradiction
  | told question plain ready replied =>
    obtain ⟨rfl, same⟩ := Prod.mk.inj (Option.some.inj told)
    cases same
    exact ⟨rfl, question?_of here question, _, _, rfl, replied⟩

/-- Whoever is told something in a step was at that question, and goes on with the reply: it is
replied from what is shared, or brought the answer from outside. -/
theorem heard_of_step {s s' : Session} {a : Action} {task : Nat} {q : Question} {r : q.Reply}
    (hstep : s.step a = some s') (heard : s.told? a = some (task, ⟨q, r⟩)) :
    s.question? task = some q ∧ ∃ s₁ program, s' = s₁.setProgram task program ∧
      ((a = .advance task ∧ s.reply task q = some (s₁, r)) ∨ Brings s task a q r s₁) := by
  cases stepped_of_step hstep with
  | begins | cancels | acts | shows => contradiction
  | runs | puts | replied =>
    obtain ⟨rfl, asked, s₁, program, goes, replied⟩ := heard_of_advance hstep heard
    exact ⟨asked, s₁, program, goes, .inl ⟨rfl, replied⟩⟩
  | brought here question ready brings =>
    have asked := question?_of here question
    have told := told?_of_brings brings asked
    obtain ⟨rfl, same⟩ := Prod.mk.inj (Option.some.inj (heard.symm.trans told))
    cases same
    exact ⟨asked, _, _, rfl, .inr brings⟩

/-- The dialogue of a task is what its strides exchange. -/
theorem told_eq (s : Session) (task : Nat) (a : Action) :
    s.told task a = (s.stridesIn task a).filterMap Stride.exchange? := by
  rw [told, stridesIn, told?_eq]
  cases s.stride? a with
  | none => rfl
  | some taken =>
    obtain ⟨who, stride⟩ := taken
    by_cases same : who = task
    · cases stride <;> simp [Stride.exchange?, Option.filter, same]
    · cases stride <;> simp [Stride.exchange?, Option.filter, same]

/-! ## Runs -/

theorem dialogue_eq (task : Nat) : dialogue task = gathered fun s a => s.told task a :=
  eq_gathered (fun _ => rfl) fun _ _ _ => rfl

/-- A longer run adds to the dialogue what its last action told. -/
theorem dialogue_snoc {actions : List Action} {a : Action} {s d s' : Session} (task : Nat)
    (hrun : run actions s = some d) (hstep : d.step a = some s') :
    dialogue task (actions ++ [a]) s = dialogue task actions s ++ d.told task a := by
  rw [dialogue_eq]
  exact gathered_snoc hrun hstep

/-- A dialogue is what strides are told. -/
theorem dialogue_eq_told (task : Nat) (actions : List Action) (s : Session) :
    dialogue task actions s = (strides task actions s).filterMap Stride.exchange? := by
  induction actions generalizing s with
  | nil => rfl
  | cons a rest ih =>
    simp only [dialogue, strides, gathered]
    cases s.step a with
    | none => rfl
    | some s' =>
      rw [List.filterMap_append, ← told_eq]
      exact congrArg _ (ih s')

/-- After some actions every task stands where its dialogue leads the program it was begun
with, and whoever is still to come was told nothing. -/
structure Standings (actions : List Action) (s s' : Session) : Prop where
  setup : s'.setup = s.setup
  length : s'.tasks.length = (origins actions s).length
  leads : ∀ task t, s'.tasks[task]? = some t → ∃ o, (origins actions s)[task]? = some o ∧
    Leads s.setup (o.program s.setup) (dialogue task actions s) t.program
  beyond : ∀ task, s'.tasks.length ≤ task → dialogue task actions s = []

/-- After every run each task stands where its dialogue leads the program it was begun
with. -/
theorem leads_of_run {actions : List Action} {s s' : Session} (fresh : s.tasks = [])
    (hrun : run actions s = some s') : Standings actions s s' := by
  have progress := progress_of_run fresh hrun
  refine ⟨progress.setup, progress.length, ?_, ?_⟩
  · intro task t ht
    obtain ⟨o, ho, goes⟩ := progress.goes task t ht
    rw [dialogue_eq_told]
    exact ⟨o, ho, goes.leads⟩
  · intro task outside
    rw [dialogue_eq_told, progress.beyond task outside]
    rfl

/-- A task that was begun is there, where its dialogue leads what it was begun with. -/
theorem task_of_begun {actions : List Action} {s s' : Session} (fresh : s.tasks = [])
    (hrun : run actions s = some s') {task : Nat} {o : Origin}
    (begun : (origins actions s)[task]? = some o) :
    ∃ t, s'.tasks[task]? = some t ∧
      Leads s.setup (o.program s.setup) (dialogue task actions s) t.program := by
  have standings := leads_of_run fresh hrun
  have inside := length_of_getElem? begun
  rw [← standings.length] at inside
  obtain ⟨o', ho', leads⟩ := standings.leads task _ (List.getElem?_eq_getElem inside)
  obtain rfl := Option.some.inj (begun.symm.trans ho')
  exact ⟨_, List.getElem?_eq_getElem inside, leads⟩

/-- The dialogue of a task is one that its program leads through. -/
theorem leads_of_begun {actions : List Action} {s s' : Session} (fresh : s.tasks = [])
    (hrun : run actions s = some s') {task : Nat} {o : Origin}
    (begun : (origins actions s)[task]? = some o) :
    ∃ p, Leads s.setup (o.program s.setup) (dialogue task actions s) p := by
  obtain ⟨t, -, leads⟩ := task_of_begun fresh hrun begun
  exact ⟨t.program, leads⟩

/-- What a task came to is what its dialogue makes its program come to. -/
theorem gives_of_result {actions : List Action} {s s' : Session} (fresh : s.tasks = [])
    (hrun : run actions s = some s') {task : Nat} {o : Origin} {r : Result}
    (begun : (origins actions s)[task]? = some o) (result : s'.result? task = some r) :
    Gives s.setup (o.program s.setup) (dialogue task actions s) r := by
  unfold result? at result
  split at result
  · next r' done =>
    obtain rfl := Option.some.inj result
    obtain ⟨t, ht, program⟩ := Option.map_eq_some_iff.mp done
    obtain ⟨t', ht', leads⟩ := task_of_begun fresh hrun begun
    obtain rfl := Option.some.inj (ht.symm.trans ht')
    rwa [program] at leads
  · contradiction

end EmberClient.Session
