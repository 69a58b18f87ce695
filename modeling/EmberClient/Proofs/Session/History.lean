import EmberClient.Proofs.Connection.History
import EmberClient.Proofs.Session.Course
import EmberClient.Proofs.Session.Steps
import Mathlib.Logic.Function.Basic

/-!
# What happens in a session

`history` tells what happened to the slot and to the servers in a run, `actionsOn`
what was done on one connection. `Move` says once what a single step can do while
every task keeps to its course; `move_of_step` finds the move of a step, and
`run_induct` turns what each move keeps into what holds after every run.
-/

namespace EmberClient.Session

open Text

/-! ## Happenings -/

/-- How a server leaves the slot. -/
inductive Removal where
  /-- A transition takes it out. -/
  | taken
  /-- Its watcher empties the slot. -/
  | vacated
  deriving DecidableEq

/-- One thing that happens to the slot or to a server, as an observer notes it. -/
inductive Happening where
  /-- A server is put into the slot; this was in it before. -/
  | filled (server : Nat) (previous : Option Nat)
  /-- A task removes a server from the slot. -/
  | removed (task server : Nat) (why : Removal)
  /-- A task begins a call, which gets a place; the task may be in a transition. -/
  | called (task server place : Nat) (method : String) (params : Json) (inTransition : Bool)
  /-- A task has ended the process of a server. -/
  | ended (task server : Nat)

/-- Where a call on a server is placed. -/
def nextPlace (s : Session) (server : Nat) : Nat :=
  ((s.connection? server).map fun c => c.callers.length).getD 0

/-- What happens when this question of a task is answered. -/
def noted (s : Session) (task : Nat) : Question → Option Happening
  | .setCurrent server => some (.filled server s.slot)
  | .takeCurrent => s.slot.map fun server => .removed task server .taken
  | .vacate => s.slot.map fun server => .removed task server .vacated
  | .call server method params =>
    some (.called task server (s.nextPlace server) method params (s.lock.head? = some task))
  | .terminate server => some (.ended task server)
  | _ => none

/-- What happens in an action. -/
def happening (s : Session) : Action → Option Happening
  | .advance task =>
    match s.question? task with
    | some (.terminate _) => none
    | some q => s.noted task q
    | none => none
  | .terminated task => (s.question? task).bind (s.noted task)
  | _ => none

/-- What happened in a sequence of actions, up to the first that is not possible. -/
def history : List Action → Session → List Happening
  | [], _ => []
  | a :: rest, s =>
    match s.step a with
    | some s' => (s.happening a).toList ++ history rest s'
    | none => []

/-! ## What is done on a connection -/

/-- What a question does on the connection to a server when it is answered. -/
def clientAction (c : Connection) (server : Nat) : Question → Option Connection.Action
  | .call i method params => if i = server then some (.call method params) else none
  | .notify i method params => if i = server then some (.notify method params) else none
  | .respond i place outcome =>
    if i = server ∧ (c.answer place outcome).isSome then some (.answer place outcome) else none
  | _ => none

/-- What giving a call up does on the connection to a server. -/
def giveUp (server : Nat) : Question → Option Connection.Action
  | .awaitBriefly i place => if i = server then some (.abandon place) else none
  | _ => none

/-- What an action does on the connection to a server that is up. -/
def actionOn (s : Session) (server : Nat) (a : Action) : Option Connection.Action :=
  (s.connection? server).bind fun c =>
    match a with
    | .advance task => (s.question? task).bind (clientAction c server)
    | .elapse task => (s.question? task).bind (giveUp server)
    | .connection i act => if i = server then some act else none
    | _ => none

/-- What was done on the connection to a server in a sequence of actions. -/
def actionsOn (server : Nat) : List Action → Session → List Connection.Action
  | [], _ => []
  | a :: rest, s =>
    match s.step a with
    | some s' => (s.actionOn server a).toList ++ actionsOn server rest s'
    | none => []

/-! ## Moves -/

/-- All that transitions and watchers depend on is the same. -/
structure SameCore (s s' : Session) : Prop where
  setup : s'.setup = s.setup
  state : s'.state = s.state
  slot : s'.slot = s.slot
  claimant : s'.claimant = s.claimant
  lock : s'.lock = s.lock

/-- A task has its place in the queue for the lock, and waits. -/
def Queued (s : Session) (task : Nat) : Prop :=
  ∃ t next, s.tasks[task]? = some t ∧ t.program = .ask .lock next ∧ t.isPut = true

/-- How a question comes to be answered, what that does on each connection, and what
it changes. -/
inductive Replies (s : Session) (task : Nat) :
    (q : Question) → q.Reply → (Nat → Option Connection.Action) → Session → Prop where
  | own {q : Question} {r : q.Reply} {s₁ : Session} (h : s.reply task q = some (s₁, r)) :
    Replies s task q r (fun server => (s.connection? server).bind fun c => clientAction c server q)
      s₁
  | launched {handler : Nat} :
    Replies s task (.launch handler) (.ok s.servers.length) (fun _ => none)
      { s with servers := s.servers ++ [{ handler }] }
  | unlaunched {handler : Nat} (fault : Fault) :
    Replies s task (.launch handler) (.error fault) (fun _ => none) s
  | terminated {server : Nat} : Replies s task (.terminate server) () (fun _ => none) s
  | typed {options : InputBoxOptions} (input : Except Fault (Option String)) :
    Replies s task (.prompt options) input (fun _ => none) s
  | opened {path : String} (outcome : Except Fault Unit) :
    Replies s task (.openFile path) outcome (fun _ => none) s
  | ran {name : String} {arguments : List Json} (outcome : Except Fault Json) :
    Replies s task (.editorCommand name arguments) outcome (fun _ => none) s
  | elapsed {server place : Nat} {c c' : Connection} {events : List Connection.Event}
      (conn : s.connection? server = some c)
      (hstep : c.step (.abandon place) = some (c', events)) :
    Replies s task (.awaitBriefly server place) none
      (fun i => (s.connection? i).bind fun _ => giveUp i (.awaitBriefly server place))
      (s.editConnection server fun _ => c')

/-- What one step can do: what happens in it, what it does on each connection, and
what comes of it, where the tasks keep to their courses. -/
inductive Move (s : Session) (course : Nat → Phase) :
    Option Happening → (Nat → Option Connection.Action) → Session → (Nat → Phase) → Prop where
  /-- A task goes on with a reply. -/
  | asks {task : Nat} {t : Task} {q : Question} {next : q.Reply → Prog Result} {r : q.Reply}
      {acts : Nat → Option Connection.Action} {s₁ : Session} {φ : Phase}
      (here : s.tasks[task]? = some t) (question : t.program = .ask q next)
      (step : Phase.Step s.setup (course task) q r φ) (replies : Replies s task q r acts s₁)
      (other : ∀ server, q ≠ .watch server) :
    Move s course (s.noted task q) acts (s₁.setProgram task (next r))
      (Function.update course task φ)
  /-- A task starts to watch a server. -/
  | watches {task : Nat} {t : Task} {server : Nat} {next : Unit → Prog Result}
      (here : s.tasks[task]? = some t) (question : t.program = .ask (.watch server) next)
      (stands : course task = .shown server) :
    Move s course none (fun _ => none)
      ((s.spawn (Lifecycle.watchExit server)).setProgram task (next ()))
      (Function.update (Function.update course s.tasks.length (.watching server)) task .finishing)
  /-- A task takes its place in the queue for the lock. -/
  | wants {task : Nat} {t : Task} {next : Unit → Prog Result} (here : s.tasks[task]? = some t)
      (question : t.program = .ask .lock next) (new : t.isPut = false) :
    Move s course none (fun _ => none) ({ s with lock := s.lock ++ [task] }.markPut task) course
  /-- A participant of a connection acts. -/
  | acts {server : Nat} {c c' : Connection} {act : Connection.Action}
      {events : List Connection.Event} (conn : s.connection? server = some c)
      (spontaneous : isSpontaneous act = true) (hstep : c.step act = some (c', events)) :
    Move s course none
      (fun i => (s.connection? i).bind fun _ => if server = i then some act else none)
      (events.foldl (take server) (s.editConnection server fun _ => c')) course
  /-- Nothing changes that matters here. -/
  | quiet {s' : Session} (same : SameCore s s') (servers : s'.servers = s.servers)
      (queued : ∀ task, Queued s task → Queued s' task) (handlers : s'.handlers = s.handlers) :
    Move s course none (fun _ => none) s' course

/-! ## Tasks on their courses -/

/-- A view of the phases stays when a task goes to a phase that looks the same. -/
theorem view_update {β : Type} {course : Nat → Phase} {task : Nat} {φ : Phase}
    (view : Nat → Phase → β) (same : view task φ = view task (course task)) (u : Nat) :
    view u (Function.update course task φ u) = view u (course u) := by
  by_cases here : u = task
  · subst here
    rw [Function.update_self, same]
  · rw [Function.update_of_ne here]

/-- Whoever is in a phase that a task has not just come to was there before. -/
theorem stood_of_update {course : Nat → Phase} {task u : Nat} {φ ψ : Phase} (other : φ ≠ ψ)
    (stands : Function.update course task φ u = ψ) : u ≠ task ∧ course u = ψ := by
  rcases eq_or_ne u task with rfl | apart
  · rw [Function.update_self] at stands
    exact absurd stands other
  · rw [Function.update_of_ne apart] at stands
    exact ⟨apart, stands⟩

/-- Where everybody is after a start has begun the watcher of its server. -/
theorem watches_cases (course : Nat → Phase) (last server task u : Nat) :
    let now := Function.update (Function.update course last (.watching server)) task .finishing
    (u = task ∧ now u = .finishing) ∨ (u ≠ task ∧ u = last ∧ now u = .watching server) ∨
      (u ≠ task ∧ u ≠ last ∧ now u = course u) := by
  by_cases starts : u = task
  · rw [starts]
    exact Or.inl ⟨rfl, Function.update_self ..⟩
  · simp only [Function.update_of_ne starts]
    by_cases new : u = last
    · rw [new]
      exact Or.inr (Or.inl ⟨new ▸ starts, rfl, Function.update_self ..⟩)
    · exact Or.inr (Or.inr ⟨starts, new, Function.update_of_ne new ..⟩)

/-- Every task keeps to its course, and whoever is still to come is free. -/
structure OnCourse (s : Session) (course : Nat → Phase) : Prop where
  follows : ∀ task t, s.tasks[task]? = some t → Follows s.setup AtEase (course task) t.program
  beyond : ∀ task, s.tasks.length ≤ task → course task = .free []

theorem length_of_getElem? {α : Type} {l : List α} {i : Nat} {a : α} (h : l[i]? = some a) :
    i < l.length :=
  (List.getElem?_eq_some_iff.mp h).1

/-- What stands somewhere after a task's entry is changed. -/
theorem getElem?_modify_cases {α : Type} {l : List α} {i j : Nat} {f : α → α} {b : α}
    (h : (l.modify i f)[j]? = some b) :
    (j = i ∧ ∃ a, l[j]? = some a ∧ b = f a) ∨ (j ≠ i ∧ l[j]? = some b) := by
  rw [List.getElem?_modify] at h
  obtain ⟨a, ha, rfl⟩ := Option.map_eq_some_iff.mp h
  by_cases same : i = j
  · rw [if_pos same]
    exact Or.inl ⟨same.symm, a, ha, rfl⟩
  · rw [if_neg same]
    exact Or.inr ⟨fun e => same e.symm, ha⟩

/-- A task goes on. -/
theorem OnCourse.goOn {s s' : Session} {course : Nat → Phase} {task : Nat} {t : Task}
    {program : Prog Result} {φ : Phase} (on : OnCourse s course)
    (here : s.tasks[task]? = some t) (setup : s'.setup = s.setup) (tasks : s'.tasks = s.tasks)
    (follows : Follows s.setup AtEase φ program) :
    OnCourse (s'.setProgram task program) (Function.update course task φ) := by
  refine ⟨?_, ?_⟩
  · intro u v hv
    show Follows s'.setup AtEase _ v.program
    rw [setup]
    rcases getElem?_modify_cases hv with ⟨rfl, a, -, rfl⟩ | ⟨other, hv⟩
    · rw [Function.update_self]
      exact follows
    · rw [Function.update_of_ne other]
      rw [tasks] at hv
      exact on.follows u v hv
  · intro u hu
    have inside := length_of_getElem? here
    have length : (s'.setProgram task program).tasks.length = s.tasks.length := by
      show (s'.tasks.modify task _).length = _
      rw [List.length_modify, tasks]
    rw [Function.update_of_ne (by omega)]
    exact on.beyond u (by omega)

/-- A task is added that keeps to its course from this phase on. -/
theorem OnCourse.add {s s' : Session} {course : Nat → Phase} {t : Task} {φ : Phase}
    (on : OnCourse s course) (setup : s'.setup = s.setup) (tasks : s'.tasks = s.tasks ++ [t])
    (follows : Follows s.setup AtEase φ t.program) :
    OnCourse s' (Function.update course s.tasks.length φ) := by
  refine ⟨?_, ?_⟩
  · intro u v hv
    rw [setup]
    rw [tasks, List.getElem?_append] at hv
    split at hv
    next inside =>
      rw [Function.update_of_ne (Nat.ne_of_lt inside)]
      exact on.follows u v hv
    next outside =>
      obtain rfl := List.mem_singleton.mp (List.mem_of_getElem? hv)
      have last := length_of_getElem? hv
      rw [List.length_singleton] at last
      obtain rfl : u = s.tasks.length := by omega
      rw [Function.update_self]
      exact follows
  · intro u hu
    rw [tasks, List.length_append, List.length_singleton] at hu
    rw [Function.update_of_ne (by omega)]
    exact on.beyond u (by omega)

/-- A free task is added. -/
theorem OnCourse.addFree {s s' : Session} {course : Nat → Phase} {t : Task}
    (on : OnCourse s course) (setup : s'.setup = s.setup) (tasks : s'.tasks = s.tasks ++ [t])
    (follows : Follows s.setup AtEase (.free []) t.program) : OnCourse s' course := by
  have added := on.add setup tasks follows
  rwa [← on.beyond s.tasks.length (Nat.le_refl _), Function.update_eq_self] at added

/-- The tasks ask what they asked, though something about them may be noted. -/
theorem OnCourse.same {s s' : Session} {course : Nat → Phase} (on : OnCourse s course)
    (setup : s'.setup = s.setup) (length : s'.tasks.length = s.tasks.length)
    (tasks : ∀ (u : Nat) (v : Task), s'.tasks[u]? = some v →
      ∃ t, s.tasks[u]? = some t ∧ v.program = t.program) :
    OnCourse s' course := by
  refine ⟨?_, ?_⟩
  · intro u v hv
    obtain ⟨t, ht, same⟩ := tasks u v hv
    rw [setup, same]
    exact on.follows u t ht
  · intro u hu
    exact on.beyond u (length ▸ hu)

/-! ## Steps are moves -/

/-- Questions whose answers change the servers. -/
def changesServers : Question → Bool
  | .call .. | .notify .. | .respond .. | .discard _ | .advertise .. => true
  | _ => false

/-- Questions whose answers change what transitions and watchers depend on. -/
def changesCore : Question → Bool
  | .unlock | .setState _ | .setCurrent _ | .takeCurrent | .claim _ | .vacate => true
  | _ => false

/-- What an answer from what is shared leaves alone. -/
structure Frame (s : Session) (q : Question) (s₁ : Session) : Prop where
  setup : s₁.setup = s.setup
  tasks : (∀ server, q ≠ .watch server) → s₁.tasks = s.tasks
  servers : changesServers q = false → s₁.servers = s.servers
  core : changesCore q = false → SameCore s s₁

theorem frame_self (s : Session) (q : Question) : Frame s q s :=
  ⟨rfl, fun _ => rfl, fun _ => rfl, fun _ => ⟨rfl, rfl, rfl, rfl, rfl⟩⟩

/-- A reply changes what its question says it changes, and no more. -/
theorem reply_frame {s s₁ : Session} {task : Nat} {q : Question} {r : q.Reply}
    (h : s.reply task q = some (s₁, r)) : Frame s q s₁ := by
  -- a question changes the core or the servers, never both
  have core : changesCore q = true → s₁.setup = s.setup → s₁.tasks = s.tasks →
      s₁.servers = s.servers → Frame s q s₁ := by
    intro changes setup tasks servers
    refine ⟨setup, fun _ => tasks, fun _ => servers, ?_⟩
    intro spares
    rw [changes] at spares
    exact absurd spares (by simp)
  have servers : changesServers q = true → SameCore s s₁ → s₁.tasks = s.tasks → Frame s q s₁ := by
    intro changes same tasks
    refine ⟨same.setup, fun _ => tasks, ?_, fun _ => same⟩
    intro spares
    rw [changes] at spares
    exact absurd spares (by simp)
  cases q with
  | launch | terminate | prompt | openFile | editorCommand | run => exact absurd h (by simp [reply])
  | unlock | setState | vacate =>
    obtain ⟨rfl, -⟩ := Prod.mk.inj (Option.some.inj h)
    exact core rfl rfl rfl rfl
  | buildHandler =>
    obtain ⟨rfl, -⟩ := Prod.mk.inj (Option.some.inj h)
    exact ⟨rfl, fun _ => rfl, fun _ => rfl, fun _ => ⟨rfl, rfl, rfl, rfl, rfl⟩⟩
  | call | discard | advertise | respond =>
    obtain ⟨rfl, -⟩ := Prod.mk.inj (Option.some.inj h)
    exact servers rfl ⟨rfl, rfl, rfl, rfl, rfl⟩ rfl
  | notify server method params =>
    simp only [reply] at h
    split at h
    · obtain ⟨rfl, -⟩ := Prod.mk.inj (Option.some.inj h)
      exact frame_self s _
    · split at h <;> obtain ⟨rfl, -⟩ := Prod.mk.inj (Option.some.inj h) <;>
        exact servers rfl ⟨rfl, rfl, rfl, rfl, rfl⟩ rfl
  | lock =>
    simp only [reply] at h
    split at h
    · obtain ⟨rfl, -⟩ := Prod.mk.inj (Option.some.inj h)
      exact frame_self s _
    · exact absurd h (by simp)
  | current =>
    simp only [reply] at h
    split at h
    · exact absurd h (by simp)
    · obtain ⟨rfl, -⟩ := Prod.mk.inj (Option.some.inj h)
      exact frame_self s _
  | setCurrent | takeCurrent =>
    simp only [reply] at h
    split at h
    · exact absurd h (by simp)
    · obtain ⟨rfl, -⟩ := Prod.mk.inj (Option.some.inj h)
      exact core rfl rfl rfl rfl
  | claim server =>
    simp only [reply] at h
    split at h
    · exact absurd h (by simp)
    · split at h <;> obtain ⟨rfl, -⟩ := Prod.mk.inj (Option.some.inj h) <;>
        exact core rfl rfl rfl rfl
  | await server place | awaitBriefly server place =>
    simp only [reply, Option.map_eq_some_iff] at h
    obtain ⟨result, -, h⟩ := h
    obtain ⟨rfl, -⟩ := Prod.mk.inj h
    exact frame_self s _
  | closed server =>
    simp only [reply] at h
    split at h
    · split at h
      · obtain ⟨rfl, -⟩ := Prod.mk.inj (Option.some.inj h)
        exact frame_self s _
      · exact absurd h (by simp)
    · exact absurd h (by simp)
  | watch server =>
    obtain ⟨rfl, -⟩ := Prod.mk.inj (Option.some.inj h)
    refine ⟨rfl, fun other => absurd rfl (other server), fun _ => rfl, fun _ => ?_⟩
    exact ⟨rfl, rfl, rfl, rfl, rfl⟩
  | status | showError =>
    obtain ⟨rfl, -⟩ := Prod.mk.inj (Option.some.inj h)
    exact ⟨rfl, fun _ => rfl, fun _ => rfl, fun _ => ⟨rfl, rfl, rfl, rfl, rfl⟩⟩
  | _ =>
    obtain ⟨rfl, -⟩ := Prod.mk.inj (Option.some.inj h)
    exact frame_self s _

/-! ## What the answers say -/

section Answers

variable {s s₁ : Session} {task : Nat} {acts : Nat → Option Connection.Action}

/-- All replies but that to a watch leave the tasks alone, and most leave state and slot alone as
well. -/
theorem replies_frame {q : Question} {r : q.Reply} (h : Replies s task q r acts s₁)
    (other : ∀ server, q ≠ .watch server) :
    s₁.tasks = s.tasks ∧ (changesCore q = false → SameCore s s₁) := by
  cases h with
  | own h => exact ⟨(reply_frame h).tasks other, (reply_frame h).core⟩
  | _ => exact ⟨rfl, fun _ => ⟨rfl, rfl, rfl, rfl, rfl⟩⟩

/-- Only who is first is given the lock. -/
theorem replies_lock {r : Unit} (h : Replies s task .lock r acts s₁) :
    s.lock.head? = some task ∧ s₁ = s := by
  cases h with
  | own h =>
    simp only [reply] at h
    split at h
    next first => exact ⟨first, (Prod.mk.inj (Option.some.inj h)).1.symm⟩
    next => exact absurd h (by simp)

/-- Giving the lock back takes the task off the queue. -/
theorem replies_unlock {r : Unit} (h : Replies s task .unlock r acts s₁) :
    s₁ = { s with lock := s.lock.erase task } := by
  cases h with
  | own h => exact (Prod.mk.inj (Option.some.inj h)).1.symm

theorem replies_state {r : ServerState} (h : Replies s task .state r acts s₁) :
    r = s.state ∧ s₁ = s := by
  cases h with
  | own h =>
    obtain ⟨rfl, rfl⟩ := Prod.mk.inj (Option.some.inj h)
    exact ⟨rfl, rfl⟩

theorem replies_setState {state : ServerState} {r : Unit}
    (h : Replies s task (.setState state) r acts s₁) : s₁ = { s with state } := by
  cases h with
  | own h => exact (Prod.mk.inj (Option.some.inj h)).1.symm

theorem replies_current {r : Option Nat} (h : Replies s task .current r acts s₁) :
    r = s.slot ∧ s₁ = s := by
  cases h with
  | own h =>
    simp only [reply] at h
    split at h
    · exact absurd h (by simp)
    · obtain ⟨rfl, rfl⟩ := Prod.mk.inj (Option.some.inj h)
      exact ⟨rfl, rfl⟩

/-- The reply to a wait is the result of the call that is waited for. -/
theorem replies_await {server place : Nat} {answer : Except Fault Json}
    (h : Replies s task (.await server place) answer acts s₁) :
    (∃ c, s.connection? server = some c ∧ c.result? place = some answer) ∧ s₁ = s := by
  cases h with
  | own h =>
    obtain ⟨result, there, h⟩ := Option.map_eq_some_iff.mp h
    obtain ⟨rfl, rfl⟩ := Prod.mk.inj h
    exact ⟨Option.bind_eq_some_iff.mp there, rfl⟩

/-- Nobody gets at the slot while it is claimed. -/
theorem replies_setCurrent {server : Nat} {r : Unit}
    (h : Replies s task (.setCurrent server) r acts s₁) :
    s.claimant = none ∧ s₁ = { s with slot := some server } := by
  cases h with
  | own h =>
    simp only [reply] at h
    split at h
    next => exact absurd h (by simp)
    next free =>
      exact ⟨Option.not_isSome_iff_eq_none.mp free, (Prod.mk.inj (Option.some.inj h)).1.symm⟩

/-- The slot is emptied only while nobody has claimed an exit. -/
theorem replies_takeCurrent {r : Option Nat} (h : Replies s task .takeCurrent r acts s₁) :
    s.claimant = none ∧ r = s.slot ∧ s₁ = { s with slot := none } := by
  cases h with
  | own h =>
    simp only [reply] at h
    split at h
    next => exact absurd h (by simp)
    next free =>
      obtain ⟨rfl, rfl⟩ := Prod.mk.inj (Option.some.inj h)
      exact ⟨Option.not_isSome_iff_eq_none.mp free, rfl, rfl⟩

/-- A claim succeeds for the server in the slot. -/
theorem replies_claim {server : Nat} {r : Bool} (h : Replies s task (.claim server) r acts s₁) :
    s.claimant = none ∧
      ((r = true ∧ s.slot = some server ∧ s₁ = { s with claimant := some task }) ∨
        (r = false ∧ s.slot ≠ some server ∧ s₁ = s)) := by
  cases h with
  | own h =>
    simp only [reply] at h
    split at h
    next => exact absurd h (by simp)
    next free =>
      refine ⟨Option.not_isSome_iff_eq_none.mp free, ?_⟩
      split at h
      next mine =>
        obtain ⟨rfl, rfl⟩ := Prod.mk.inj (Option.some.inj h)
        exact Or.inl ⟨rfl, mine, rfl⟩
      next other =>
        obtain ⟨rfl, rfl⟩ := Prod.mk.inj (Option.some.inj h)
        exact Or.inr ⟨rfl, other, rfl⟩

/-- A watcher empties the slot and gives up its claim in one step. -/
theorem replies_vacate {r : Unit} (h : Replies s task .vacate r acts s₁) :
    s₁ = { s with slot := none, claimant := none } := by
  cases h with
  | own h => exact (Prod.mk.inj (Option.some.inj h)).1.symm

end Answers

/-- What a task asks is the head of its program. -/
theorem question?_of {s : Session} {task : Nat} {t : Task} {q : Question}
    {next : q.Reply → Prog Result} (here : s.tasks[task]? = some t)
    (question : t.program = .ask q next) : s.question? task = some q := by
  simp only [question?, here, Option.map_some, question]

/-- Who asks is a task that is there. -/
theorem task_of_question? {s : Session} {task : Nat} {q : Question}
    (asked : s.question? task = some q) :
    ∃ t next, s.tasks[task]? = some t ∧ t.program = .ask q next := by
  simp only [question?] at asked
  split at asked
  next q' next program =>
    obtain rfl := Option.some.inj asked
    obtain ⟨t, here, question⟩ := Option.map_eq_some_iff.mp program
    exact ⟨t, next, here, question⟩
  next => exact absurd asked (by simp)

/-- Only the program of a task that is not waiting for the lock changes. -/
theorem queued_setProgram {s s' : Session} {task : Nat} {program : Prog Result} {t : Task}
    (here : s.tasks[task]? = some t) (other : ∀ next, t.program ≠ .ask .lock next)
    (tasks : s'.tasks = s.tasks) (u : Nat) (h : Queued s u) :
    Queued (s'.setProgram task program) u := by
  obtain ⟨v, next, hv, question, isPut⟩ := h
  refine ⟨v, next, ?_, question, isPut⟩
  have apart : task ≠ u := by
    rintro rfl
    rw [here] at hv
    obtain rfl := Option.some.inj hv
    exact other next question
  show (s'.tasks.modify task _)[u]? = _
  rw [tasks, List.getElem?_modify_ne _ _ apart, hv]

/-- Noting something about a task leaves whoever waits for the lock in its place. -/
theorem queued_modify {s s' : Session} {task : Nat} {f : Task → Task}
    (tasks : s'.tasks = s.tasks.modify task f) (program : ∀ t, (f t).program = t.program)
    (put : ∀ t, t.isPut = true → (f t).isPut = true) (u : Nat) (h : Queued s u) : Queued s' u := by
  obtain ⟨v, next, hv, question, isPut⟩ := h
  by_cases same : task = u
  · subst same
    refine ⟨f v, next, ?_, (program v).trans question, put v isPut⟩
    rw [tasks, List.getElem?_modify_eq, hv]
    rfl
  · refine ⟨v, next, ?_, question, isPut⟩
    rw [tasks, List.getElem?_modify_ne _ _ same, hv]

/-- Changing what is kept beside a program leaves every task on its course. -/
theorem OnCourse.modify {s s' : Session} {course : Nat → Phase} {task : Nat} {f : Task → Task}
    (on : OnCourse s course) (setup : s'.setup = s.setup)
    (tasks : s'.tasks = s.tasks.modify task f) (program : ∀ t, (f t).program = t.program) :
    OnCourse s' course := by
  refine on.same setup (by rw [tasks, List.length_modify]) ?_
  intro u v hv
  rw [tasks] at hv
  rcases getElem?_modify_cases hv with ⟨-, a, ha, rfl⟩ | ⟨-, hv⟩
  · exact ⟨a, ha, program a⟩
  · exact ⟨v, hv, rfl⟩

/-- A command that is run by its name: the task does what the command does. -/
theorem move_of_run {s : Session} {course : Nat → Phase} {task : Nat} {t : Task} {name : String}
    {arguments : List Json} {next : Except Fault Json → Prog Result} (on : OnCourse s course)
    (here : s.tasks[task]? = some t) (question : t.program = .ask (.run name arguments) next) :
    let s' := s.setProgram task ((Dispatch.execute s.setup name arguments).bind next)
    Move s course none (fun _ => none) s' course ∧ OnCourse s' course := by
  have follows := on.follows task t here
  rw [question] at follows
  have known : ∃ known, course task = .free known := by
    obtain ⟨φ, step, -⟩ := follows (.ok .null)
    generalize course task = ψ at step
    cases step with
    | idle h => exact absurd h (by simp [isIdle])
    | run outcome => exact ⟨_, rfl⟩
  obtain ⟨known, free⟩ := known
  have goes : Follows s.setup AtEase (.free known)
      ((Dispatch.execute s.setup name arguments).bind next) := by
    refine follows_bind (dispatch_orderly name arguments known) ?_
    rintro outcome _ ⟨more, rfl⟩
    obtain ⟨φ, step, rest⟩ := follows outcome
    rw [free] at step
    cases step with
    | idle h => exact absurd h (by simp [isIdle])
    | run outcome => exact follows_widen rest (List.nil_subset _)
  refine ⟨.quiet ⟨rfl, rfl, rfl, rfl, rfl⟩ rfl ?_ rfl, ?_⟩
  · refine queued_setProgram here ?_ rfl
    intro next' lock
    rw [question] at lock
    exact absurd (Program.ask.inj lock).1 (by simp)
  · have gone := on.goOn here rfl rfl goes
    rwa [← free, Function.update_eq_self] at gone

/-- A task that puts its question. -/
theorem move_of_put {s : Session} {course : Nat → Phase} {task : Nat} {t : Task} {q : Question}
    {next : q.Reply → Prog Result} (on : OnCourse s course) (here : s.tasks[task]? = some t)
    (question : t.program = .ask q next) (new : t.isPut = false) :
    Move s course none (fun _ => none) ((s.put task q).markPut task) course ∧
      OnCourse ((s.put task q).markPut task) course := by
  have tasks : (s.put task q).tasks = s.tasks := by cases q <;> rfl
  have setup : (s.put task q).setup = s.setup := by cases q <;> rfl
  constructor
  · cases q with
    | lock => exact .wants here question new
    | _ =>
      exact .quiet ⟨rfl, rfl, rfl, rfl, rfl⟩ rfl (queued_modify rfl (fun _ => rfl) fun _ _ => rfl)
        rfl
  · exact on.modify setup (congrArg (List.modify · task _) tasks) fun _ => rfl

/-- A task that goes on with a reply makes a move. -/
theorem move_of_reply {s s₁ : Session} {course : Nat → Phase} {task : Nat} {t : Task}
    {q : Question} {next : q.Reply → Prog Result} {r : q.Reply}
    {acts : Nat → Option Connection.Action} (on : OnCourse s course)
    (here : s.tasks[task]? = some t) (question : t.program = .ask q next)
    (replies : Replies s task q r acts s₁) (other : ∀ server, q ≠ .watch server)
    (setup : s₁.setup = s.setup) (tasks : s₁.tasks = s.tasks) :
    ∃ course', Move s course (s.noted task q) acts (s₁.setProgram task (next r)) course' ∧
      OnCourse (s₁.setProgram task (next r)) course' := by
  have follows := on.follows task t here
  rw [question] at follows
  obtain ⟨φ, step, rest⟩ := follows r
  exact ⟨_, .asks here question step replies other, on.goOn here setup tasks rest⟩

/-- A task that starts to watch a server makes a move. -/
theorem move_of_watch {s : Session} {course : Nat → Phase} {task : Nat} {t : Task} {server : Nat}
    {next : Unit → Prog Result} (on : OnCourse s course) (here : s.tasks[task]? = some t)
    (question : t.program = .ask (.watch server) next) :
    let s' := (s.spawn (Lifecycle.watchExit server)).setProgram task (next ())
    ∃ course', Move s course none (fun _ => none) s' course' ∧ OnCourse s' course' := by
  have follows := on.follows task t here
  rw [question] at follows
  obtain ⟨φ, step, rest⟩ := follows ()
  have stands : course task = .shown server ∧ φ = .finishing := by
    generalize course task = ψ at step
    cases step with
    | idle h => exact absurd h (by simp [isIdle])
    | watch => exact ⟨rfl, rfl⟩
  obtain ⟨shown, rfl⟩ := stands
  refine ⟨_, .watches here question shown, ?_⟩
  have inside := length_of_getElem? here
  have spawned : OnCourse (s.spawn (Lifecycle.watchExit server))
      (Function.update course s.tasks.length (.watching server)) := by
    refine on.add rfl rfl ?_
    exact follows_bind (watchExit_follows server) fun _ _ ease => ease
  refine spawned.goOn (t := t) ?_ rfl rfl rest
  show (s.tasks ++ [_])[task]? = _
  rw [List.getElem?_append_left inside, here]

/-- What the next step of a task does on each connection, if its question is answered. -/
theorem actionOn_advance {s : Session} {task : Nat} {q : Question}
    (asked : s.question? task = some q) :
    (fun i => s.actionOn i (.advance task)) =
      fun i => (s.connection? i).bind fun c => clientAction c i q := by
  funext i
  simp only [actionOn, asked, Option.bind_some]

/-- A question that is put to no server is silent on every connection. -/
theorem silent_of_question {s : Session} {task : Nat} {q : Question}
    (asked : s.question? task = some q) (silent : ∀ c i, clientAction c i q = none) :
    (fun i => s.actionOn i (.advance task)) = fun _ => none := by
  rw [actionOn_advance asked]
  funext i
  cases s.connection? i with
  | none => rfl
  | some c => exact silent c i

/-- A question that has to be put does nothing while it is put. -/
theorem quiet_of_mustPut {s : Session} {task : Nat} {q : Question}
    (asked : s.question? task = some q) (outward : mustPut q = true) :
    s.happening (.advance task) = none ∧
      (fun i => s.actionOn i (.advance task)) = fun _ => none := by
  simp only [happening, asked]
  cases q with
  | lock | launch | terminate | prompt | openFile | editorCommand =>
    exact ⟨rfl, silent_of_question asked fun _ _ => rfl⟩
  | _ => contradiction

/-- A task that is replied from what is shared makes a move. -/
theorem move_of_replied {s s₁ : Session} {course : Nat → Phase} {task : Nat} {t : Task}
    {q : Question} {next : q.Reply → Prog Result} {r : q.Reply} (on : OnCourse s course)
    (here : s.tasks[task]? = some t) (question : t.program = .ask q next)
    (replied : s.reply task q = some (s₁, r)) :
    ∃ course', Move s course (s.happening (.advance task)) (fun i => s.actionOn i (.advance task))
      (s₁.setProgram task (next r)) course' ∧ OnCourse (s₁.setProgram task (next r)) course' := by
  have asked := question?_of here question
  by_cases watch : ∃ server, q = .watch server
  · obtain ⟨server, rfl⟩ := watch
    obtain ⟨rfl, -⟩ := Prod.mk.inj (Option.some.inj replied)
    have unnoted : s.happening (.advance task) = none := by simp only [happening, asked, noted]
    rw [silent_of_question asked fun _ _ => rfl, unnoted]
    exact move_of_watch on here question
  · have other : ∀ server, q ≠ .watch server := fun server same => watch ⟨server, same⟩
    have frame := reply_frame replied
    have noted : s.happening (.advance task) = s.noted task q := by
      simp only [happening, asked]
      split
      -- the end of a server is noted when the answer to it comes from outside
      · next server same =>
        obtain rfl := Option.some.inj same
        contradiction
      · next same => rw [Option.some.inj same]
      · contradiction
    rw [noted, actionOn_advance asked]
    exact move_of_reply on here question (.own replied) other frame.setup (frame.tasks other)

/-- What is brought from outside is a reply, and is noted as one. -/
theorem Brings.replies {s s₁ : Session} {a : Action} {task : Nat} {q : Question} {r : q.Reply}
    (brings : Brings s task a q r s₁) (asked : s.question? task = some q) :
    Replies s task q r (fun i => s.actionOn i a) s₁ ∧ s.happening a = s.noted task q := by
  cases brings with
  | elapsed conn abandons =>
    simp only [actionOn, asked, Option.bind_some]
    exact ⟨.elapsed conn abandons, rfl⟩
  | terminated =>
    simp only [actionOn, happening, asked, Option.bind_fun_none, Option.bind_some]
    exact ⟨.terminated, trivial⟩
  | launched | unlaunched | typed | opened | ran =>
    simp only [actionOn, Option.bind_fun_none]
    exact ⟨by constructor, rfl⟩

/-- The reader's news add free tasks and lines to the log. -/
theorem onCourse_take {s : Session} {course : Nat → Phase} (server : Nat)
    (event : Connection.Event) (on : OnCourse s course) : OnCourse (take server s event) course := by
  cases event with
  | request place method params =>
    refine on.addFree rfl rfl ?_
    exact follows_bind (handle_follows server place method params) fun _ _ ease => ease
  | notification method params => exact on.same rfl rfl fun u v hv => ⟨v, hv, rfl⟩

/-- What a server sends takes no task off its course. -/
theorem onCourse_takes {course : Nat → Phase} (server : Nat) (events : List Connection.Event)
    {s : Session} (on : OnCourse s course) : OnCourse (events.foldl (take server) s) course := by
  induction events generalizing s with
  | nil => exact on
  | cons event rest ih => exact ih (onCourse_take server event on)

/-- **Every step is a move**, and leaves the tasks on their courses. -/
theorem move_of_step {s s' : Session} {course : Nat → Phase} {a : Action} (on : OnCourse s course)
    (h : s.step a = some s') :
    ∃ course', Move s course (s.happening a) (fun i => s.actionOn i a) s' course' ∧
      OnCourse s' course' := by
  cases stepped_of_step h with
  | begins job =>
    simp only [happening, actionOn, Option.bind_fun_none]
    -- the new task stands behind the others, and whoever waits is one of them
    have free : Follows s.setup AtEase (.free []) (job.program s.setup) := job_follows job
    refine ⟨course, .quiet ⟨rfl, rfl, rfl, rfl, rfl⟩ rfl ?_ rfl, on.addFree rfl rfl free⟩
    rintro task ⟨t, next, here, question, isPut⟩
    refine ⟨t, next, ?_, question, isPut⟩
    show (s.tasks ++ [_])[task]? = _
    rw [List.getElem?_append_left (length_of_getElem? here), here]
  | @runs task t name arguments next here question =>
    have asked := question?_of here question
    have unnoted : s.happening (.advance task) = none := by simp only [happening, asked, noted]
    rw [silent_of_question asked fun _ _ => rfl, unnoted]
    exact ⟨course, move_of_run on here question⟩
  | puts here question outward unput =>
    obtain ⟨unnoted, silent⟩ := quiet_of_mustPut (question?_of here question) outward
    rw [silent, unnoted]
    exact ⟨course, move_of_put on here question unput⟩
  | replied here question _ _ replied => exact move_of_replied on here question replied
  | brought here question _ brings =>
    obtain ⟨replies, noted⟩ := brings.replies (question?_of here question)
    rw [noted]
    exact move_of_reply on here question replies brings.unwatched brings.setup brings.tasks
  | cancels task =>
    simp only [happening, actionOn, Option.bind_fun_none]
    refine ⟨course, .quiet ⟨rfl, rfl, rfl, rfl, rfl⟩ rfl ?_ rfl, on.modify rfl rfl fun _ => rfl⟩
    exact queued_modify rfl (fun _ => rfl) fun _ put => put
  | acts conn spontaneous _ acts =>
    refine ⟨course, .acts conn spontaneous acts, onCourse_takes _ _ ?_⟩
    exact on.same rfl rfl fun u v hv => ⟨v, hv, rfl⟩
  | shows view =>
    simp only [happening, actionOn, Option.bind_fun_none]
    refine ⟨course, .quiet ⟨rfl, rfl, rfl, rfl, rfl⟩ rfl (fun task h => h) rfl, ?_⟩
    exact on.same rfl rfl fun u v hv => ⟨v, hv, rfl⟩

end EmberClient.Session
