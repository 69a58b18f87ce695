import EmberClient.Proofs.Session.Run
import Mathlib.Data.List.Nodup

/-!
# Who holds the lock on transitions

The first in the queue holds the lock, once it has been answered. `Locking` says that
nobody else is in a transition: whoever is in one is first, and whoever else is in the
queue waits.
-/

namespace EmberClient.Session

/-- In a transition. -/
def Phase.holds : Phase → Bool
  | .free _ | .watching _ | .noticed _ | .holding _ | .stopping _ | .reporting _ | .alarmed _
  | .burying _ | .buried _ => false
  | _ => true

/-- Nobody but the first in the queue is in a transition. -/
structure Locking (s : Session) (course : Nat → Phase) : Prop where
  nodup : s.lock.Nodup
  holder : ∀ task, (course task).holds = true → s.lock.head? = some task
  queued : ∀ task ∈ s.lock, (course task).holds = true ∨ Queued s task

theorem Locking.unique {s : Session} {course : Nat → Phase} (inv : Locking s course) {t u : Nat}
    (ht : (course t).holds = true) (hu : (course u).holds = true) : t = u := by
  have first := inv.holder t ht
  rw [inv.holder u hu] at first
  exact (Option.some.inj first).symm

/-! ## Steps and the lock -/

theorem step_lock {setup : Setup} {φ φ' : Phase} {r : Unit}
    (step : Phase.Step setup φ .lock r φ') : (∃ known, φ = .free known) ∧ φ' = .locked := by
  cases step with
  | idle h => exact absurd h (by simp [isIdle])
  | lock => exact ⟨⟨_, rfl⟩, rfl⟩

/-- Nobody asks for the lock from within a transition. -/
theorem OnCourse.not_holds_of_lock {s : Session} {course : Nat → Phase} {task : Nat} {t : Task}
    {next : Unit → Prog Result} (on : OnCourse s course) (here : s.tasks[task]? = some t)
    (question : t.program = .ask .lock next) : (course task).holds = false := by
  have follows := on.follows task t here
  rw [question] at follows
  obtain ⟨φ, step, -⟩ := follows ()
  obtain ⟨⟨known, free⟩, -⟩ := step_lock step
  rw [free]
  rfl

theorem step_unlock {setup : Setup} {φ φ' : Phase} {r : Unit}
    (step : Phase.Step setup φ .unlock r φ') : φ.holds = true ∧ φ' = .free [] := by
  cases step with
  | idle h => exact absurd h (by simp [isIdle])
  | refuse h => exact ⟨rfl, rfl⟩
  | unlock => exact ⟨rfl, rfl⟩

/-- No other step enters a transition or leaves it. -/
theorem step_holds {setup : Setup} {φ φ' : Phase} {q : Question} {r : q.Reply}
    (step : Phase.Step setup φ q r φ') (lock : q ≠ .lock) (unlock : q ≠ .unlock) :
    φ'.holds = φ.holds := by
  cases step with
  | lock => exact absurd rfl lock
  | refuse h => exact absurd rfl unlock
  | unlock => exact absurd rfl unlock
  | _ => rfl

/-- Nothing but giving it back changes the queue for the lock. -/
theorem lock_of_replies {s s₁ : Session} {task : Nat} {q : Question} {r : q.Reply}
    {acts : Nat → Option Connection.Action} (h : Replies s task q r acts s₁)
    (watch : ∀ server, q ≠ .watch server) (unlock : q ≠ .unlock) : s₁.lock = s.lock := by
  cases q with
  | unlock => exact absurd rfl unlock
  | setState state => rw [replies_setState h]
  | setCurrent server => rw [(replies_setCurrent h).2]
  | takeCurrent => rw [(replies_takeCurrent h).2.2]
  | vacate => rw [replies_vacate h]
  | claim server =>
    rcases (replies_claim h).2 with ⟨-, -, rfl⟩ | ⟨-, -, rfl⟩
    · rfl
    · rfl
  | _ => exact ((replies_frame h watch).2 rfl).lock

/-! ## Queues -/

/-- Whoever waits for the lock does so while another task goes on. -/
theorem queued_elsewhere {s s' : Session} {task u : Nat} {program : Prog Result}
    (tasks : s'.tasks = s.tasks) (apart : u ≠ task) (h : Queued s u) :
    Queued (s'.setProgram task program) u := by
  obtain ⟨v, next, hv, question, isPut⟩ := h
  refine ⟨v, next, ?_, question, isPut⟩
  show (s'.tasks.modify task _)[u]? = _
  rw [List.getElem?_modify_ne _ _ apart.symm, tasks, hv]

theorem queued_takes {s : Session} {u : Nat} (server : Nat) (events : List Connection.Event)
    (h : Queued s u) : Queued (events.foldl (take server) s) u := by
  induction events generalizing s with
  | nil => exact h
  | cons event rest ih =>
    refine ih ?_
    obtain ⟨v, next, hv, question, isPut⟩ := h
    cases event with
    | request place method params =>
      refine ⟨v, next, ?_, question, isPut⟩
      show (s.tasks ++ [_])[u]? = _
      rw [List.getElem?_append_left (length_of_getElem? hv), hv]
    | notification method params => exact ⟨v, next, hv, question, isPut⟩

/-- Who is at another question does not wait for the lock. -/
theorem not_queued {s : Session} {task : Nat} {t : Task} {q : Question}
    {next : q.Reply → Prog Result} (here : s.tasks[task]? = some t)
    (question : t.program = .ask q next) (other : q ≠ .lock) : ¬ Queued s task := by
  rintro ⟨v, next', hv, asked, -⟩
  rw [here] at hv
  obtain rfl := Option.some.inj hv
  rw [question] at asked
  exact other (Program.ask.inj asked).1

/-- What a participant of a connection does leaves transitions and watchers alone. -/
theorem core_acts (s : Session) (server : Nat) (c : Connection) (events : List Connection.Event) :
    SameCore s (events.foldl (take server) (s.editConnection server fun _ => c)) := by
  suffices ∀ d : Session, SameCore s d → SameCore s (events.foldl (take server) d) from
    this _ ⟨rfl, rfl, rfl, rfl, rfl⟩
  induction events with
  | nil => exact fun d same => same
  | cons event rest ih =>
    intro d same
    refine ih (take server d event) ?_
    cases event <;> exact ⟨same.setup, same.state, same.slot, same.claimant, same.lock⟩

/-! ## What every move keeps -/

/-- While the queue stays, a task that goes on keeps `Locking` if it neither enters a
transition nor leaves one. -/
theorem Locking.goOn {s s' : Session} {course : Nat → Phase} {task : Nat} {φ : Phase}
    (inv : Locking s course) (lock : s'.lock = s.lock) (holds : φ.holds = (course task).holds)
    (notQueued : ¬ Queued s task) (queued : ∀ u, u ≠ task → Queued s u → Queued s' u) :
    Locking s' (Function.update course task φ) := by
  have same : ∀ u, (Function.update course task φ u).holds = (course u).holds :=
    view_update (fun _ ψ => ψ.holds) holds
  refine ⟨?_, ?_, ?_⟩
  · rw [lock]
    exact inv.nodup
  · intro u hu
    rw [lock]
    exact inv.holder u (same u ▸ hu)
  · intro u hu
    rw [lock] at hu
    rcases inv.queued u hu with h | h
    · exact Or.inl ((same u).trans h)
    · exact Or.inr (queued u (fun here => notQueued (here ▸ h)) h)

/-- The first in the queue is given the lock. -/
theorem Locking.enter {s s' : Session} {course : Nat → Phase} {task : Nat} {φ : Phase}
    (inv : Locking s course) (lock : s'.lock = s.lock) (first : s.lock.head? = some task)
    (holds : φ.holds = true) (queued : ∀ u, u ≠ task → Queued s u → Queued s' u) :
    Locking s' (Function.update course task φ) := by
  refine ⟨?_, ?_, ?_⟩
  · rw [lock]
    exact inv.nodup
  · intro u hu
    rw [lock]
    by_cases here : u = task
    · rw [here]
      exact first
    · rw [Function.update_of_ne here] at hu
      exact inv.holder u hu
  · intro u hu
    rw [lock] at hu
    by_cases here : u = task
    · subst here
      exact Or.inl (by rw [Function.update_self, holds])
    · rw [Function.update_of_ne here]
      exact (inv.queued u hu).imp_right (queued u here)

/-- The lock is given back. -/
theorem Locking.leave {s s' : Session} {course : Nat → Phase} {task : Nat} {known : List Nat}
    (inv : Locking s course) (lock : s'.lock = s.lock.erase task)
    (held : (course task).holds = true) (queued : ∀ u, u ≠ task → Queued s u → Queued s' u) :
    Locking s' (Function.update course task (.free known)) := by
  refine ⟨?_, ?_, ?_⟩
  · rw [lock]
    exact inv.nodup.erase _
  · intro u hu
    by_cases here : u = task
    · subst here
      rw [Function.update_self] at hu
      exact absurd hu (by simp [Phase.holds])
    · rw [Function.update_of_ne here] at hu
      exact absurd (inv.unique hu held) here
  · intro u hu
    rw [lock, inv.nodup.mem_erase_iff] at hu
    rw [Function.update_of_ne hu.1]
    exact (inv.queued u hu.2).imp_right (queued u hu.1)

/-- Where nobody enters or leaves a transition, and whoever waited waits still. -/
theorem Locking.same {s s' : Session} {course : Nat → Phase} (inv : Locking s course)
    (lock : s'.lock = s.lock) (queued : ∀ u, Queued s u → Queued s' u) : Locking s' course := by
  refine ⟨?_, ?_, ?_⟩
  · rw [lock]
    exact inv.nodup
  · intro u hu
    rw [lock]
    exact inv.holder u hu
  · intro u hu
    rw [lock] at hu
    exact (inv.queued u hu).imp_right (queued u)

/-- A new task is in no transition and in no queue. -/
theorem Locking.spawn {s : Session} {course : Nat → Phase} {φ : Phase} {program : Prog Unit}
    (inv : Locking s course) (on : OnCourse s course) (outside : φ.holds = false) :
    Locking (s.spawn program) (Function.update course s.tasks.length φ) := by
  refine inv.goOn rfl ?_ ?_ ?_
  · rw [on.beyond _ (Nat.le_refl _)]
    exact outside
  · rintro ⟨v, next, hv, -⟩
    exact absurd (length_of_getElem? hv) (Nat.lt_irrefl _)
  · rintro u - ⟨v, next, hv, asked, isPut⟩
    refine ⟨v, next, ?_, asked, isPut⟩
    show (s.tasks ++ [_])[u]? = _
    rw [List.getElem?_append_left (length_of_getElem? hv), hv]

/-- A task puts itself last in the queue. -/
theorem Locking.lineUp {s : Session} {course : Nat → Phase} {task : Nat} {t : Task}
    {next : Unit → Prog Result} (inv : Locking s course) (on : OnCourse s course)
    (here : s.tasks[task]? = some t) (question : t.program = .ask .lock next)
    (new : t.isPut = false) :
    Locking ({ s with lock := s.lock ++ [task] }.markPut task) course := by
  have outside := on.not_holds_of_lock here question
  -- a task that stands in the queue has its mark or is in a transition
  have absent : task ∉ s.lock := by
    intro mem
    rcases inv.queued task mem with held | ⟨v, next', hv, -, isPut⟩
    · rw [outside] at held
      exact absurd held (by simp)
    · rw [here] at hv
      obtain rfl := Option.some.inj hv
      rw [new] at isPut
      exact absurd isPut (by simp)
  have queued : ∀ u, Queued s u →
      Queued ({ s with lock := s.lock ++ [task] }.markPut task) u :=
    queued_modify rfl (fun _ => rfl) fun _ _ => rfl
  refine ⟨?_, ?_, ?_⟩
  · refine List.nodup_append.mpr ⟨inv.nodup, List.nodup_singleton _, ?_⟩
    intro u hu v hv same
    obtain rfl := List.mem_singleton.mp hv
    exact absent (same ▸ hu)
  · intro u hu
    have first := inv.holder u hu
    show (s.lock ++ [task]).head? = _
    rw [List.head?_append, first]
    rfl
  · intro u hu
    rcases List.mem_append.mp hu with old | last
    · exact (inv.queued u old).imp_right (queued u)
    · -- its mark is what tells it from a task that only asks
      obtain rfl := List.mem_singleton.mp last
      refine Or.inr ⟨{ t with isPut := true }, next, ?_, question, rfl⟩
      show (s.tasks.modify u _)[u]? = _
      rw [List.getElem?_modify_eq, here]
      rfl

theorem locking_keep {s s' : Session} {course course' : Nat → Phase} {e : Option Happening}
    {acts : Nat → Option Connection.Action} (inv : Locking s course) (on : OnCourse s course)
    (move : Move s course e acts s' course') : Locking s' course' := by
  cases move with
  | @asks task t q next r acts s₁ φ here question step replies other =>
    have tasks := (replies_frame replies other).1
    have queued : ∀ u, u ≠ task → Queued s u → Queued (s₁.setProgram task (next r)) u := by
      intro u apart h
      exact queued_elsewhere tasks apart h
    -- two questions change who is in a transition, and nothing else does
    by_cases isLock : q = .lock
    · subst isLock
      obtain ⟨-, rfl⟩ := step_lock step
      obtain ⟨first, rfl⟩ := replies_lock replies
      exact inv.enter rfl first rfl queued
    · by_cases isUnlock : q = .unlock
      · subst isUnlock
        obtain ⟨held, rfl⟩ := step_unlock step
        obtain rfl := replies_unlock replies
        exact inv.leave rfl held queued
      · have lock : s₁.lock = s.lock := lock_of_replies replies other isUnlock
        refine inv.goOn lock (step_holds step isLock isUnlock) ?_ queued
        exact not_queued here question isLock
  | @watches task t server next here question stands =>
    have inside := length_of_getElem? here
    have spawned : Locking (s.spawn (Lifecycle.watchExit server))
        (Function.update course s.tasks.length (.watching server)) := inv.spawn on rfl
    refine spawned.goOn rfl ?_ ?_ ?_
    · rw [Function.update_of_ne (Nat.ne_of_lt inside), stands]
      rfl
    · refine not_queued (t := t) ?_ question (by simp)
      show (s.tasks ++ [_])[task]? = _
      rw [List.getElem?_append_left inside, here]
    · intro u apart h
      exact queued_elsewhere rfl apart h
  | wants here question new => exact inv.lineUp on here question new
  | @acts server c c' act events conn spontaneous hstep =>
    refine inv.same (core_acts s server c' events).lock ?_
    rintro u ⟨v, next, hv, question, isPut⟩
    exact queued_takes server events ⟨v, next, hv, question, isPut⟩
  | quiet same servers queued => exact inv.same same.lock queued

end EmberClient.Session
