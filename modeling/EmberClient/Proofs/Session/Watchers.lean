import EmberClient.Proofs.Session.Dialogue
import EmberClient.Proofs.Session.Fate

/-!
# Who is watched

A start watches its server last, long after the server could exit. `watched` tells which
servers a run began to watch. A watcher is begun in one way only, by the start that its
server came up in, and this start holds the lock on transitions, so nobody else watches
the same server:

> `watched_nodup`: no server has two watchers.

And a start whose server is in the slot has nothing left that could keep it from watching:

> `watched_or_coming`: a server that was put into the slot is watched, or its start comes
> to that.

Whoever empties the slot after a claim is the watcher of the server that was in it
(`watcher_of_vacated`).
-/

namespace EmberClient.Session

variable {setup : Setup} {files : FileSystem} {view : EditorView} {actions : List Action}
  {s s' : Session} {a : Action} {course course' : Nat → Phase} {i : Nat}

/-- What holds at the beginning of a session and is kept by every step holds after every
run. It may speak of the actions so far and of how far along the tasks are. -/
theorem course_induct {P : List Action → Session → (Nat → Phase) → Prop}
    (start : P [] { setup, files, view } fun _ => .free [])
    (keep : ∀ {actions a s s' course course'}, run actions { setup, files, view } = some s →
      s.step a = some s' → P actions s course → OnCourse s course → OnCourse s' course' →
      Move s course (s.happening a) (fun i => s.actionOn i a) s' course' →
      P (actions ++ [a]) s' course')
    (hrun : run actions { setup, files, view } = some s) :
    ∃ course, OnCourse s course ∧ P actions s course := by
  -- by the last action, which tells where the phases go
  induction actions using List.reverseRecOn generalizing s with
  | nil =>
    obtain rfl := Option.some.inj hrun
    exact ⟨_, ⟨fun task t here => absurd here (by simp), fun _ _ => rfl⟩, start⟩
  | append_singleton actions a ih =>
    obtain ⟨d, before, hstep⟩ := run_snoc hrun
    obtain ⟨course, on, inv⟩ := ih before
    obtain ⟨course', move, on'⟩ := move_of_step on hstep
    exact ⟨course', on', keep before hstep inv on on' move⟩

/-! ## Beginning to watch -/

/-- The server that a task was begun to watch. -/
def Origin.watched? : Origin → Option Nat
  | .watcher server => some server
  | _ => none

/-- The servers that a sequence of actions begins to watch, in order. -/
def watched (actions : List Action) (s : Session) : List Nat :=
  (origins actions s).filterMap Origin.watched?

/-- A server is watched when a watcher of it has begun. -/
theorem mem_watched {start : Session} :
    i ∈ watched actions start ↔ ∃ task : Nat, (origins actions start)[task]? = some (.watcher i) := by
  constructor
  · intro mem
    obtain ⟨o, here, watches⟩ := List.mem_filterMap.mp mem
    cases o with
    | watcher server =>
      obtain rfl := Option.some.inj watches
      exact List.mem_iff_getElem?.mp here
    | job | request => exact absurd watches (by simp [Origin.watched?])
  · rintro ⟨task, here⟩
    exact List.mem_filterMap.mpr ⟨_, List.mem_of_getElem? here, rfl⟩

/-- The watched servers of a longer run are those of the run, and the one that its last action
began to watch. -/
theorem watched_snoc {start : Session} (hrun : run actions start = some s)
    (hstep : s.step a = some s') :
    watched (actions ++ [a]) start =
      watched actions start ++ (s.begun a).filterMap Origin.watched? := by
  rw [watched, origins_snoc hrun hstep, List.filterMap_append]
  rfl

/-- Whoever is free does not wait for a server to exit. -/
theorem not_free_of_watcher {known : List Nat}
    (follows : Follows setup AtEase (.free known) ((Origin.watcher i).program setup)) : False := by
  obtain ⟨φ, step, -⟩ := follows ()
  cases step with
  | idle h => exact absurd h (by simp [isIdle])

/-- Watchers are the only tasks that are not free when they are begun. -/
theorem origin_of_program {o : Origin} (same : o.program setup = (Origin.watcher i).program setup) :
    o = .watcher i := by
  cases o with
  | job work =>
    have follows : Follows setup AtEase (.free []) ((Origin.job work).program setup) :=
      job_follows work
    exact (not_free_of_watcher (same ▸ follows)).elim
  | watcher server =>
    obtain ⟨asked, -⟩ := Program.ask.inj same
    rw [Question.closed.inj asked]
  | request server place method params =>
    have follows : Follows setup AtEase (.free [])
        ((Origin.request server place method params).program setup) :=
      follows_bind (handle_follows server place method params) fun _ _ ease => ease
    exact (not_free_of_watcher (same ▸ follows)).elim

/-- A watcher is begun alone, by a task that asks for it. -/
theorem begun_of_watcher (mem : .watcher i ∈ s.begun a) :
    s.begun a = [.watcher i] ∧ ∃ task, s.question? task = some (.watch i) := by
  cases a with
  | begin job => exact absurd (List.mem_singleton.mp mem) (by simp)
  | advance task =>
    simp only [begun] at mem ⊢
    split at mem
    · next server asked =>
      obtain rfl := Origin.watcher.inj (List.mem_singleton.mp mem)
      exact ⟨rfl, task, asked⟩
    · exact absurd mem List.not_mem_nil
  | connection server act =>
    simp only [begun] at mem
    split at mem
    · obtain ⟨event, -, same⟩ := List.mem_filterMap.mp mem
      cases event <;> exact absurd same (by simp [Origin.ofEvent?])
    · exact absurd mem List.not_mem_nil
  | _ => exact absurd mem List.not_mem_nil

/-- If the next task is a free one, no watcher is begun. -/
theorem unwatched_of_free (hstep : s.step a = some s') (on' : OnCourse s' course')
    (free : course' s.tasks.length = .free []) : (s.begun a).filterMap Origin.watched? = [] := by
  refine List.filterMap_eq_nil_iff.mpr fun o mem => ?_
  cases o with
  | job | request => rfl
  | watcher i =>
    have strode := strode_of_step hstep
    have new := strode.new 0
    rw [Nat.add_zero, (begun_of_watcher mem).1] at new
    have follows := on'.follows _ _ new
    rw [free, strode.setup] at follows
    exact (not_free_of_watcher follows).elim

/-- A task that watches a server begins the watcher of it. -/
theorem begun_of_watches {task server : Nat} {t : Task} {next : Unit → Prog Result}
    (here : s.tasks[task]? = some t)
    (hstep : s.step a = some ((s.spawn (Lifecycle.watchExit server)).setProgram task (next ()))) :
    s.begun a = [.watcher server] := by
  have strode := strode_of_step hstep
  have inside := length_of_getElem? here
  have one : (s.begun a).length = 1 := by
    have length := strode.length
    simp only [setProgram, spawn, List.length_modify, List.length_append, List.length_singleton]
      at length
    omega
  obtain ⟨o, alone⟩ := List.length_eq_one_iff.mp one
  have new := strode.new 0
  rw [Nat.add_zero, alone] at new
  have last : ((s.spawn (Lifecycle.watchExit server)).setProgram task (next ())).tasks[s.tasks.length]? =
      some ((Origin.watcher server).task s.setup) := by
    simp only [setProgram, spawn]
    rw [List.getElem?_modify_ne _ _ (Nat.ne_of_lt inside), List.getElem?_concat_length]
    rfl
  have same := Option.some.inj (new.symm.trans last)
  rw [alone, origin_of_program (congrArg Task.program same)]

/-! ## From the slot to the watcher -/

/-- The server that a start has put into the slot and not watched yet. -/
def Phase.unwatched : Phase → Option Nat
  | .published i | .serving i | .configuring i _ | .configured i | .shown i => some i
  | _ => none

/-- A server that waits for its watcher is forgotten only by the question that begins one. -/
theorem step_unwatched {φ φ' : Phase} {q : Question} {r : q.Reply}
    (step : Phase.Step setup φ q r φ') (h : φ.unwatched = some i) :
    φ'.unwatched = some i ∨ q = .watch i := by
  cases step with
  | ready | configure | configured | tellReady => exact .inl h
  | watch => exact .inr (congrArg Question.watch (Option.some.inj h))
  | _ => exact absurd h (by simp [Phase.unwatched])

/-- The server that a watcher was begun for. -/
def Phase.guards : Phase → Option Nat
  | .watching i | .noticed i | .holding i | .stopping i | .reporting i | .alarmed i | .burying i
  | .buried i => some i
  | _ => none

/-- Nobody begins to guard a server in the middle of a program. -/
theorem step_guards {φ φ' : Phase} {q : Question} {r : q.Reply}
    (step : Phase.Step setup φ q r φ') (h : φ'.guards = some i) : φ.guards = some i := by
  cases step with
  | unclaimed | release => exact absurd h (by simp [Phase.guards])
  | _ => exact h

theorem shown_comesTo {α : Type} (p : Prog α) (follows : Follows setup AtEase (.shown i) p) :
    ComesTo (.watch i) p := by
  refine comesTo_of_steps (by simp) ?_ p follows
  intro q r φ' step
  cases step with
  | watch => exact .inl rfl

/-- A start that has sent its settings comes to the watcher. -/
theorem configured_comesTo {α : Type} (p : Prog α)
    (follows : Follows setup AtEase (.configured i) p) : ComesTo (.watch i) p := by
  refine comesTo_of_steps (by simp) ?_ p follows
  intro q r φ' step
  cases step with
  | tellReady => exact .inr shown_comesTo

/-- So does one that still waits for the answer to them. -/
theorem configuring_comesTo {α : Type} (place : Nat) (p : Prog α)
    (follows : Follows setup AtEase (.configuring i place) p) : ComesTo (.watch i) p := by
  refine comesTo_of_steps (by simp) ?_ p follows
  intro q r φ' step
  cases step with
  | configured answer => exact .inr configured_comesTo

/-- So does one whose server is ready. -/
theorem serving_comesTo {α : Type} (p : Prog α) (follows : Follows setup AtEase (.serving i) p) :
    ComesTo (.watch i) p := by
  refine comesTo_of_steps (by simp) ?_ p follows
  intro q r φ' step
  cases step with
  | configure place => exact .inr (configuring_comesTo place)

/-- So does one whose server has just got into the slot. -/
theorem published_comesTo {α : Type} (p : Prog α)
    (follows : Follows setup AtEase (.published i) p) : ComesTo (.watch i) p := by
  refine comesTo_of_steps (by simp) ?_ p follows
  intro q r φ' step
  cases step with
  | ready => exact .inr serving_comesTo

/-- A start whose server is in the slot comes to watch it. -/
theorem willWatch_of_unwatched {task : Nat} (on : OnCourse s course)
    (unwatched : (course task).unwatched = some i) : WillAsk s task (.watch i) := by
  refine willAsk_of_phase on ?_ fun p follows => ?_
  · intro free
    rw [free] at unwatched
    exact absurd unwatched (by simp [Phase.unwatched])
  · generalize course task = φ at unwatched follows
    cases φ with
    | published | serving | configuring | configured | shown =>
      obtain rfl := Option.some.inj unwatched
      first
        | exact published_comesTo p follows
        | exact serving_comesTo p follows
        | exact configuring_comesTo _ p follows
        | exact configured_comesTo p follows
        | exact shown_comesTo p follows
    | _ => exact absurd unwatched (by simp [Phase.unwatched])

/-! ## What every step keeps -/

/-- What a view finds of the phases after a start has begun to watch its server. -/
theorem view_watches {view : Phase → Option Nat} {task last server u : Nat}
    (finishing : view .finishing = none)
    (h : view (Function.update (Function.update course last (.watching server)) task
      .finishing u) = some i) :
    u ≠ task ∧ ((u = last ∧ view (.watching server) = some i) ∨
      (u ≠ last ∧ view (course u) = some i)) := by
  rcases watches_cases course last server task u with
    ⟨-, now⟩ | ⟨apart, new, now⟩ | ⟨apart, old, now⟩
  · rw [now, finishing] at h
    contradiction
  · exact ⟨apart, .inl ⟨new, now ▸ h⟩⟩
  · exact ⟨apart, .inr ⟨old, now ▸ h⟩⟩

/-- Nobody is watched twice, nobody who was put into the slot is forgotten, and a watcher
watches the server that it was begun for. -/
structure Guarded (start : Session) (actions : List Action) (s : Session)
    (course : Nat → Phase) : Prop where
  standing : Standing s course
  once : (watched actions start).Nodup
  /-- The start of a server that is watched is over. -/
  settled : ∀ i ∈ watched actions start, Up s i ∧ ∀ task, (course task).rears ≠ some i
  kept : ∀ i previous, .filled i previous ∈ history actions start →
    i ∈ watched actions start ∨ ∃ task, (course task).unwatched = some i
  guards : ∀ task i, (course task).guards = some i →
    (origins actions start)[task]? = some (.watcher i)

/-- The slot is filled by the question that puts a server there. -/
theorem noted_filled {task server : Nat} {previous : Option Nat} {q : Question}
    (noted : s.noted task q = some (.filled server previous)) : q = .setCurrent server := by
  cases q with
  | setCurrent server' =>
    obtain ⟨rfl, -⟩ := Happening.filled.inj (Option.some.inj noted)
    rfl
  | takeCurrent | vacate =>
    obtain ⟨_, -, same⟩ := Option.map_eq_some_iff.mp noted
    exact absurd same (by simp)
  | call | terminate => exact absurd (Option.some.inj noted) (by simp)
  | _ => contradiction

section Keeping

variable {start : Session} (inv : Guarded start actions s course)
include inv

/-- An origin stays where it is. -/
theorem Guarded.origin {task : Nat} (hrun : run actions start = some s)
    (hstep : s.step a = some s') (guards : (course task).guards = some i) :
    (origins (actions ++ [a]) start)[task]? = some (.watcher i) := by
  have there := inv.guards task i guards
  rw [origins_snoc hrun hstep, List.getElem?_append_left (length_of_getElem? there), there]

/-- No watcher is begun, no server put into the slot, and no task goes on. -/
theorem Guarded.same (hrun : run actions start = some s) (hstep : s.step a = some s')
    (standing : Standing s' course)
    (watches : watched (actions ++ [a]) start = watched actions start)
    (told : history (actions ++ [a]) start = history actions start) (up : ∀ i, Up s i → Up s' i) :
    Guarded start (actions ++ [a]) s' course := by
  refine ⟨standing, watches ▸ inv.once, ?_, ?_, fun task i h => inv.origin hrun hstep h⟩
  · intro i mem
    rw [watches] at mem
    exact ⟨up i (inv.settled i mem).1, (inv.settled i mem).2⟩
  · rw [watches, told]
    exact inv.kept

/-- A task goes on with a reply, and no watcher is begun. -/
theorem Guarded.asks {task : Nat} {q : Question} {r : q.Reply} {φ : Phase} {s₁ : Session}
    {acts : Nat → Option Connection.Action} (hrun : run actions start = some s)
    (hstep : s.step a = some s') (standing : Standing s' (Function.update course task φ))
    (step : Phase.Step s.setup (course task) q r φ) (replies : Replies s task q r acts s₁)
    (other : ∀ server, q ≠ .watch server)
    (watches : watched (actions ++ [a]) start = watched actions start)
    (told : history (actions ++ [a]) start = history actions start ++ (s.noted task q).toList)
    (up : ∀ i, Up s i → Up s' i) :
    Guarded start (actions ++ [a]) s' (Function.update course task φ) := by
  refine ⟨standing, watches ▸ inv.once, ?_, ?_, ?_⟩
  · intro i mem
    rw [watches] at mem
    obtain ⟨there, nobody⟩ := inv.settled i mem
    refine ⟨up i there, fun u rears => ?_⟩
    by_cases same : u = task
    · subst same
      rw [Function.update_self] at rears
      rcases step_rears step rears with before | ⟨⟨handler, rfl⟩, new, -⟩
      · exact nobody u before
      · -- a server that has just come up was not there to be watched
        exact missing_of_brings replies new there
    · rw [Function.update_of_ne same] at rears
      exact nobody u rears
  · intro i previous mem
    rw [told] at mem
    rw [watches]
    rcases List.mem_append.mp mem with before | now
    · refine (inv.kept i previous before).imp_right ?_
      rintro ⟨u, there⟩
      by_cases same : u = task
      · subst same
        refine ⟨u, ?_⟩
        rw [Function.update_self]
        exact (step_unwatched step there).resolve_right (other i)
      · exact ⟨u, by rwa [Function.update_of_ne same]⟩
    · obtain rfl := noted_filled (Option.mem_toList.mp now)
      refine .inr ⟨task, ?_⟩
      rw [Function.update_self]
      generalize course task = ψ at step
      cases step with
      | idle h => exact absurd h (by simp [isIdle])
      | publish => rfl
  · intro u i h
    by_cases same : u = task
    · subst same
      rw [Function.update_self] at h
      exact inv.origin hrun hstep (step_guards step h)
    · rw [Function.update_of_ne same] at h
      exact inv.origin hrun hstep h

/-- A start begins to watch its server. -/
theorem Guarded.watches {task server : Nat} (hrun : run actions start = some s)
    (hstep : s.step a = some s') (fresh : start.tasks = []) (on : OnCourse s course)
    (standing : Standing s' (Function.update (Function.update course s.tasks.length
      (.watching server)) task .finishing))
    (stands : course task = .shown server) (begun : s.begun a = [.watcher server])
    (told : history (actions ++ [a]) start = history actions start) (up : ∀ i, Up s i → Up s' i) :
    Guarded start (actions ++ [a]) s' (Function.update (Function.update course s.tasks.length
      (.watching server)) task .finishing) := by
  have grown := watched_snoc hrun hstep
  rw [begun] at grown
  have beyond := on.beyond s.tasks.length (Nat.le_refl _)
  have held : (course task).holds = true := by rw [stands]; rfl
  have rearing : (course task).rears = some server := by rw [stands]; rfl
  refine ⟨standing, ?_, ?_, ?_, ?_⟩
  · rw [grown]
    refine List.nodup_append.mpr ⟨inv.once, List.nodup_singleton _, ?_⟩
    rintro i old j new rfl
    obtain rfl := List.mem_singleton.mp new
    exact (inv.settled _ old).2 task rearing
  · intro i mem
    rw [grown] at mem
    rcases List.mem_append.mp mem with old | new
    · refine ⟨up i (inv.settled i old).1, fun u rears => ?_⟩
      obtain ⟨-, ⟨-, none⟩ | ⟨-, rears⟩⟩ := view_watches rfl rears
      · exact absurd none (by simp [Phase.rears])
      · exact (inv.settled i old).2 u rears
    · obtain rfl := List.mem_singleton.mp new
      refine ⟨up _ (inv.standing.knowing.mentioned task _ ?_), fun u rears => ?_⟩
      · rw [stands]
        exact List.mem_singleton_self _
      · obtain ⟨apart, ⟨-, none⟩ | ⟨-, rears⟩⟩ := view_watches rfl rears
        · exact absurd none (by simp [Phase.rears])
        · -- whoever brings a server up holds the lock, which this start did
          exact apart (inv.standing.locking.unique (holds_of_rears rears) held)
  · intro i previous mem
    rw [told] at mem
    rw [grown]
    rcases inv.kept i previous mem with old | ⟨u, there⟩
    · exact .inl (List.mem_append_left _ old)
    · by_cases same : u = task
      · rw [same, stands] at there
        obtain rfl := Option.some.inj there
        exact .inl (List.mem_append_right _ (List.mem_singleton_self _))
      · refine .inr ⟨u, ?_⟩
        have apart : u ≠ s.tasks.length := by
          rintro rfl
          rw [beyond] at there
          exact absurd there (by simp [Phase.unwatched])
        rwa [Function.update_of_ne same, Function.update_of_ne apart]
  · intro u i h
    obtain ⟨-, ⟨rfl, new⟩ | ⟨-, old⟩⟩ := view_watches rfl h
    · obtain rfl := Option.some.inj new
      rw [origins_snoc hrun hstep, begun, (leads_of_run fresh hrun).length]
      exact List.getElem?_concat_length
    · exact inv.origin hrun hstep old

end Keeping

/-- Every move keeps each server that was put into the slot guarded: by a watcher, or by the start
that will begin one. -/
theorem guarded_keep (hrun : run actions { setup, files, view } = some s)
    (hstep : s.step a = some s') (inv : Guarded { setup, files, view } actions s course)
    (on : OnCourse s course) (on' : OnCourse s' course')
    (move : Move s course (s.happening a) (fun i => s.actionOn i a) s' course') :
    Guarded { setup, files, view } (actions ++ [a]) s' course' := by
  have standing := standing_keep inv.standing on move
  have up : ∀ i, Up s i → Up s' i := fun i there => move.up there
  have beyond := on.beyond s.tasks.length (Nat.le_refl _)
  have grown := watched_snoc hrun hstep
  have told := history_snoc hrun hstep
  generalize s.happening a = e at move told
  generalize (fun i => s.actionOn i a) = acts at move
  cases move with
  | @asks task t q next r acts s₁ φ here question step replies other =>
    have free : Function.update course task φ s.tasks.length = .free [] := by
      rw [Function.update_of_ne (Nat.ne_of_gt (length_of_getElem? here)), beyond]
    rw [unwatched_of_free hstep on' free, List.append_nil] at grown
    exact inv.asks hrun hstep standing step replies other grown told up
  | watches here question stands =>
    rw [Option.toList_none, List.append_nil] at told
    exact inv.watches hrun hstep rfl on standing stands (begun_of_watches here hstep) told up
  | wants | acts | quiet =>
    rw [unwatched_of_free hstep on' beyond, List.append_nil] at grown
    rw [Option.toList_none, List.append_nil] at told
    exact inv.same hrun hstep standing grown told up

/-! ## After every run -/

/-- In every run the servers that were put into the slot are guarded. -/
theorem guarded_of_run (hrun : run actions { setup, files, view } = some s) :
    ∃ course, OnCourse s course ∧ Guarded { setup, files, view } actions s course := by
  refine course_induct ⟨standing_start setup files view, List.nodup_nil, ?_, ?_, ?_⟩
    (fun hrun hstep inv on on' move => guarded_keep hrun hstep inv on on' move) hrun
  · exact fun _ mem => absurd mem List.not_mem_nil
  · exact fun _ _ mem => absurd mem List.not_mem_nil
  · exact fun _ _ h => absurd h (by simp [Phase.guards])

/-- No server has two watchers. -/
theorem watched_nodup (hrun : run actions { setup, files, view } = some s) :
    (watched actions { setup, files, view }).Nodup := by
  obtain ⟨course, -, inv⟩ := guarded_of_run hrun
  exact inv.once

/-- A server that was put into the slot is watched, or its start comes to that. -/
theorem watched_or_coming (hrun : run actions { setup, files, view } = some s)
    {previous : Option Nat}
    (filled : .filled i previous ∈ history actions { setup, files, view }) :
    i ∈ watched actions { setup, files, view } ∨ ∃ task, WillAsk s task (.watch i) := by
  obtain ⟨course, on, inv⟩ := guarded_of_run hrun
  refine (inv.kept i previous filled).imp_right ?_
  rintro ⟨task, unwatched⟩
  exact ⟨task, willWatch_of_unwatched on unwatched⟩

/-- A removal by a watcher is the watcher's own step, with its server in the slot. -/
theorem asked_of_vacated {task : Nat} (hstep : s.step a = some s')
    (happens : s.happening a = some (.removed task i .vacated)) :
    a = .advance task ∧ s.question? task = some .vacate ∧ s.slot = some i := by
  have noted : ∀ {u : Nat} {q : Question}, s.noted u q = some (.removed task i .vacated) →
      u = task ∧ q = .vacate ∧ s.slot = some i := by
    intro u q noted
    cases q with
    | vacate =>
      obtain ⟨_, slot, same⟩ := Option.map_eq_some_iff.mp noted
      obtain ⟨rfl, rfl, -⟩ := Happening.removed.inj same
      exact ⟨rfl, rfl, slot⟩
    | takeCurrent =>
      obtain ⟨_, -, same⟩ := Option.map_eq_some_iff.mp noted
      exact absurd (Happening.removed.inj same).2.2 (by simp)
    | setCurrent | call | terminate => exact absurd (Option.some.inj noted) (by simp)
    | _ => contradiction
  cases a with
  | advance u =>
    simp only [happening] at happens
    split at happens
    · contradiction
    · next q _ asked =>
      obtain ⟨rfl, rfl, slot⟩ := noted happens
      exact ⟨rfl, asked, slot⟩
    · contradiction
  | terminated u =>
    obtain ⟨q, asked, happens⟩ := Option.bind_eq_some_iff.mp happens
    obtain ⟨rfl, rfl, -⟩ := noted happens
    -- only the end of a server is told like this
    cases stepped_of_step hstep with
    | brought here question ready brings =>
      cases brings
      exact absurd (asked.symm.trans (question?_of here question)) (by simp)
  | _ => contradiction

/-- Whoever removes a server from a slot that it has claimed is its watcher. -/
theorem watcher_of_vacated {task : Nat} (hrun : run actions { setup, files, view } = some s)
    (removed : .removed task i .vacated ∈ history actions { setup, files, view }) :
    (origins actions { setup, files, view })[task]? = some (.watcher i) ∧
      ⟨.vacate, ()⟩ ∈ dialogue task actions { setup, files, view } := by
  -- by the last action: the slot was emptied before, or this action empties it
  induction actions using List.reverseRecOn generalizing s with
  | nil => exact absurd removed List.not_mem_nil
  | append_singleton actions a ih =>
    obtain ⟨d, before, hstep⟩ := run_snoc hrun
    rw [history_snoc before hstep] at removed
    rw [origins_snoc before hstep, dialogue_snoc task before hstep]
    rcases List.mem_append.mp removed with old | now
    · obtain ⟨origin, told⟩ := ih before old
      rw [List.getElem?_append_left (length_of_getElem? origin)]
      exact ⟨origin, List.mem_append_left _ told⟩
    · obtain ⟨rfl, asked, slot⟩ := asked_of_vacated hstep (Option.mem_toList.mp now)
      obtain ⟨course, on, inv⟩ := guarded_of_run before
      obtain ⟨t, next, here, question⟩ := task_of_question? asked
      have follows := on.follows task t here
      rw [question] at follows
      obtain ⟨φ, step, -⟩ := follows ()
      -- no course but that of a watcher empties the slot
      have stands : ∃ j, course task = .stopping j := by
        generalize course task = ψ at step
        cases step with
        | idle h => exact absurd h (by simp [isIdle])
        | vacate => exact ⟨_, rfl⟩
      obtain ⟨j, stands⟩ := stands
      have mine := inv.standing.claiming.inSlot task j true (by rw [stands]; rfl)
      obtain rfl := Option.some.inj (slot.symm.trans mine)
      have origin := inv.guards task i (by rw [stands]; rfl)
      rw [List.getElem?_append_left (length_of_getElem? origin)]
      refine ⟨origin, List.mem_append_right _ ?_⟩
      rw [told_self (e := ⟨.vacate, ()⟩) (by simp [told?, here, question, mustPut, reply])]
      exact List.mem_singleton_self _

end EmberClient.Session
