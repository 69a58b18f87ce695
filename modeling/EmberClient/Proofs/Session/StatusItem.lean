import EmberClient.Proofs.Session.Notices

/-!
# Whether the main status item tells the truth

The item should read that the server is ready just if it is, and that there is none just if
it is stopped. Three things bear on that when nothing is in progress any more:

* Whoever has set the state, or has shown a text that does not last, goes on to write one
  that lasts. So the last text was written in the state that still holds (`attended_of_run`).
* What the holder of the lock writes is true when it writes it (`tells_of_holder`).
* Only a reload writes that the server is ready without the lock, and only a watcher that
  there is none (`accounted_of_run`).

So the item tells the truth, but for two exceptions, and `status_item_at_rest` names both: a
reload that ends where there is no server, as it never asks whether there is one, and a
watcher that a start has overtaken between its last look at the state and its report.
-/

namespace EmberClient.Session

variable {setup : Setup} {files : FileSystem} {view : EditorView} {actions : List Action}
  {s d s' : Session} {a : Action} {task : Nat}

/-! ## Texts that fit the state -/

/-- A text and the state that it tells. -/
def Tells (text : String) (state : ServerState) : Prop :=
  (text = readyText ↔ state = .ready) ∧ (text = goneText ↔ state = .stopped)

/-- A start that has failed has set the state, and nobody but it sets another. -/
def FailedStopped (s : Session) (course : Nat → Phase) : Prop :=
  ∀ task, course task = .failed → s.state = .stopped

/-- A start is counted as failed only after it has set the state to `.stopped`. -/
theorem step_failed {setup : Setup} {φ : Phase} {q : Question} {r : q.Reply}
    (step : Phase.Step setup φ q r .failed) : q = .setState .stopped := by
  generalize same : Phase.failed = ψ at step
  cases step with
  | fail => rfl
  | _ => contradiction

/-- The state after a reply is the one that its question sets, if it sets one. -/
theorem state_of_replies {s s₁ : Session} {task : Nat} {q : Question} {r : q.Reply}
    {acts : Nat → Option Connection.Action} (h : Replies s task q r acts s₁) :
    s₁.state = q.newState?.getD s.state := by
  cases h with
  | own h => exact (seen_of_reply h).state
  | _ => rfl

/-- While a failed start still has to report, the state is `.stopped`. -/
theorem failedStopped_keep {s s' : Session} {course course' : Nat → Phase} {e : Option Happening}
    {acts : Nat → Option Connection.Action} (inv : FailedStopped s course)
    (locking : Locking s course) (move : Move s course e acts s' course') :
    FailedStopped s' course' := by
  cases move with
  | @asks task t q next r acts s₁ φ here question step replies other =>
    intro u hu
    show s₁.state = .stopped
    rw [state_of_replies replies]
    by_cases same : u = task
    · subst same
      rw [Function.update_self] at hu
      subst hu
      rw [step_failed step]
      rfl
    · rw [Function.update_of_ne same] at hu
      cases new : q.newState? with
      | none => exact inv u hu
      | some state =>
        cases q with
        | setState state' =>
          obtain rfl := Option.some.inj new
          rcases step_setState step with ⟨i, -, -, stopped⟩ | ⟨held, -, -⟩
          · exact stopped
          · -- the others that set the state hold the lock, as the failed start does
            exact absurd (locking.unique (by rw [hu]; rfl) held) same
        | _ => contradiction
  | @watches task t server next here question stands =>
    intro u hu
    rcases watches_cases course s.tasks.length server task u with
      ⟨-, now⟩ | ⟨-, -, now⟩ | ⟨-, -, now⟩
    · rw [now] at hu
      contradiction
    · rw [now] at hu
      contradiction
    · exact inv u (now ▸ hu)
  | wants here question new => exact inv
  | @acts server c c' act events conn spontaneous hstep =>
    intro u hu
    rw [(core_acts s server c' events).state]
    exact inv u hu
  | quiet same servers queued =>
    intro u hu
    rw [same.state]
    exact inv u hu

/-- What the holder of the lock writes is true, if it lasts. -/
theorem tells_of_holder (hrun : run actions { setup, files, view } = some s) {text : String}
    (first : s.lock.head? = some task)
    (asked : s.question? task = some (.status StatusItem.main text)) (lasting : lasts text = true) :
    Tells text s.state := by
  obtain ⟨course, on, -, standing, failed⟩ :=
    run_induct (P := fun _ _ s course => Standing s course ∧ FailedStopped s course)
      ⟨standing_start setup files view, fun _ _ => rfl⟩
      (fun inv on _ move =>
        ⟨standing_keep inv.1 on move, failedStopped_keep inv.2 inv.1.locking move⟩)
      hrun
  obtain ⟨t, next, here, question⟩ := task_of_question? asked
  have held : (course task).holds = true := by
    rcases standing.locking.queued task (List.mem_of_head? first) with held | queued
    · exact held
    · exact absurd queued (not_queued here question (by simp))
  have follows := on.follows task t here
  rw [question] at follows
  obtain ⟨φ, step, -⟩ := follows ()
  have fits := standing.fits
  rw [stretchOf_holder standing.locking held] at fits
  have stopped := failed task
  -- a transition writes three texts: one that does not last, and two that its phase warrants
  generalize course task = ψ at step held fits stopped
  cases step with
  | idle => exact absurd held (by simp [Phase.holds])
  | load => exact absurd lasting (by decide)
  | tellFailed =>
    rw [stopped rfl]
    exact ⟨by decide, by decide⟩
  | tellReady =>
    rw [show s.state = .ready from fits.1]
    exact ⟨by decide, by decide⟩
  | report => exact absurd held (by simp [Phase.holds])

/-! ## Whose word it is -/

/-- How a text came to be written: it was true, or a reload wrote it, or a watcher. -/
inductive Accounted (actions : List Action) (start : Session) (n : Notice) : Prop where
  | fits (h : Tells n.text n.state)
  | reload (text : n.text = readyText)
      (began : ⟨.status StatusItem.main reloadingText, ()⟩ ∈ dialogue n.task actions start)
  | watcher (text : n.text = goneText) (server : Nat)
      (begun : (origins actions start)[n.task]? = some (.watcher server))

/-- A notice that is accounted for stays so in a longer run. -/
theorem Accounted.snoc {n : Notice} {start : Session} (old : Accounted actions start n)
    (hrun : run actions start = some d) (hstep : d.step a = some s') :
    Accounted (actions ++ [a]) start n := by
  cases old with
  | fits h => exact .fits h
  | reload text began =>
    refine .reload text ?_
    rw [dialogue_snoc n.task hrun hstep]
    exact List.mem_append_left _ began
  | watcher text server begun =>
    refine .watcher text server ?_
    rw [origins_snoc hrun hstep, List.getElem?_append_left (length_of_getElem? begun)]
    exact begun

/-- Who is reloading has written so. -/
theorem mem_of_reloading {said : List Exchange} (h : (stanceOf said).reloading = true) :
    ⟨.status StatusItem.main reloadingText, ()⟩ ∈ said := by
  -- by what was said last, since only a text of the status item decides
  induction said using List.reverseRecOn with
  | nil => exact absurd h (by simp [stanceOf])
  | append_singleton said e ih =>
    rw [stanceOf_snoc] at h
    obtain ⟨q, r⟩ := e
    cases q with
    | status item text =>
      simp only [Stance.after] at h
      split at h
      · next main =>
        subst main
        obtain rfl := of_decide_eq_true h
        exact List.mem_append_right _ (List.mem_singleton_self _)
      · exact List.mem_append_left _ (ih h)
    | _ => exact List.mem_append_left _ (ih h)

/-- Nobody but reloads and watchers ever writes a text that lasts and is not true. -/
theorem accounted_of_run (hrun : run actions { setup, files, view } = some s)
    (composed : ∀ work, .begin work ∈ actions → work.isComposed = true) {n : Notice}
    (mem : n ∈ notices actions { setup, files, view }) (lasting : lasts n.text = true) :
    Accounted actions { setup, files, view } n := by
  induction actions using List.reverseRecOn generalizing s with
  | nil => exact absurd mem List.not_mem_nil
  | append_singleton actions a ih =>
    obtain ⟨d, before, hstep⟩ := run_snoc hrun
    have composed' : ∀ work, .begin work ∈ actions → work.isComposed = true :=
      fun work mem => composed work (List.mem_append_left _ mem)
    rw [notices_snoc before hstep] at mem
    rcases List.mem_append.mp mem with old | new
    · exact (ih before composed' old).snoc before hstep
    · obtain ⟨heard, same⟩ := notice?_cases (Option.mem_toList.mp new)
      obtain ⟨rfl, asked, -⟩ := reply_of_told hstep heard rfl (by simp)
      suffices Accounted actions { setup, files, view } n from this.snoc before hstep
      obtain ⟨t, next, here, question⟩ := task_of_question? asked
      obtain ⟨o, begun, candid⟩ := candid_of_run rfl before composed' here
      rw [question] at candid
      obtain ⟨sayReady, sayGone⟩ := candid.1 rfl
      -- in a transition the lock vouches for the text; outside, reloads and watchers do not
      have inside : (stance n.task actions { setup, files, view }).inside = true →
          Accounted actions { setup, files, view } n := by
        intro inside
        refine .fits ?_
        rw [same]
        exact tells_of_holder before (holder_of_inside before inside) asked lasting
      by_cases ready : n.text = readyText
      · rcases sayReady ready with held | reloading
        · exact inside held
        · exact .reload ready (mem_of_reloading reloading)
      · have gone : n.text = goneText := by simpa [lasts, ready] using lasting
        rcases sayGone gone with held | watches
        · exact inside held
        · cases o with
          | watcher server => exact .watcher gone server begun
          | _ => contradiction

/-! ## Who has still to write -/

/-- The last text lasts, and the state is what it was then. While nothing is written, the
state is stopped. -/
def UpToDate (written : List Notice) (state : ServerState) : Prop :=
  match written.getLast? with
  | none => state = .stopped
  | some n => lasts n.text = true ∧ n.state = state

/-- A question that sets no state and shows no text changes nothing of what a task owes. -/
theorem owes_of_blind {q : Question} (noState : q.newState? = none) (noText : q.mainText? = none)
    (st : Stance) : (st.after q).owes = st.owes := by
  cases q with
  | setState state => contradiction
  | status item text =>
    have aside : item ≠ StatusItem.main := by
      rintro rfl
      exact absurd noText (by simp [Question.mainText?])
    simp only [Stance.after, if_neg aside]
  | _ => rfl

/-- The last text was written in this state, unless someone is going to write another, or a
restart is going to set another state. -/
def Attended (actions : List Action) (start s : Session) : Prop :=
  (∃ task, (stance task actions start).owes = true) ∨ s.state = .restarting ∨
    UpToDate (notices actions start) s.state

/-- Where neither the state nor the item is changed. -/
theorem Attended.same {start : Session} (old : Attended actions start d)
    (state : s.state = d.state) (written : notices (actions ++ [a]) start = notices actions start)
    (owes : ∀ task, (stance task (actions ++ [a]) start).owes = (stance task actions start).owes) :
    Attended (actions ++ [a]) start s := by
  rw [Attended, state, written]
  simp only [owes]
  exact old

/-- The account stays right over the reply to a question. -/
theorem Attended.told {start : Session} {q : Question} {r : q.Reply}
    (old : Attended actions start d) (hrun : run actions start = some d)
    (hstep : d.step a = some s) (heard : d.told? a = some (task, ⟨q, r⟩)) :
    Attended (actions ++ [a]) start s := by
  have now := stance_of_told hrun hstep heard
  have state : s.state = q.newState?.getD d.state := by
    simpa [heard] using (observed_of_step hstep).state
  have written : notices (actions ++ [a]) start = notices actions start ++
      (q.mainText?.map fun text => Notice.mk task text d.state).toList := by
    rw [notices_snoc hrun hstep, notice?_of_told heard]
  have blind : q.newState? = none → q.mainText? = none → Attended (actions ++ [a]) start s := by
    intro noState noText
    rw [noState] at state
    rw [noText, Option.map_none, Option.toList_none, List.append_nil] at written
    refine old.same state written fun u => ?_
    by_cases same : u = task
    · rw [same, now, owes_of_blind noState noText]
    · rw [stance_of_untold hrun hstep fun e => by simp [heard, Ne.symm same]]
  cases q with
  | setState new =>
    -- nobody owes a text for a restart that has begun, but that state never stays
    by_cases again : new = .restarting
    · exact .inr (.inl (state.trans again))
    · refine .inl ⟨task, ?_⟩
      rw [now]
      simp [Stance.after, again]
  | status item text =>
    by_cases main : item = StatusItem.main
    · by_cases lasting : lasts text = true
      · refine .inr (.inr ?_)
        rw [written, state]
        simp [UpToDate, Question.mainText?, main, lasting, Question.newState?]
      · refine .inl ⟨task, ?_⟩
        rw [now]
        simp [Stance.after, main, lasting]
    · exact blind rfl (if_neg main)
  | _ => exact blind rfl rfl

/-- In every run someone owes a text, a restart goes on, or the last text was written in this
state. -/
theorem attended_of_run (hrun : run actions { setup, files, view } = some s) :
    Attended actions { setup, files, view } s := by
  -- by the last action: it tells a task something, or changes neither state nor text
  induction actions using List.reverseRecOn generalizing s with
  | nil =>
    obtain rfl := Option.some.inj hrun
    exact .inr (.inr rfl)
  | append_singleton actions a ih =>
    obtain ⟨d, before, hstep⟩ := run_snoc hrun
    cases heard : d.told? a with
    | some told =>
      obtain ⟨task, q, r⟩ := told
      exact (ih before).told before hstep heard
    | none =>
      refine (ih before).same ?_ ?_ fun u => ?_
      · simpa [heard] using (observed_of_step hstep).state
      · rw [notices_snoc before hstep, notice?, heard]
        exact List.append_nil _
      · rw [stance_of_untold before hstep fun e => by simp [heard]]

/-! ## When nothing is in progress -/

/-- A task that has come to its result, or watches a server that goes on. -/
def Task.rests (t : Task) : Bool :=
  match t.program with
  | .done _ | .ask (.closed _) _ => true
  | _ => false

/-- Nothing is in progress: no start, no restart, no command, and no report of an exit. -/
def nothingGoesOn (s : Session) : Bool := s.tasks.all Task.rests

/-- A resting task is over, or is a watcher whose server lives. -/
theorem rests_cases {t : Task} (rests : t.rests = true) :
    (∃ r, t.program = .done r) ∨ ∃ server next, t.program = .ask (.closed server) next := by
  unfold Task.rests at rests
  split at rests
  · next r done => exact .inl ⟨r, done⟩
  · next server next question => exact .inr ⟨server, next, question⟩
  · contradiction

/-- Who rests is in no transition and has claimed nothing. -/
theorem apart_of_rests {φ : Phase} {t : Task} (rests : t.rests = true)
    (follows : Follows setup AtEase φ t.program) : φ.holds = false ∧ φ.claim = none := by
  rcases rests_cases rests with ⟨r, done⟩ | ⟨server, next, question⟩
  · rw [done] at follows
    obtain ⟨known, rfl⟩ := follows
    exact ⟨rfl, rfl⟩
  · rw [question] at follows
    obtain ⟨φ', step, -⟩ := follows ()
    cases step with
    | idle idle => exact absurd idle (by simp [isIdle])
    | notice => exact ⟨rfl, rfl⟩

/-- When nothing goes on, nobody is in a transition and nobody has claimed the slot. -/
theorem atRest_of_nothingGoesOn (hrun : run actions { setup, files, view } = some s)
    (rest : s.nothingGoesOn = true) : AtRest s := by
  obtain ⟨course, on, -, standing⟩ :=
    run_induct (P := fun _ _ s course => Standing s course) (standing_start setup files view)
      (fun inv on _ move => standing_keep inv on move) hrun
  -- no task holds the lock or claims the slot, be it there or still to come
  have apart : ∀ task, (course task).holds = false ∧ (course task).claim = none := by
    intro task
    by_cases inside : task < s.tasks.length
    · have here := List.getElem?_eq_getElem inside
      have rests := List.all_eq_true.mp rest _ (List.mem_of_getElem? here)
      exact apart_of_rests rests (on.follows task _ here)
    · rw [on.beyond task (Nat.le_of_not_lt inside)]
      exact ⟨rfl, rfl⟩
  refine ⟨?_, ?_⟩
  · intro task first
    rcases standing.locking.queued task (List.mem_of_head? first) with held | queued
    · rw [(apart task).1] at held
      contradiction
    · obtain ⟨t, next, here, question, -⟩ := queued
      exact question?_of here question
  · cases claims : s.claimant with
    | none => rfl
    | some task =>
      have claim := (standing.claiming.claimed task).mpr claims
      rw [(apart task).2] at claim
      contradiction

/-- Who rests owes nothing. -/
theorem calm_of_nothingGoesOn (hrun : run actions { setup, files, view } = some s)
    (composed : ∀ work, .begin work ∈ actions → work.isComposed = true)
    (rest : s.nothingGoesOn = true) (task : Nat) :
    (stance task actions { setup, files, view }).owes = false := by
  by_cases inside : task < s.tasks.length
  · have here := List.getElem?_eq_getElem inside
    obtain ⟨o, -, candid⟩ := candid_of_run rfl hrun composed here
    have calm : stance task actions { setup, files, view } = {} := by
      rcases rests_cases (List.all_eq_true.mp rest _ (List.mem_of_getElem? here)) with
        ⟨r, done⟩ | ⟨server, next, question⟩
      · rw [done] at candid
        exact candid
      · rw [question] at candid
        exact candid.1.1
    rw [calm]
  · rw [stance, (leads_of_run rfl hrun).beyond task (Nat.le_of_not_lt inside)]
    rfl

/-! ## After a start -/

/-- Something has been written, or is going to be. -/
def Stirred (actions : List Action) (start : Session) : Prop :=
  notices actions start ≠ [] ∨ ∃ task, (stance task actions start).owes = true

/-- What was stirred stays stirred. -/
theorem Stirred.snoc {start : Session} (old : Stirred actions start)
    (hrun : run actions start = some d) (hstep : d.step a = some s') :
    Stirred (actions ++ [a]) start := by
  by_cases silent : d.notice? a = none
  · rw [Stirred, notices_snoc hrun hstep, silent, Option.toList_none, List.append_nil]
    refine old.imp id ?_
    rintro ⟨task, owes⟩
    refine ⟨task, ?_⟩
    by_cases told : ∃ e, d.told? a = some (task, e)
    · obtain ⟨⟨q, r⟩, heard⟩ := told
      rw [notice?_of_told heard, Option.map_eq_none_iff] at silent
      rw [stance_of_told hrun hstep heard]
      cases q with
      | setState state => exact Bool.or_eq_true_iff.mpr (.inl owes)
      | _ => rwa [owes_of_blind rfl silent]
    · rwa [stance_of_untold hrun hstep (not_exists.mp told)]
  · obtain ⟨n, new⟩ := Option.ne_none_iff_exists'.mp silent
    refine .inl ?_
    rw [notices_snoc hrun hstep, new]
    exact List.append_ne_nil_of_right_ne_nil _ (by simp)

/-- An exchange that tells of a start: it writes on the item, or finds a server there. -/
def Exchange.Stirs : Exchange → Prop
  | ⟨.status item _, _⟩ => item = StatusItem.main
  | ⟨.state, state⟩ => state ≠ .stopped ∧ state ≠ .restarting
  | _ => False

/-- A task that was told of a stir did stir. -/
theorem stirred_of_dialogue (hrun : run actions { setup, files, view } = some s) {e : Exchange}
    (mem : e ∈ dialogue task actions { setup, files, view }) (stirs : e.Stirs) :
    Stirred actions { setup, files, view } := by
  refine dialogue_induct (P := fun actions e => e.Stirs → Stirred actions { setup, files, view })
    hrun ?_ ?_ mem stirs
  · rintro actions a d s' ⟨q, r⟩ before hstep heard stirs
    cases q with
    | status item text =>
      obtain rfl : item = StatusItem.main := stirs
      refine .inl ?_
      rw [notices_snoc before hstep, notice?_of_told heard]
      exact List.append_ne_nil_of_right_ne_nil _ (by simp [Question.mainText?])
    | state =>
      obtain ⟨-, -, s₁, -, replied, -⟩ := reply_of_told hstep heard rfl (by simp)
      obtain ⟨rfl, -⟩ := replies_state (.own replied)
      suffices Stirred actions { setup, files, view } from this.snoc before hstep
      rcases attended_of_run before with owes | restarting | current
      · exact .inr owes
      · exact absurd restarting stirs.2
      · refine .inl fun none => stirs.1 ?_
        rwa [none] at current
    | _ => contradiction
  · exact fun before hstep old stirs => (old stirs).snoc before hstep

/-- A start that has ended has written, or found a server there. -/
theorem stirs_of_start {said : List Exchange} {r : Result}
    (gives : Gives setup (Job.program setup .start) said r) : ∃ e ∈ said, e.Stirs := by
  obtain ⟨_, whole, _, rfl, started, -⟩ := Gives.of_bind gives
  obtain ⟨_, locked, rfl, inLock⟩ := Gives.of_ask rfl started
  obtain ⟨_, start, _, rfl, starts, -⟩ := Gives.of_bind inLock
  suffices ∃ e ∈ start, e.Stirs by
    obtain ⟨e, mem, stirs⟩ := this
    exact ⟨e, by simp [mem], stirs⟩
  obtain ⟨state, looked, rfl, goes⟩ := Gives.of_ask rfl starts
  by_cases wrong : state ≠ .stopped ∧ state ≠ .restarting
  · exact ⟨⟨.state, state⟩, by simp, wrong⟩
  · rw [if_neg wrong] at goes
    obtain ⟨_, starting, rfl, shows⟩ := Gives.of_ask rfl goes
    obtain ⟨_, loading, rfl, -⟩ := Gives.of_ask rfl shows
    exact ⟨⟨.status StatusItem.main (StatusItem.text StatusItem.loading), ()⟩, by simp, rfl⟩

/-- A start that has come to its end has written something to the item. -/
theorem written_of_start (hrun : run actions { setup, files, view } = some s)
    (composed : ∀ work, .begin work ∈ actions → work.isComposed = true)
    (rest : s.nothingGoesOn = true) (started : .begin .start ∈ actions) :
    notices actions { setup, files, view } ≠ [] := by
  obtain ⟨task, begun⟩ := List.mem_iff_getElem?.mp (origins_of_begin hrun started)
  have inside : task < s.tasks.length := by
    rw [(leads_of_run rfl hrun).length]
    exact length_of_getElem? begun
  have here := List.getElem?_eq_getElem inside
  obtain ⟨o, same, candid⟩ := candid_of_run rfl hrun composed here
  obtain rfl := Option.some.inj (begun.symm.trans same)
  obtain ⟨r, done⟩ : ∃ r, s.tasks[task].program = .done r := by
    rcases rests_cases (List.all_eq_true.mp rest _ (List.mem_of_getElem? here)) with
      done | ⟨server, next, question⟩
    · exact done
    · rw [question] at candid
      exact absurd candid.1.2 (by simp [Origin.watches])
  have result : s.result? task = some r := by simp only [result?, here, Option.map_some, done]
  obtain ⟨e, mem, stirs⟩ := stirs_of_start (gives_of_result rfl hrun begun result)
  rcases stirred_of_dialogue hrun mem stirs with written | ⟨u, owes⟩
  · exact written
  · rw [calm_of_nothingGoesOn hrun composed rest u] at owes
    contradiction

/-! ## What the item tells -/

/-- The main item tells whether there is a server. -/
def TellsTruth (s : Session) : Prop :=
  (s.mainText? = some readyText ↔ s.state = .ready) ∧
    (s.mainText? = some goneText ↔ s.state = .stopped)

/-- **The main item tells the truth, unless a reload or an overtaken watcher wrote it last.**
Whatever starts, restarts and commands there were, and whenever servers exited: with nothing
in progress after a start, the item was last written in the state that still holds. It tells
that state; or it reads that the server is ready where it is stopped, and a reload wrote that;
or it reads that there is no server where one is ready, and the watcher of another did. -/
theorem status_item_at_rest (hrun : run actions { setup, files, view } = some s)
    (composed : ∀ work, .begin work ∈ actions → work.isComposed = true)
    (rest : s.nothingGoesOn = true) (started : .begin .start ∈ actions) :
    ∃ n, (notices actions { setup, files, view }).getLast? = some n ∧
      s.mainText? = some n.text ∧ n.state = s.state ∧
      (s.TellsTruth ∨
        (n.text = readyText ∧ s.state = .stopped ∧
          ⟨.status StatusItem.main reloadingText, ()⟩ ∈
            dialogue n.task actions { setup, files, view }) ∨
        (n.text = goneText ∧ s.state = .ready ∧
          ∃ server, (origins actions { setup, files, view })[n.task]? = some (.watcher server))) := by
  have written := written_of_start hrun composed rest started
  obtain ⟨n, last⟩ : ∃ n, (notices actions { setup, files, view }).getLast? = some n :=
    ⟨_, List.getLast?_eq_some_getLast written⟩
  have reads : s.mainText? = some n.text := by
    rw [mainText?, mainTexts_of_run rfl hrun, List.getLast?_map, last]
    rfl
  obtain ⟨course, on, standing, -⟩ := told_of_run hrun
  have settled : s.state = .stopped ∨ s.state = .ready :=
    ((atRest_of_nothingGoesOn hrun rest).settled on standing).imp And.left And.left
  have current : UpToDate (notices actions { setup, files, view }) s.state := by
    rcases attended_of_run hrun with ⟨task, owes⟩ | restarting | current
    · rw [calm_of_nothingGoesOn hrun composed rest task] at owes
      contradiction
    · rw [restarting] at settled
      exact absurd settled (by simp)
    · exact current
  simp only [UpToDate, last] at current
  obtain ⟨lasting, same⟩ := current
  have truth : Tells n.text s.state → s.TellsTruth := by
    intro tells
    rw [TellsTruth, reads, Option.some.injEq, Option.some.injEq]
    exact tells
  refine ⟨n, last, reads, same, ?_⟩
  -- the texts that need not fit are wrong in one of the two settled phases each
  cases accounted_of_run hrun composed (List.mem_of_getLast? last) lasting with
  | fits h => exact .inl (truth (same ▸ h))
  | reload text began =>
    rcases settled with stopped | ready
    · exact .inr (.inl ⟨text, stopped, began⟩)
    · refine .inl (truth ?_)
      rw [text, ready]
      exact ⟨by decide, by decide⟩
  | watcher text server begun =>
    rcases settled with stopped | ready
    · refine .inl (truth ?_)
      rw [text, stopped]
      exact ⟨by decide, by decide⟩
    · exact .inr (.inr ⟨text, ready, server, begun⟩)

/-- A server comes up, exits, and is reported. -/
def lostAndReported : List Action :=
  List.flatten [servedThenLost, List.replicate 3 (.advance 1), [.terminated 1, .advance 1]]

/-- `status_item_at_rest` where a server was lost: its watcher wrote last, and what it wrote is
true. -/
theorem status_item_at_rest_lost :
    ∃ s, run lostAndReported { setup := bareSetup } = some s ∧ s.state = .stopped ∧
      s.mainText? = some goneText ∧ s.TellsTruth := by
  have facts : ((run lostAndReported { setup := bareSetup }).any fun s =>
      s.nothingGoesOn = true ∧ s.state = .stopped ∧ s.mainText? = some goneText) = true := by
    decide +kernel
  have jobs : (lostAndReported.all fun
      | .begin work => work.isComposed
      | _ => true) = true := by decide +kernel
  obtain ⟨s, hrun, facts⟩ := (Option.any_eq_true _ _).mp facts
  obtain ⟨rest, stopped, gone⟩ := of_decide_eq_true facts
  have composed : ∀ work, .begin work ∈ lostAndReported → work.isComposed = true :=
    fun work mem => List.all_eq_true.mp jobs _ mem
  have started : .begin .start ∈ lostAndReported := by
    simp [lostAndReported, servedThenLost, served]
  obtain ⟨n, -, reads, -, truth | ⟨text, -⟩ | ⟨-, ready, -⟩⟩ :=
    status_item_at_rest hrun composed rest started
  · exact ⟨s, hrun, stopped, gone, truth⟩
  · rw [gone, text] at reads
    exact absurd reads (by decide)
  · rw [stopped] at ready
    contradiction

/-- A start fails, and then the project is reloaded. -/
def reloadedInVain : List Action :=
  List.flatten [[.begin .start], List.replicate 7 (.advance 0),
    [.launched 0 (.error (.launch "no such program"))], List.replicate 3 (.advance 0),
    [.begin (.execute Command.setStatusBarText [])], List.replicate 4 (.advance 1)]

/-- The reload ends on a text that is not true: nothing is in progress, there is no server, and
the item reads that it is ready. -/
theorem reload_in_vain :
    ∃ s, run reloadedInVain { setup := bareSetup } = some s ∧ s.nothingGoesOn = true ∧
      s.state = .stopped ∧ s.mainText? = some readyText ∧ ¬ s.TellsTruth := by
  have facts : ((run reloadedInVain { setup := bareSetup }).any fun s =>
      s.nothingGoesOn = true ∧ s.state = .stopped ∧ s.mainText? = some readyText) = true := by
    decide +kernel
  obtain ⟨s, hrun, facts⟩ := (Option.any_eq_true _ _).mp facts
  obtain ⟨rest, stopped, reads⟩ := of_decide_eq_true facts
  refine ⟨s, hrun, rest, stopped, reads, fun truth => ?_⟩
  have ready := truth.1.mp reads
  rw [stopped] at ready
  contradiction

/-- While the watcher of a lost server is about to report, another start comes up. -/
def overtaken : List Action :=
  List.flatten [servedThenLost, [.begin .start], List.replicate 7 (.advance 2), comesUp 2 1,
    List.replicate 6 (.advance 2), List.replicate 4 (.connection 1 (.advance 1)),
    [.connection 1 (.receive (Frame.encode (.response (.ofNat 2) (.ok .null)))),
      .connection 1 .read, .connection 1 (.advance 1)],
    List.replicate 4 (.advance 2), List.replicate 3 (.advance 1), [.terminated 1, .advance 1]]

/-- The other exception. -/
example : ((run overtaken { setup := bareSetup }).any fun s =>
    s.nothingGoesOn = true ∧ s.state = .ready ∧ s.mainText? = some goneText) = true := by
  decide +kernel

end EmberClient.Session
