import EmberClient.Proofs.Session.Namespaces

/-!
# While a task holds the lock

A task in a transition is not alone. Watchers notice that servers exit, commands are run and
servers answer, between any two of its steps. But what a transition is about is left to the task
that holds the lock, except that a watcher may stop the server in the slot and empty it:
`reserved_of_other`. So what the task has found or done stands when it looks again:

> `state_of_inside`, `slot_of_inside`, `advertised_of_inside`: the state, the slot and what a
> server advertised, between two moments of one transition.
-/

namespace EmberClient.Session

variable {setup : Setup} {files : FileSystem} {view : EditorView} {actions : List Action}
  {s s' d d' c c' : Session} {a : Action} {task i : Nat}

/-! ## What a step comes to -/

/-- A task is told something and goes on; or nobody is, and neither the slot nor what servers
advertised is touched. -/
inductive Turn (s : Session) (a : Action) (s' : Session) : Prop where
  | told {task : Nat} {q : Question} {r : q.Reply} {acts : Nat → Option Connection.Action}
      {s₁ : Session} {program : Prog Result} (heard : s.told? a = some (task, ⟨q, r⟩))
      (replies : Replies s task q r acts s₁) (goes : s' = s₁.setProgram task program)
  | untold (silent : s.told? a = none) (slot : s'.slot = s.slot)
      (advertised : ∀ i, s'.advertised i = s.advertised i)

/-- Going on with a task turns what its question turns. -/
theorem turn_of_advance (hstep : s.step (.advance task) = some s') :
    Turn s (.advance task) s' := by
  obtain ⟨t, stride, here, took, advances⟩ := advances_of_step hstep
  have told := told?_of_stride took
  cases advances with
  | runs => exact .untold told rfl fun _ => rfl
  | @puts q => cases q <;> exact .untold told rfl fun _ => rfl
  | told question plain ready replied => exact .told told (.own replied) rfl

/-- So each action turns what the question it answers turns. -/
theorem turn_of_step (hstep : s.step a = some s') : Turn s a s' := by
  cases stepped_of_step hstep with
  | begins | cancels | shows => exact .untold rfl rfl fun _ => rfl
  | runs | puts | replied => exact turn_of_advance hstep
  | brought here question ready brings =>
    have asked := question?_of here question
    exact .told (told?_of_brings brings asked) (brings.replies asked).1 rfl
  | @acts server c c' act events =>
    refine .untold rfl (core_acts s server c' events).slot fun i => ?_
    rw [advertised_of_servers (servers_takes ..)]
    exact advertised_editServer fun _ _ => rfl

/-- Questions that change what is in the slot. -/
def Question.movesSlot : Question → Bool
  | .setCurrent _ | .takeCurrent | .vacate => true
  | _ => false

/-- A question that does not move the slot leaves it. -/
theorem slot_of_replies_still {s₁ : Session} {q : Question} {r : q.Reply}
    {acts : Nat → Option Connection.Action} (h : Replies s task q r acts s₁)
    (still : q.movesSlot = false) : s₁.slot = s.slot := by
  cases h with
  | own h =>
    cases q with
    | setCurrent | takeCurrent | vacate => contradiction
    | unlock => rw [replies_unlock (.own h)]
    | setState => rw [replies_setState (.own h)]
    | claim server =>
      obtain ⟨-, ⟨-, -, rfl⟩ | ⟨-, -, rfl⟩⟩ := replies_claim (.own h)
      · rfl
      · rfl
    | _ => exact ((reply_frame h).core rfl).slot
  | _ => rfl

/-! ## What others leave alone -/

/-- Questions that only the holder of the lock asks. -/
def Question.isReserved : Question → Bool
  | .unlock | .state | .setCurrent _ | .takeCurrent | .buildHandler | .launch _ | .advertise ..
  | .watch _ => true
  | _ => false

/-- The reserved questions are asked only by the holder of the lock. -/
theorem holds_of_reserved {φ φ' : Phase} {q : Question} {r : q.Reply}
    (step : Phase.Step setup φ q r φ') (reserved : q.isReserved = true) : φ.holds = true := by
  cases step with
  | idle h => cases q <;> contradiction
  | _ => first | rfl | contradiction

/-- Who does not hold the lock leaves alone what transitions are about. The state it can only
set to stopped. -/
theorem reserved_of_other (hrun : run actions { setup, files, view } = some s)
    (inside : (stance task actions { setup, files, view }).inside = true)
    (hstep : s.step a = some s') {u : Nat} {e : Exchange} (heard : s.told? a = some (u, e))
    (other : u ≠ task) :
    e.question.isReserved = false ∧ ∀ state, e.question = .setState state → state = .stopped := by
  obtain ⟨course, on, standing, -⟩ := told_of_run hrun
  obtain ⟨t, next, here, question⟩ := task_of_question? (asked_of_told hstep heard)
  -- there is one holder, and it is the task that is inside
  have outside : (course u).holds = false := by
    refine Bool.eq_false_iff.mpr fun held => other ?_
    have first := holder_of_inside hrun inside
    exact Option.some.inj ((standing.locking.holder u held).symm.trans first)
  have follows := on.follows u t here
  rw [question] at follows
  obtain ⟨φ, step, -⟩ := follows e.reply
  constructor
  · refine Bool.eq_false_iff.mpr fun reserved => ?_
    rw [holds_of_reserved step reserved] at outside
    contradiction
  · obtain ⟨q, r⟩ := e
    rintro state rfl
    rcases step_setState step with ⟨_, -, -, stopped⟩ | ⟨held, -⟩
    · exact stopped
    · rw [held] at outside
      contradiction

/-! ## From one moment of a transition to another -/

section Between

variable {past more : List Exchange} {e e' : Exchange}

/-- Two runs in a row are one run. -/
theorem run_append {before between : List Action} (hrun : run before s = some d) :
    run (before ++ between) s = run between d := by
  induction before generalizing s with
  | nil =>
    obtain rfl := Option.some.inj hrun
    rfl
  | cons a before ih =>
    obtain ⟨c, first, rest⟩ := Option.bind_eq_some_iff.mp hrun
    rw [List.cons_append, run, first, Option.bind_some, ih rest]

/-- Between two moments of a task there is a run, in which it is told what lies between. -/
theorem Hears.between {start : Session} (first : Hears actions start task past e d d')
    (later : Hears actions start task (past ++ e :: more) e' c c') :
    ∃ before between, before ++ between <+: actions ∧ run before start = some d' ∧
      dialogue task before start = past ++ [e] ∧ run between d' = some c ∧
      dialogue task between d' = more := by
  obtain ⟨before, a, after, rfl, hbefore, hstep, heard, rfl⟩ := first
  obtain ⟨before', a', after', same, hbefore', -, -, longer⟩ := later
  have told : dialogue task (before ++ [a]) start = dialogue task before start ++ [e] := by
    rw [dialogue_snoc task hbefore hstep, told_self heard]
  have hnext : run (before ++ [a]) start = some d' := by
    rw [run_append hbefore, run, hstep]
    rfl
  -- the later moment comes after the first, or the dialogue would be shorter
  rcases List.append_eq_append_iff.mp same with ⟨between, rfl, rest⟩ | ⟨between, rfl, -⟩
  · cases between with
    | nil =>
      rw [List.append_nil] at longer
      exact absurd (congrArg List.length longer) (by simp)
    | cons b between =>
      obtain ⟨rfl, rfl⟩ := List.cons.inj rest
      have split : before ++ a :: between = before ++ [a] ++ between := by simp
      rw [split] at hbefore' longer
      rw [run_append hnext] at hbefore'
      refine ⟨before ++ [a], between, ⟨a' :: after', by simp⟩, hnext, told, hbefore', ?_⟩
      rw [dialogue_append hnext, told, List.append_assoc] at longer
      exact List.append_cancel_left (List.append_cancel_left longer)
  · rw [dialogue_append hbefore'] at longer
    have lengths := congrArg List.length longer
    simp only [List.length_append, List.length_cons] at lengths
    omega

/-- A task stays inside until it gives the lock back. -/
theorem inside_after {st : Stance} {q : Question} (inside : st.inside = true) (kept : q ≠ .unlock) :
    (st.after q).inside = true := by
  cases q with
  | lock => rfl
  | unlock => contradiction
  | status item text =>
    simp only [Stance.after]
    split
    · exact inside
    · exact inside
  | _ => exact inside

/-- What holds after one step of a transition, and is kept by whatever is done until its next
ones, holds then. -/
theorem Hears.inside_induct {P : List Action → Session → Prop}
    (first : Hears actions { setup, files, view } task past e d d')
    (later : Hears actions { setup, files, view } task (past ++ e :: more) e' c c')
    (inside : (stanceOf (past ++ [e])).inside = true) (kept : ∀ x ∈ more, x.question ≠ .unlock)
    (base : ∀ {acts}, run acts { setup, files, view } = some d' → P acts d')
    (step : ∀ {acts s a s'}, run acts { setup, files, view } = some s → s.step a = some s' →
      (stance task acts { setup, files, view }).inside = true →
      (∀ x, s.told? a = some (task, x) → x ∈ more) → P acts s → P (acts ++ [a]) s') :
    ∃ acts, acts <+: actions ∧ run acts { setup, files, view } = some c ∧ P acts c := by
  obtain ⟨before, between, within, hbefore, told, hrun, said⟩ := first.between later
  have hwhole : run (before ++ between) { setup, files, view } = some c := by
    rw [run_append hbefore, hrun]
  refine ⟨before ++ between, within, hwhole, ?_⟩
  have all : ∀ x ∈ dialogue task between d', x ∈ more := by
    rw [said]
    exact fun _ mem => mem
  clear within said later
  suffices (stance task (before ++ between) { setup, files, view }).inside = true ∧
      P (before ++ between) c from this.2
  induction between using List.reverseRecOn generalizing c with
  | nil =>
    obtain rfl := Option.some.inj hrun
    rw [List.append_nil]
    refine ⟨?_, base hbefore⟩
    rw [stance, told]
    exact inside
  | append_singleton between a ih =>
    obtain ⟨m, hinit, hstep⟩ := run_snoc hrun
    have hmiddle : run (before ++ between) { setup, files, view } = some m := by
      rw [run_append hbefore, hinit]
    rw [dialogue_snoc task hinit hstep] at all
    obtain ⟨was, holds⟩ :=
      ih hinit hmiddle fun x mem => all x (List.mem_append_left _ mem)
    have hears : ∀ x, m.told? a = some (task, x) → x ∈ more := by
      intro x heard
      refine all x (List.mem_append_right _ ?_)
      rw [told_self heard]
      exact List.mem_singleton_self _
    rw [← List.append_assoc]
    refine ⟨?_, step hmiddle hstep was hears holds⟩
    -- what the task hears is not that it may leave; what others hear does not move it
    by_cases heard : ∃ x, m.told? a = some (task, x)
    · obtain ⟨⟨q, r⟩, heard⟩ := heard
      rw [stance_of_told hmiddle hstep heard]
      exact inside_after was (kept _ (hears _ heard))
    · rw [stance_of_untold hmiddle hstep (not_exists.mp heard)]
      exact was

/-- The state stays as the task has left it, or the server has exited. -/
theorem state_of_inside (first : Hears actions { setup, files, view } task past e d d')
    (later : Hears actions { setup, files, view } task (past ++ e :: more) e' c c')
    (inside : (stanceOf (past ++ [e])).inside = true)
    (kept : ∀ x ∈ more, x.question ≠ .unlock ∧ x.question.newState? = none) :
    c.state = d'.state ∨ c.state = .stopped := by
  obtain ⟨-, -, -, now⟩ := first.inside_induct later inside (fun x mem => (kept x mem).1)
    (P := fun _ s => s.state = d'.state ∨ s.state = .stopped) (fun _ => .inl rfl) (by
      intro acts s a s' hrun hstep inside hears old
      rw [(observed_of_step hstep).state]
      cases heard : s.told? a with
      | none => exact old
      | some told =>
        obtain ⟨u, x⟩ := told
        show x.question.newState?.getD s.state = _ ∨ x.question.newState?.getD s.state = _
        by_cases mine : u = task
        · rw [(kept x (hears x (mine ▸ heard))).2]
          exact old
        · -- another task sets the state only to stop it, as a watcher does
          cases new : x.question.newState? with
          | none => exact old
          | some state =>
            have sets : x.question = .setState state := by
              generalize x.question = q at new
              cases q with
              | setState => rw [Option.some.inj new]
              | _ => contradiction
            exact .inr ((reserved_of_other hrun inside hstep heard mine).2 state sets))
  exact now

/-- What a server advertised stays as it was noted. -/
theorem advertised_of_inside (first : Hears actions { setup, files, view } task past e d d')
    (later : Hears actions { setup, files, view } task (past ++ e :: more) e' c c')
    (inside : (stanceOf (past ++ [e])).inside = true)
    (kept : ∀ x ∈ more, x.question ≠ .unlock ∧ ∀ commands, x.question ≠ .advertise i commands) :
    c.advertised i = d'.advertised i := by
  obtain ⟨-, -, -, now⟩ := first.inside_induct later inside (fun x mem => (kept x mem).1)
    (P := fun _ s => s.advertised i = d'.advertised i) (fun _ => rfl) (by
      intro acts s a s' hrun hstep inside hears old
      refine Eq.trans ?_ old
      cases turn_of_step hstep with
      | untold silent slot advertised => exact advertised i
      | @told u q r _ s₁ program heard replies goes =>
        rw [goes]
        show s₁.advertised i = _
        refine advertised_of_replies replies fun commands same => ?_
        by_cases mine : u = task
        · exact (kept _ (hears _ (mine ▸ heard))).2 commands same
        · have unreserved := (reserved_of_other hrun inside hstep heard mine).1
          simp only [same, Question.isReserved] at unreserved
          contradiction)
  exact now

/-- A server is in the slot, or its watcher has emptied it. -/
def StaysOrLeaves (actions : List Action) (start s : Session) (i : Nat) : Prop :=
  s.slot = some i ∨ (s.slot = none ∧ ∃ watcher, .removed watcher i .vacated ∈ history actions start)

/-- A server that stays may be said to stay a little longer. -/
theorem StaysOrLeaves.goOn {start : Session} {after : List Action}
    (old : StaysOrLeaves actions start s i) (hrun : run actions start = some s)
    (same : s'.slot = s.slot) : StaysOrLeaves (actions ++ after) start s' i := by
  rcases old with there | ⟨empty, watcher, removed⟩
  · exact .inl (same.trans there)
  refine .inr ⟨same.trans empty, watcher, ?_⟩
  rw [history_append hrun]
  exact List.mem_append_left _ removed

/-- Nobody else takes a server out of the slot but its watcher. -/
theorem staysOrLeaves_of_other (hrun : run actions { setup, files, view } = some s)
    (inside : (stance task actions { setup, files, view }).inside = true)
    (hstep : s.step a = some s') {u : Nat} {q : Question} {r : q.Reply}
    {acts : Nat → Option Connection.Action} {s₁ : Session}
    (heard : s.told? a = some (u, ⟨q, r⟩)) (replies : Replies s u q r acts s₁)
    (goes : s'.slot = s₁.slot) (other : u ≠ task) (moves : q.movesSlot = true)
    (old : StaysOrLeaves actions { setup, files, view } s i) :
    StaysOrLeaves (actions ++ [a]) { setup, files, view } s' i := by
  have unreserved := (reserved_of_other hrun inside hstep heard other).1
  cases q with
  | vacate =>
    obtain rfl := replies_vacate replies
    rcases old with there | left
    · have moment : Hears (actions ++ [a]) { setup, files, view } u _ ⟨.vacate, r⟩ s s' :=
        ⟨actions, a, [], rfl, hrun, hstep, heard, rfl⟩
      refine .inr ⟨goes, u, ?_⟩
      exact moment.happens rfl (by simp) (by simp [Session.noted, there])
    · exact StaysOrLeaves.goOn (.inr left) hrun (goes.trans left.1.symm)
  | _ => contradiction

/-- A server stays in the slot, or its watcher empties it. -/
theorem slot_of_inside (first : Hears actions { setup, files, view } task past e d d')
    (later : Hears actions { setup, files, view } task (past ++ e :: more) e' c c')
    (inside : (stanceOf (past ++ [e])).inside = true)
    (kept : ∀ x ∈ more, x.question ≠ .unlock ∧ x.question.movesSlot = false)
    (there : d'.slot = some i) : StaysOrLeaves actions { setup, files, view } c i := by
  obtain ⟨acts, ⟨after, rfl⟩, hrun, now⟩ := first.inside_induct later inside
    (fun x mem => (kept x mem).1)
    (P := fun acts s => StaysOrLeaves acts { setup, files, view } s i)
    (fun _ => .inl there) (by
      intro acts s a s' hrun hstep inside hears old
      cases turn_of_step hstep with
      | untold silent slot advertised => exact old.goOn hrun slot
      | @told u q r _ s₁ program heard replies goes =>
        have slot : s'.slot = s₁.slot := goes ▸ rfl
        cases moves : q.movesSlot with
        | false => exact old.goOn hrun (slot.trans (slot_of_replies_still replies moves))
        | true =>
          have other : u ≠ task := by
            rintro rfl
            rw [(kept _ (hears _ heard)).2] at moves
            contradiction
          exact staysOrLeaves_of_other hrun inside hstep heard replies slot other moves old)
  exact now.goOn hrun rfl

end Between

end EmberClient.Session
