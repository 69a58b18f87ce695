import EmberClient.Proofs.Session.Calls

/-!
# When a task is told something

A dialogue forgets what the session was like when each reply was given. `Hears` brings it
back: in a run, a task is told this after that, the session being at `d` then and at `d'`
next.

> `hears_of_dialogue`: whatever stands in a dialogue was told at such a moment.

So the course of a task can be read off its program, and what the session was like at each
step of that course off the moment.
-/

namespace EmberClient.Session

variable {setup : Setup} {files : FileSystem} {view : EditorView} {actions before after : List Action}
  {start s d d' : Session} {a : Action} {task : Nat}

/-! ## Runs in two parts -/

theorem dialogue_append (hrun : run before start = some d) :
    dialogue task (before ++ after) start = dialogue task before start ++ dialogue task after d := by
  rw [dialogue_eq]
  exact gathered_append hrun

theorem origins_append (hrun : run before start = some d) :
    origins (before ++ after) start = origins before start ++ origins after d := by
  rw [origins_eq]
  exact gathered_append hrun

theorem history_append (hrun : run before start = some d) :
    history (before ++ after) start = history before start ++ history after d := by
  rw [history_eq]
  exact gathered_append hrun

/-! ## Moments -/

/-- In a run, the task is told this after what it was told before. The session is at `d`
when it is told, and at `d'` next. -/
def Hears (actions : List Action) (start : Session) (task : Nat) (past : List Exchange)
    (e : Exchange) (d d' : Session) : Prop :=
  ∃ before a after, actions = before ++ a :: after ∧ run before start = some d ∧
    d.step a = some d' ∧ d.told? a = some (task, e) ∧ dialogue task before start = past

variable {past future : List Exchange} {e : Exchange}

/-- Of two moments of a task, the one with the longer past is the later one. -/
theorem Hears.earlier {more : List Exchange} {e' : Exchange} {c c' : Session}
    (first : Hears actions start task past e d d')
    (later : Hears actions start task (past ++ e :: more) e' c c') :
    ∃ before between, run before start = some d ∧ run (before ++ between) start = some c := by
  obtain ⟨before, a, after, rfl, hbefore, -, -, rfl⟩ := first
  obtain ⟨before', a', after', same, hbefore', -, -, longer⟩ := later
  rcases List.append_eq_append_iff.mp same with ⟨between, rfl, -⟩ | ⟨between, rfl, -⟩
  · exact ⟨before, between, hbefore, hbefore'⟩
  · rw [dialogue_append hbefore'] at longer
    have lengths := congrArg List.length longer
    simp only [List.length_append, List.length_cons] at lengths
    omega

/-- Whatever stands in a dialogue was told at some moment. -/
theorem hears_of_dialogue (hrun : run actions start = some s)
    (split : dialogue task actions start = past ++ e :: future) :
    ∃ d d', Hears actions start task past e d d' := by
  rw [dialogue_eq] at split
  obtain ⟨before, a, after, d, d', rfl, hbefore, hstep, now, rfl⟩ :=
    moment_of_gathered (told_single task) hrun split
  have heard := told?_of_mem (now ▸ List.mem_singleton_self e : e ∈ d.told task a)
  exact ⟨d, d', before, a, after, rfl, hbefore, hstep, heard, by rw [dialogue_eq]⟩

/-- What is told answers the question that the task is at. -/
theorem asked_of_told (hstep : d.step a = some d') (heard : d.told? a = some (task, e)) :
    d.question? task = some e.question :=
  (heard_of_step hstep heard).1

/-- At the moment, the task stands where its program was led by what it was told before. -/
theorem Hears.stands (hears : Hears actions start task past e d d') (fresh : start.tasks = [])
    {o : Origin} (begun : (origins actions start)[task]? = some o) :
    ∃ next, Leads start.setup (o.program start.setup) past (.ask e.question next) := by
  obtain ⟨before, a, after, rfl, hrun, hstep, heard, rfl⟩ := hears
  obtain ⟨t, next, here, question⟩ := task_of_question? (asked_of_told hstep heard)
  obtain ⟨o', begun', leads⟩ := (leads_of_run fresh hrun).leads task t here
  have same : o' = o := by
    rw [origins_append hrun, List.getElem?_append_left (length_of_getElem? begun'), begun'] at begun
    exact Option.some.inj begun
  subst same
  rw [question] at leads
  exact ⟨next, leads⟩

/-- What is replied from what is shared, and where the session is next. -/
theorem Hears.reply {q : Question} {r : q.Reply} (hears : Hears actions start task past ⟨q, r⟩ d d')
    (inside : isOutward q = false) (patient : ∀ server place, q ≠ .awaitBriefly server place) :
    ∃ s₁ program, d.reply task q = some (s₁, r) ∧ d' = s₁.setProgram task program := by
  obtain ⟨before, a, after, rfl, -, hstep, heard, -⟩ := hears
  exact (reply_of_told hstep heard inside patient).2.2

/-- What a task does when it is told something is noted. -/
theorem Hears.happens {q : Question} {r : q.Reply} {h : Happening}
    (hears : Hears actions start task past ⟨q, r⟩ d d') (inside : isOutward q = false)
    (patient : ∀ server place, q ≠ .awaitBriefly server place) (noted : d.noted task q = some h) :
    h ∈ history actions start := by
  obtain ⟨before, a, after, rfl, hrun, hstep, heard, -⟩ := hears
  obtain ⟨rfl, asked, -⟩ := reply_of_told hstep heard inside patient
  have happens : d.happening (.advance task) = some h := by
    simp only [happening, asked]
    split
    · next same =>
      obtain rfl := Option.some.inj same
      contradiction
    · next same => rw [← noted, Option.some.inj same]
    · contradiction
  rw [history_append hrun]
  refine List.mem_append_right _ ?_
  simp only [history, hstep, happens]
  exact List.mem_cons_self

end EmberClient.Session
