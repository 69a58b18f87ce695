import EmberClient.Proofs.Session.Calls
import EmberClient.Proofs.Session.Candor
import EmberClient.Proofs.Session.Fate

/-!
# Who writes on the main status item, and when

`notices` lists what was written on the main item in a run, by whom, and what the state was
then; the item reads the last of it (`mainTexts_of_run`). What a task may write depends on
its stance, which its dialogue settles: in every run each task is as candid as the program it
was begun with (`candid_of_run`), and one that is in a transition holds the lock
(`holder_of_inside`).

`Observed` says what an action does to the state, to the item and to the lock, by what is
told in it.
-/

namespace EmberClient.Session

variable {setup : Setup} {files : FileSystem} {view : EditorView} {actions : List Action}
  {s d s' : Session} {a : Action} {task : Nat}

/-! ## What the item reads -/

/-- The text that the editor is made to show on the main item. -/
def EditorEvent.mainText? : EditorEvent → Option String
  | .status item text => if item = StatusItem.main then some text else none
  | _ => none

/-- All that the main item read, in order. -/
def mainTexts (s : Session) : List String := s.shown.filterMap EditorEvent.mainText?

/-- What the main item reads. -/
def mainText? (s : Session) : Option String := s.mainTexts.getLast?

/-! ## What an action does to state, item and lock -/

/-- What a question that is answered does to state, item and lock. -/
structure Seen (s : Session) (task : Nat) (q : Question) (s' : Session) : Prop where
  state : s'.state = q.newState?.getD s.state
  texts : s'.mainTexts = s.mainTexts ++ q.mainText?.toList
  holder : ∀ holder, s.lock.head? = some holder → (holder = task → q ≠ .unlock) →
    s'.lock.head? = some holder

theorem mainTexts_of_shown (shown : s'.shown = s.shown) : s'.mainTexts = s.mainTexts :=
  congrArg (List.filterMap EditorEvent.mainText?) shown

/-- Telling the editor something adds a text of the item if it is one. -/
theorem mainTexts_tell (s : Session) (event : EditorEvent) :
    (s.tell event).mainTexts = s.mainTexts ++ event.mainText?.toList :=
  filterMap_append_toList _ s.shown (some event)

/-- A question that bears on none of the three. -/
theorem seen_same {q : Question} (state : s'.state = s.state) (shown : s'.shown = s.shown)
    (lock : s'.lock = s.lock) (noState : q.newState? = none) (noText : q.mainText? = none) :
    Seen s task q s' := by
  refine ⟨?_, ?_, ?_⟩
  · rw [noState]
    exact state
  · rw [noText, Option.toList_none, List.append_nil]
    exact mainTexts_of_shown shown
  · intro holder first _
    rw [lock]
    exact first

/-- The head of a queue stays when someone else leaves. -/
theorem head?_erase_of_ne {l : List Nat} {i j : Nat} (first : l.head? = some i) (other : i ≠ j) :
    (l.erase j).head? = some i := by
  cases l with
  | nil => contradiction
  | cons k rest =>
    obtain rfl := Option.some.inj first
    rw [List.erase_cons_tail (by simpa using other)]
    rfl

/-- Only the questions that show something change what is shown. -/
theorem reply_shown {q : Question} {r : q.Reply} {s₁ : Session}
    (h : s.reply task q = some (s₁, r)) (other : ∀ item text, q ≠ .status item text)
    (quiet : ∀ text, q ≠ .showError text) : s₁.shown = s.shown := by
  -- two questions show something, the rest reach other parts
  cases q with
  | launch | terminate | prompt | openFile | editorCommand | run => contradiction
  | status item text => exact absurd rfl (other item text)
  | showError text => exact absurd rfl (quiet text)
  | notify server method params =>
    simp only [reply] at h
    split at h
    · obtain ⟨rfl, -⟩ := Prod.mk.inj (Option.some.inj h)
      rfl
    · split at h <;> obtain ⟨rfl, -⟩ := Prod.mk.inj (Option.some.inj h) <;> rfl
  | lock => rw [(replies_lock (.own h)).2]
  | current => rw [(replies_current (.own h)).2]
  | setCurrent server => rw [(replies_setCurrent (.own h)).2]
  | takeCurrent => rw [(replies_takeCurrent (.own h)).2.2]
  | claim server =>
    rcases (replies_claim (.own h)).2 with ⟨-, -, rfl⟩ | ⟨-, -, rfl⟩
    · rfl
    · rfl
  | await server place => rw [(replies_await (.own h)).2]
  | awaitBriefly server place =>
    obtain ⟨result, -, h⟩ := Option.map_eq_some_iff.mp h
    obtain ⟨rfl, -⟩ := Prod.mk.inj h
    rfl
  | closed server =>
    simp only [reply] at h
    split at h
    · split at h
      · obtain ⟨rfl, -⟩ := Prod.mk.inj (Option.some.inj h)
        rfl
      · contradiction
    · contradiction
  | _ =>
    obtain ⟨rfl, -⟩ := Prod.mk.inj (Option.some.inj h)
    rfl

/-- What a reply shows is what its question asked to be shown. -/
theorem seen_of_reply {q : Question} {r : q.Reply} {s₁ : Session}
    (h : s.reply task q = some (s₁, r)) : Seen s task q s₁ := by
  -- what reaches neither state, lock nor texts
  have stays : q.newState? = none → q.mainText? = none → (∀ text, q ≠ .showError text) →
      (∀ item text, q ≠ .status item text) → changesCore q = false → Seen s task q s₁ := by
    intro noState noText quiet other core
    have same := (reply_frame h).core core
    exact seen_same same.state (reply_shown h other quiet) same.lock noState noText
  cases q with
  | status item text =>
    obtain ⟨rfl, -⟩ := Prod.mk.inj (Option.some.inj h)
    exact ⟨rfl, mainTexts_tell s _, fun _ first _ => first⟩
  | showError text =>
    obtain ⟨rfl, -⟩ := Prod.mk.inj (Option.some.inj h)
    exact ⟨rfl, mainTexts_tell s _, fun _ first _ => first⟩
  | setState state =>
    obtain ⟨rfl, -⟩ := Prod.mk.inj (Option.some.inj h)
    exact ⟨rfl, (List.append_nil _).symm, fun _ first _ => first⟩
  | unlock =>
    obtain ⟨rfl, -⟩ := Prod.mk.inj (Option.some.inj h)
    refine ⟨rfl, (List.append_nil _).symm, fun holder first other => ?_⟩
    exact head?_erase_of_ne first fun mine => other mine rfl
  | setCurrent server =>
    obtain ⟨-, rfl⟩ := replies_setCurrent (.own h)
    exact seen_same rfl rfl rfl rfl rfl
  | takeCurrent =>
    obtain ⟨-, -, rfl⟩ := replies_takeCurrent (.own h)
    exact seen_same rfl rfl rfl rfl rfl
  | vacate =>
    obtain rfl := replies_vacate (.own h)
    exact seen_same rfl rfl rfl rfl rfl
  | claim server =>
    rcases (replies_claim (.own h)).2 with ⟨-, -, rfl⟩ | ⟨-, -, rfl⟩
    · exact seen_same rfl rfl rfl rfl rfl
    · exact seen_same rfl rfl rfl rfl rfl
  | _ => exact stays rfl rfl (by simp) (by simp) rfl

/-- What an action does to state, item and lock, by what is told in it. -/
structure Observed (s : Session) (a : Action) (s' : Session) : Prop where
  state : s'.state = ((s.told? a).bind fun (_, e) => e.question.newState?).getD s.state
  texts : s'.mainTexts =
    s.mainTexts ++ ((s.told? a).bind fun (_, e) => e.question.mainText?).toList
  holder : ∀ task, s.lock.head? = some task → s.told? a ≠ some (task, ⟨.unlock, ()⟩) →
    s'.lock.head? = some task

/-- What is told bears neither on the state nor on the item. -/
theorem observed_apart (state : s'.state = s.state) (texts : s'.mainTexts = s.mainTexts)
    (holder : ∀ task, s.lock.head? = some task → s'.lock.head? = some task)
    (apart : ∀ task e, s.told? a = some (task, e) →
      e.question.newState? = none ∧ e.question.mainText? = none) : Observed s a s' := by
  have blind : ((s.told? a).bind fun (_, e) => e.question.newState?) = none ∧
      ((s.told? a).bind fun (_, e) => e.question.mainText?) = none := by
    cases heard : s.told? a with
    | none => exact ⟨rfl, rfl⟩
    | some told => exact apart told.1 told.2 heard
  refine ⟨?_, ?_, fun task first _ => holder task first⟩
  · rw [blind.1]
    exact state
  · rw [blind.2, Option.toList_none, List.append_nil]
    exact texts

theorem observed_of_put {q : Question} (silent : s.told? a = none) :
    Observed s a ((s.put task q).markPut task) := by
  have apart : ∀ task e, s.told? a = some (task, e) →
      e.question.newState? = none ∧ e.question.mainText? = none := by
    intro task e heard
    rw [silent] at heard
    contradiction
  have told : ∀ event : EditorEvent, event.mainText? = none →
      ((s.tell event).markPut task).mainTexts = s.mainTexts := by
    intro event noText
    refine (mainTexts_tell s event).trans ?_
    rw [noText, Option.toList_none, List.append_nil]
  cases q with
  | lock =>
    refine observed_apart rfl rfl (fun holder first => ?_) apart
    show (s.lock ++ [task]).head? = _
    rw [List.head?_append, first]
    rfl
  | prompt | openFile | editorCommand =>
    exact observed_apart rfl (told _ rfl) (fun _ first => first) apart
  | _ => exact observed_apart rfl rfl (fun _ first => first) apart

/-- Going on with a task shows what its question shows. -/
theorem observed_of_advance (h : s.step (.advance task) = some s') :
    Observed s (.advance task) s' := by
  obtain ⟨t, stride, here, took, advances⟩ := advances_of_step h
  have heard := told?_of_stride took
  cases advances with
  | runs =>
    refine observed_apart rfl rfl (fun _ first => first) fun _ _ told => ?_
    rw [heard] at told
    contradiction
  | puts => exact observed_of_put heard
  | told question plain ready replied =>
    have seen := seen_of_reply replied
    refine ⟨?_, ?_, fun holder first kept => seen.holder holder first ?_⟩
    · rw [heard]
      exact seen.state
    · rw [heard]
      exact seen.texts
    · rintro rfl rfl
      exact kept heard

/-- What arrives from a server shows nothing by itself. -/
theorem shown_takes (server : Nat) (events : List Connection.Event) (s : Session) :
    (events.foldl (take server) s).shown = s.shown := by
  induction events generalizing s with
  | nil => rfl
  | cons event rest ih =>
    rw [List.foldl_cons, ih]
    cases event <;> rfl

/-- What is brought from outside bears on neither. -/
theorem observed_of_brings {t : Task} {q : Question} {next : q.Reply → Prog Result} {r : q.Reply}
    {s₁ : Session} (here : s.tasks[task]? = some t) (question : t.program = .ask q next)
    (brings : Brings s task a q r s₁) : Observed s a (s₁.setProgram task (next r)) := by
  have told := told?_of_brings brings (question?_of here question)
  have apart : ∀ task e, s.told? a = some (task, e) →
      e.question.newState? = none ∧ e.question.mainText? = none := by
    intro _ e heard
    obtain ⟨-, rfl⟩ := Prod.mk.inj (Option.some.inj (told.symm.trans heard))
    cases brings <;> exact ⟨rfl, rfl⟩
  cases brings <;> exact observed_apart rfl rfl (fun _ first => first) apart

/-- So each action shows what the question it answers shows. -/
theorem observed_of_step (h : s.step a = some s') : Observed s a s' := by
  cases stepped_of_step h with
  | begins | cancels | shows =>
    exact observed_apart rfl rfl (fun _ first => first) fun _ _ heard => by contradiction
  | runs | puts | replied => exact observed_of_advance h
  | brought here question ready brings => exact observed_of_brings here question brings
  | @acts server c c' act events =>
    have core := core_acts s server c' events
    refine observed_apart core.state (mainTexts_of_shown (shown_takes server events _)) ?_
      fun _ _ heard => by contradiction
    intro holder first
    rw [core.lock]
    exact first

/-! ## Notices -/

/-- A text on the main item, who wrote it, and what the state was then. -/
structure Notice where
  task : Nat
  text : String
  state : ServerState

/-- What is written on the main item in an action. -/
def notice? (s : Session) (a : Action) : Option Notice :=
  (s.told? a).bind fun (task, e) => e.question.mainText?.map fun text => ⟨task, text, s.state⟩

/-- What was written on the main item in a sequence of actions. -/
def notices : List Action → Session → List Notice
  | [], _ => []
  | a :: rest, s =>
    match s.step a with
    | some s' => (s.notice? a).toList ++ notices rest s'
    | none => []

theorem notices_eq : notices = gathered fun s a => (s.notice? a).toList :=
  eq_gathered (fun _ => rfl) fun _ _ _ => rfl

/-- A notice is kept with the state at the moment it was given. -/
theorem notices_snoc (hrun : run actions s = some d) (hstep : d.step a = some s') :
    notices (actions ++ [a]) s = notices actions s ++ (d.notice? a).toList := by
  rw [notices_eq]
  exact gathered_snoc hrun hstep

/-- A notice is a text of the main item, told at that moment. -/
theorem notice?_cases {n : Notice} (h : s.notice? a = some n) :
    s.told? a = some (n.task, ⟨.status StatusItem.main n.text, ()⟩) ∧ n.state = s.state := by
  obtain ⟨⟨task, q, r⟩, heard, h⟩ := Option.bind_eq_some_iff.mp h
  obtain ⟨text, same, rfl⟩ := Option.map_eq_some_iff.mp h
  cases q with
  | status item text' =>
    obtain ⟨rfl, same⟩ := (Option.ite_none_right_eq_some ..).mp same
    obtain rfl := Option.some.inj same
    exact ⟨heard, rfl⟩
  | _ => contradiction

/-- Whether a reply is a notice depends on its question alone. -/
theorem notice?_of_told {q : Question} {r : q.Reply} (heard : s.told? a = some (task, ⟨q, r⟩)) :
    s.notice? a = q.mainText?.map fun text => ⟨task, text, s.state⟩ := by
  simp only [notice?, heard, Option.bind_some]

/-- The item reads what was written on it. -/
theorem mainTexts_of_run (fresh : s.shown = []) (hrun : run actions s = some s') :
    s'.mainTexts = (notices actions s).map Notice.text := by
  induction actions using List.reverseRecOn generalizing s' with
  | nil =>
    obtain rfl := Option.some.inj hrun
    simp only [mainTexts, fresh, notices, List.filterMap_nil, List.map_nil]
  | append_singleton actions a ih =>
    obtain ⟨d, before, hstep⟩ := run_snoc hrun
    rw [(observed_of_step hstep).texts, ih before, notices_snoc before hstep, List.map_append]
    refine congrArg _ ?_
    simp only [notice?]
    cases d.told? a with
    | none => rfl
    | some told =>
      show told.2.question.mainText?.toList =
        (told.2.question.mainText?.map fun text => Notice.mk _ text _).toList.map Notice.text
      cases told.2.question.mainText? <;> rfl

/-! ## The stances of tasks -/

/-- The stance of a task after a sequence of actions. -/
def stance (task : Nat) (actions : List Action) (s : Session) : Stance :=
  stanceOf (dialogue task actions s)

/-- A task's stance follows the question it was just answered. -/
theorem stance_of_told {q : Question} {r : q.Reply} (hrun : run actions s = some d)
    (hstep : d.step a = some s') (heard : d.told? a = some (task, ⟨q, r⟩)) :
    stance task (actions ++ [a]) s = (stance task actions s).after q := by
  rw [stance, dialogue_snoc task hrun hstep, told_self heard, stanceOf_snoc]
  rfl

/-- It stays where it is while the task is told nothing. -/
theorem stance_of_untold (hrun : run actions s = some d) (hstep : d.step a = some s')
    (untold : ∀ e, d.told? a ≠ some (task, e)) :
    stance task (actions ++ [a]) s = stance task actions s := by
  have silent : d.told task a = [] := by
    cases heard : d.told? a with
    | none => exact told_of_none heard task
    | some told =>
      obtain ⟨listener, e⟩ := told
      refine told_other heard ?_
      rintro rfl
      exact untold e heard
  rw [stance, dialogue_snoc task hrun hstep, silent, List.append_nil]
  rfl

/-- A job among the origins has been begun. -/
theorem begin_of_origins {work : Job} (mem : .job work ∈ origins actions s) :
    .begin work ∈ actions := by
  -- along the actions: of all that begin a task only one begins a job
  induction actions generalizing s with
  | nil => exact absurd mem List.not_mem_nil
  | cons a rest ih =>
    simp only [origins] at mem
    split at mem
    · rcases List.mem_append.mp mem with now | later
      · cases a with
        | begin job =>
          obtain rfl := Origin.job.inj (List.mem_singleton.mp now)
          exact List.mem_cons_self ..
        | advance =>
          simp only [begun] at now
          split at now
          · exact absurd now (by simp)
          · exact absurd now List.not_mem_nil
        | connection =>
          simp only [begun] at now
          split at now
          · obtain ⟨event, -, same⟩ := List.mem_filterMap.mp now
            cases event <;> exact absurd same (by simp [Origin.ofEvent?])
          · exact absurd now List.not_mem_nil
        | _ => exact absurd now List.not_mem_nil
      · exact List.mem_cons_of_mem _ (ih later)
    · exact absurd mem List.not_mem_nil

/-- Each job that is begun is among the origins. -/
theorem origins_of_begin {work : Job} (hrun : run actions s = some s')
    (mem : .begin work ∈ actions) : .job work ∈ origins actions s := by
  induction actions generalizing s with
  | nil => exact absurd mem List.not_mem_nil
  | cons a rest ih =>
    obtain ⟨d, hstep, hrest⟩ := Option.bind_eq_some_iff.mp hrun
    simp only [origins, hstep]
    rcases List.mem_cons.mp mem with rfl | later
    · exact List.mem_append_left _ (List.mem_singleton_self _)
    · exact List.mem_append_right _ (ih hrest later)

/-- Every task goes on in its stance, if none was begun to activate or to stop. -/
theorem candid_of_run (fresh : s.tasks = []) (hrun : run actions s = some s')
    (composed : ∀ work, .begin work ∈ actions → work.isComposed = true) {t : Task}
    (here : s'.tasks[task]? = some t) :
    ∃ o, (origins actions s)[task]? = some o ∧
      Candid o.watches (· = {}) (stance task actions s) t.program := by
  obtain ⟨o, begun, leads⟩ := (leads_of_run fresh hrun).leads task t here
  refine ⟨o, begun, Faithful.leads (faithful_origin ?_) leads⟩
  rintro work rfl
  exact composed work (begin_of_origins (List.mem_of_getElem? begun))

/-- A task is inside when it has just got the lock, or was inside and has not given it back. -/
theorem inside_of_after {st : Stance} {q : Question} (inside : (st.after q).inside = true) :
    q = .lock ∨ (q ≠ .unlock ∧ st.inside = true) := by
  cases q with
  | lock => exact .inl rfl
  | unlock => exact absurd inside (by simp [Stance.after])
  | status item text =>
    refine .inr ⟨by simp, ?_⟩
    simp only [Stance.after] at inside
    split at inside
    · exact inside
    · exact inside
  | _ => exact .inr ⟨by simp, inside⟩

/-- Who is in a transition holds the lock. -/
theorem holder_of_inside (hrun : run actions { setup, files, view } = some s)
    (inside : (stance task actions { setup, files, view }).inside = true) :
    s.lock.head? = some task := by
  induction actions using List.reverseRecOn generalizing s with
  | nil => exact absurd inside (by simp [stance, dialogue, stanceOf])
  | append_singleton actions a ih =>
    obtain ⟨d, before, hstep⟩ := run_snoc hrun
    -- the lock changes hands only when its holder gives it back
    have holder := (observed_of_step hstep).holder task
    by_cases told : ∃ e, d.told? a = some (task, e)
    · obtain ⟨⟨q, r⟩, heard⟩ := told
      rw [stance_of_told before hstep heard] at inside
      rw [heard] at holder
      rcases inside_of_after inside with rfl | ⟨other, was⟩
      · obtain ⟨-, -, s₁, -, replied, -⟩ := reply_of_told hstep heard rfl (by simp)
        exact holder (replies_lock (.own replied)).1 (by simp)
      · refine holder (ih before was) fun same => other ?_
        exact congrArg (fun told => told.2.question) (Option.some.inj same)
    · have untold := not_exists.mp told
      rw [stance_of_untold before hstep untold] at inside
      exact holder (ih before inside) (untold _)

end EmberClient.Session
