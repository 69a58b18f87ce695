import EmberClient.Proofs.Session.Fate
import EmberClient.Proofs.Session.Moments

/-!
# What servers advertised

In its answer to the first request a server tells which commands it runs. They are noted once
the client has introduced itself, before the server is put into the slot, and the note stays:

> `advertised_of_current`: what is noted of a server that was in the slot does not change.
>
> `reported_of_run`: what is noted of a server is what its answer to the first request tells.
-/

namespace EmberClient.Session

variable {setup : Setup} {files : FileSystem} {view : EditorView}
  {actions before between : List Action} {s s' s₁ d : Session} {course course' : Nat → Phase}
  {i : Nat}

/-! ## The note -/

/-- The commands that a server advertised; none if it is not up. -/
def advertised (s : Session) (i : Nat) : List String :=
  ((s.servers[i]?).map Server.commands).getD []

theorem advertised_of_servers (servers : s'.servers = s.servers) :
    s'.advertised i = s.advertised i := by
  rw [advertised, servers, advertised]

/-- Editing a server keeps what it advertises, if it keeps the commands. -/
theorem advertised_editServer {server : Nat} {edit : Server → Server}
    (kept : server = i → ∀ v, (edit v).commands = v.commands) :
    (s.editServer server edit).advertised i = s.advertised i := by
  show (((s.servers.modify server edit)[i]?).map _).getD [] = _
  rw [List.getElem?_modify, advertised]
  cases s.servers[i]? with
  | none => rfl
  | some v =>
    show (if server = i then edit v else v).commands = v.commands
    split
    · next same => exact kept same v
    · rfl

/-- What is noted of a server that is up is what it has advertised from then on. -/
theorem advertised_of_note {task : Nat} {commands : List String} {r : Unit}
    {acts : Nat → Option Connection.Action} (up : Up s i)
    (h : Replies s task (.advertise i commands) r acts s₁) : s₁.advertised i = commands := by
  obtain ⟨c, conn⟩ := up
  obtain ⟨v, here, -⟩ := Option.map_eq_some_iff.mp conn
  cases h with
  | own replied =>
    obtain ⟨rfl, -⟩ := Prod.mk.inj (Option.some.inj replied)
    show (((s.servers.modify i _)[i]?).map Server.commands).getD [] = _
    rw [List.getElem?_modify_eq, here]
    rfl

/-- Only the note itself changes what a server advertised. -/
theorem advertised_of_replies {s₁ : Session} {task : Nat} {q : Question} {r : q.Reply}
    {acts : Nat → Option Connection.Action} (h : Replies s task q r acts s₁)
    (silent : ∀ commands, q ≠ .advertise i commands) : s₁.advertised i = s.advertised i := by
  cases h with
  | own h =>
    cases q with
    | call server method params | respond server place outcome =>
      obtain ⟨rfl, -⟩ := Prod.mk.inj (Option.some.inj h)
      exact advertised_editServer fun _ _ => rfl
    | discard server =>
      obtain ⟨rfl, -⟩ := Prod.mk.inj (Option.some.inj h)
      exact advertised_editServer fun _ _ => rfl
    | advertise server commands =>
      obtain ⟨rfl, -⟩ := Prod.mk.inj (Option.some.inj h)
      exact advertised_editServer fun same => absurd (same ▸ rfl) (silent commands)
    | notify server method params =>
      simp only [reply] at h
      split at h
      · obtain ⟨rfl, -⟩ := Prod.mk.inj (Option.some.inj h)
        rfl
      · split at h
        · obtain ⟨rfl, -⟩ := Prod.mk.inj (Option.some.inj h)
          exact advertised_editServer fun _ _ => rfl
        · obtain ⟨rfl, -⟩ := Prod.mk.inj (Option.some.inj h)
          rfl
    | _ => exact advertised_of_servers ((reply_frame h).servers rfl)
  | @launched handler =>
    -- a server that has just come up has advertised nothing, as if it were not there
    simp only [advertised, List.getElem?_append]
    split
    · rfl
    · next beyond =>
      rw [List.getElem?_eq_none (Nat.le_of_not_lt beyond)]
      cases new : ([({ handler } : Server)][i - s.servers.length]?) with
      | none => rfl
      | some v =>
        obtain rfl := List.mem_singleton.mp (List.mem_of_getElem? new)
        rfl
  | elapsed conn hstep => exact advertised_editServer fun _ _ => rfl
  | _ => rfl

theorem advertised_of_move {course course' : Nat → Phase} {e : Option Happening}
    {acts : Nat → Option Connection.Action} (move : Move s course e acts s' course')
    (settled : ∀ task, (course task).story task ≠ some (i, [])) :
    s'.advertised i = s.advertised i := by
  cases move with
  | @asks task t q next r acts s₁ φ here question step replies other =>
    have silent : ∀ commands, q ≠ .advertise i commands := by
      rintro commands rfl
      refine settled task ?_
      generalize course task = ψ at step
      cases step with
      | idle h => exact absurd h (by simp [isIdle])
      | advertise => rfl
    have still := advertised_of_replies replies silent
    exact still
  | watches | wants => rfl
  | acts conn spontaneous hstep =>
    rw [advertised_of_servers (servers_takes ..)]
    exact advertised_editServer fun _ _ => rfl
  | quiet same servers queued => exact advertised_of_servers servers

/-- What a server advertised does not change any more once it was in the slot. -/
theorem advertised_of_current (hbefore : run before { setup, files, view } = some d)
    (current : d.slot = some i) (hrun : run (before ++ between) { setup, files, view } = some s) :
    s.advertised i = d.advertised i := by
  induction between using List.reverseRecOn generalizing s with
  | nil =>
    rw [List.append_nil, hbefore] at hrun
    rw [Option.some.inj hrun]
  | append_singleton between a ih =>
    rw [← List.append_assoc] at hrun
    obtain ⟨c, hinit, hstep⟩ := run_snoc hrun
    obtain ⟨course, on, standing, told⟩ := told_of_run hinit
    obtain ⟨_, -, -, first⟩ := told_of_run hbefore
    obtain ⟨course', move, -⟩ := move_of_step on hstep
    refine (advertised_of_move move fun task mine => ?_).trans (ih hinit)
    -- whoever still brings the server up has nothing to tell of it, but it was in the slot
    have untold := told.inHand task i [] mine
    rw [history_append hbefore, story, List.filterMap_append] at untold
    have filled := first.inSlot i current
    rw [story, (List.append_eq_nil_iff.mp untold).1] at filled
    exact absurd filled (by simp)

/-! ## What is noted -/

/-- The server has told these commands in an answer to the first request. -/
def Reported (setup : Setup) (h : List Connection.Happening) (commands : List String) : Prop :=
  ∃ v result, setup.reader.read v = some result ∧ .resolved 0 (.ok v) ∈ h ∧
    commands = result.commands

theorem Reported.append {h : List Connection.Happening} {commands : List String}
    (reported : Reported setup h commands) (more : List Connection.Happening) :
    Reported setup (h ++ more) commands := by
  obtain ⟨v, result, reads, resolved, same⟩ := reported
  exact ⟨v, result, reads, List.mem_append_left _ resolved, same⟩

/-- Who has had a good answer has had it from the server. -/
theorem Shaken.reported {h : List Connection.Happening} {task : Nat} {commands : List String}
    (inv : Shaken setup s course i h) (knowing : Knowing s course)
    (stands : course task = .greeted i commands) : Reported setup h commands := by
  have mem : i ∈ (course task).mentions := by
    rw [stands]
    exact List.mem_singleton_self _
  obtain ⟨c, conn⟩ := knowing.mentioned task i mem
  have expects := inv.expects task c mem conn
  rw [stands] at expects
  obtain ⟨opening, v, only, tells⟩ : Connection.Accepted setup commands h c := expects
  obtain ⟨result, reads, rfl⟩ := Option.map_eq_some_iff.mp tells
  exact ⟨v, result, reads, opening.resolved _ only, rfl⟩

/-- Whoever is about to note commands, and whatever is noted, has them from the server. -/
structure Noting (setup : Setup) (on : Nat → List Connection.Happening) (s : Session)
    (course : Nat → Phase) : Prop where
  introduced : ∀ task i commands, course task = .introduced i commands →
    Reported setup (on i) commands
  noted : ∀ i, s.advertised i ≠ [] → Reported setup (on i) (s.advertised i)

theorem step_introduced {φ : Phase} {q : Question} {r : q.Reply} {commands : List String}
    (step : Phase.Step setup φ q r (.introduced i commands)) : φ = .greeted i commands := by
  cases step with
  | introduce => rfl

/-- Commands are noted only after the server was told `initialized`. -/
theorem step_advertise {φ φ' : Phase} {r : Unit} {commands : List String}
    (step : Phase.Step setup φ (.advertise i commands) r φ') : φ = .introduced i commands := by
  cases step with
  | idle h => exact absurd h (by simp [isIdle])
  | advertise => rfl

theorem noting_keep {h : List Happening} {on : Nat → List Connection.Happening}
    {e : Option Happening} {acts : Nat → Option Connection.Action} (inv : Noting setup on s course)
    (handshaking : Handshaking setup h on s course) (move : Move s course e acts s' course') :
    Noting setup
      (fun i => on i ++ (connectionHappening (s.connection? i) (acts i)).toList) s' course' := by
  have knowing := handshaking.standing.knowing
  -- where nobody comes to introduce itself and nothing is noted, all stays as it is
  have rest (same : ∀ i, s'.advertised i = s.advertised i)
      (idle : ∀ u i commands, course' u = .introduced i commands →
        course u = .introduced i commands) :
      Noting setup
        (fun i => on i ++ (connectionHappening (s.connection? i) (acts i)).toList) s' course' := by
    refine ⟨fun u i commands stands => ?_, fun i some => ?_⟩
    · exact (inv.introduced u i commands (idle u i commands stands)).append _
    · rw [same] at some ⊢
      exact (inv.noted i some).append _
  cases move with
  | @asks task t q next r acts s₁ φ here question step replies other =>
    refine ⟨fun u i commands stands => ?_, fun i some => ?_⟩
    · by_cases comes : φ = .introduced i commands ∧ u = task
      · obtain ⟨rfl, rfl⟩ := comes
        exact ((handshaking.shaken i).reported knowing (step_introduced step)).append _
      · refine (inv.introduced u i commands ?_).append _
        rcases eq_or_ne u task with rfl | apart
        · rw [Function.update_self] at stands
          exact absurd ⟨stands, rfl⟩ comes
        · rwa [Function.update_of_ne apart] at stands
    · by_cases notes : ∃ commands, q = .advertise i commands
      · obtain ⟨commands, rfl⟩ := notes
        have stands := step_advertise step
        have up : Up s i := knowing.mentioned task i (by rw [stands]; exact List.mem_singleton_self _)
        have same : s₁.advertised i = commands := advertised_of_note up replies
        show Reported setup _ (s₁.advertised i)
        rw [same]
        exact (inv.introduced task i commands stands).append _
      · have same : s₁.advertised i = s.advertised i :=
          advertised_of_replies replies fun commands is => notes ⟨commands, is⟩
        show Reported setup _ (s₁.advertised i)
        rw [same]
        exact (inv.noted i (same ▸ some)).append _
  | watches here question stands =>
    refine rest (fun _ => rfl) fun u i commands introduced => ?_
    have before := (stood_of_update (by simp) introduced).2
    exact (stood_of_update (by simp) before).2
  | wants => exact rest (fun _ => rfl) fun _ _ _ stands => stands
  | acts =>
    refine rest (fun i => ?_) fun _ _ _ stands => stands
    rw [advertised_of_servers (servers_takes ..)]
    exact advertised_editServer fun _ _ => rfl
  | quiet same servers =>
    exact rest (fun _ => advertised_of_servers servers) fun _ _ _ stands => stands

/-- After every run, what is noted of a server is what its answer to the first request told. -/
theorem reported_of_run (hrun : run actions { setup, files, view } = some s)
    (some : s.advertised i ≠ []) :
    Reported setup (connectionHistory i actions { setup, files, view }) (s.advertised i) := by
  have start : Noting setup (fun _ => []) { setup, files, view } fun _ => .free [] :=
    ⟨fun _ _ _ stands => by contradiction, fun _ some => absurd rfl some⟩
  obtain ⟨course, -, -, -, noting⟩ := run_induct
    (P := fun h on s course => Handshaking setup h on s course ∧ Noting setup on s course)
    ⟨handshaking_start setup files view, start⟩
    (fun ⟨handshaking, noting⟩ onCourse recorded move =>
      ⟨handshaking_keep handshaking onCourse recorded move, noting_keep noting handshaking move⟩)
    hrun
  exact noting.noted i some

/-- What is read of an answer is what it tells about commands. -/
theorem told_of_read {answer capabilities : List (String × Json)} {result : InitializeResult}
    (reads : setup.reader.read (.obj answer) = some result)
    (mem : .obj capabilities ∈ Json.valuesAt "capabilities" answer) :
    ∃ provider, CommandProvider.Told capabilities provider ∧
      result.commands = (provider.map CommandProvider.commands).getD [] := by
  refine ⟨_, setup.reader.told reads mem, ?_⟩
  unfold InitializeResult.commands
  cases result.capabilities.commandProvider <;> rfl

end EmberClient.Session
