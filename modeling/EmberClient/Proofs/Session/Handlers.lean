import EmberClient.Proofs.Session.Standing

/-!
# Handlers

Each start builds a handler for the requests of the server that it brings up. Handlers are
numbered in the order in which they are built, so a new one is none of those before. It is in
charge of no server until the one comes up that it was built for, since nothing else is launched
in between: the lock is held.

> `Manned`: after every run no two servers have a handler in common, and who is about to launch a
> server has a handler that no server has.
-/

namespace EmberClient.Session

variable {setup : Setup} {s s' s₁ : Session} {course course' : Nat → Phase} {task : Nat}
  {q : Question} {acts : Nat → Option Connection.Action}

/-- The handlers of the servers, in the order in which these came up. -/
def staff (s : Session) : List Nat := s.servers.map Server.handler

/-- No handler is built, and each server keeps its own. -/
structure SameStaff (s s' : Session) : Prop where
  staff : s'.staff = s.staff
  handlers : s'.handlers = s.handlers

/-! ## Steps and handlers -/

theorem staff_of_servers (servers : s'.servers = s.servers) : s'.staff = s.staff :=
  congrArg (List.map Server.handler) servers

/-- A server that is changed keeps its handler. -/
theorem staff_editServer {server : Nat} {edit : Server → Server}
    (kept : ∀ v, (edit v).handler = v.handler) : (s.editServer server edit).staff = s.staff := by
  refine List.ext_getElem? fun i => ?_
  show ((s.servers.modify server edit).map _)[i]? = (s.servers.map _)[i]?
  rw [List.getElem?_map, List.getElem?_map, List.getElem?_modify]
  cases s.servers[i]? with
  | none => rfl
  | some v =>
    show some (if server = i then edit v else v).handler = some v.handler
    split
    · rw [kept]
    · rfl

theorem sameStaff_editServer {server : Nat} {edit : Server → Server}
    (kept : ∀ v, (edit v).handler = v.handler) : SameStaff s (s.editServer server edit) :=
  ⟨staff_editServer kept, rfl⟩

/-- Nothing but the building of a handler and a launch changes who is in charge. -/
theorem sameStaff_of_replies {r : q.Reply} (h : Replies s task q r acts s₁)
    (built : q ≠ .buildHandler) (launched : ∀ handler, q ≠ .launch handler) : SameStaff s s₁ := by
  cases h with
  | launched | unlaunched => exact absurd rfl (launched _)
  | elapsed => exact sameStaff_editServer fun _ => rfl
  | terminated | typed | opened | ran => exact ⟨rfl, rfl⟩
  | own h =>
    cases q with
    | buildHandler => contradiction
    | launch | terminate | prompt | openFile | editorCommand | run =>
      exact absurd h (by simp [reply])
    | call | respond | discard | advertise =>
      obtain ⟨rfl, -⟩ := Prod.mk.inj (Option.some.inj h)
      exact sameStaff_editServer fun _ => rfl
    | notify server method params =>
      simp only [reply] at h
      split at h
      · obtain ⟨rfl, -⟩ := Prod.mk.inj (Option.some.inj h)
        exact ⟨rfl, rfl⟩
      · split at h
        · obtain ⟨rfl, -⟩ := Prod.mk.inj (Option.some.inj h)
          exact sameStaff_editServer fun _ => rfl
        · obtain ⟨rfl, -⟩ := Prod.mk.inj (Option.some.inj h)
          exact ⟨rfl, rfl⟩
    | await | awaitBriefly =>
      simp only [reply, Option.map_eq_some_iff] at h
      obtain ⟨result, -, h⟩ := h
      obtain ⟨rfl, -⟩ := Prod.mk.inj h
      exact ⟨rfl, rfl⟩
    | lock | current | setCurrent | takeCurrent | claim | closed =>
      -- these are answered where the lock, the slot or the connection allows it
      simp only [reply] at h
      repeat' split at h
      all_goals first
        | contradiction
        | (obtain ⟨rfl, -⟩ := Prod.mk.inj (Option.some.inj h); exact ⟨rfl, rfl⟩)
    | _ =>
      obtain ⟨rfl, -⟩ := Prod.mk.inj (Option.some.inj h)
      exact ⟨rfl, rfl⟩

/-- What a connection does changes no handler. -/
theorem sameStaff_acts (s : Session) (server : Nat) (c : Connection)
    (events : List Connection.Event) :
    SameStaff s (events.foldl (take server) (s.editConnection server fun _ => c)) := by
  suffices ∀ d : Session, SameStaff s d → SameStaff s (events.foldl (take server) d) from
    this _ (sameStaff_editServer fun _ => rfl)
  induction events with
  | nil => exact fun d same => same
  | cons event rest ih =>
    intro d same
    refine ih (take server d event) ?_
    cases event <;> exact ⟨same.staff, same.handlers⟩

/-- Only who has just built a handler is about to launch a server. -/
theorem step_launching {φ : Phase} {handler : Nat} {r : q.Reply}
    (step : Phase.Step setup φ q r (.launching handler)) : q = .buildHandler := by
  cases step with
  | build => rfl

/-! ## Who is in charge -/

/-- Each server has a handler of its own, and whoever is about to launch one has another. -/
structure Manned (s : Session) (course : Nat → Phase) : Prop where
  known : ∀ handler ∈ s.staff, handler < s.handlers
  own : s.staff.Nodup
  spare : ∀ task handler, course task = .launching handler →
    handler < s.handlers ∧ handler ∉ s.staff

/-- Where nobody comes to a launch, all stays as it is. -/
theorem Manned.keep (inv : Manned s course) (same : SameStaff s s')
    (idle : ∀ u handler, course' u = .launching handler → course u = .launching handler) :
    Manned s' course' := by
  refine ⟨?_, ?_, fun u handler stands => ?_⟩
  · rw [same.staff, same.handlers]
    exact inv.known
  · rw [same.staff]
    exact inv.own
  · rw [same.staff, same.handlers]
    exact inv.spare u handler (idle u handler stands)

/-- A new handler is not one of those before. -/
theorem Manned.build (inv : Manned s course) :
    Manned { s with handlers := s.handlers + 1 }
      (Function.update course task (.launching s.handlers)) := by
  refine ⟨fun handler mem => Nat.lt_succ_of_lt (inv.known handler mem), inv.own, ?_⟩
  intro u handler stands
  rcases eq_or_ne u task with rfl | other
  · rw [Function.update_self] at stands
    obtain rfl := Phase.launching.inj stands
    exact ⟨Nat.lt_succ_self _, fun mem => Nat.lt_irrefl _ (inv.known _ mem)⟩
  · rw [Function.update_of_ne other] at stands
    obtain ⟨built, spare⟩ := inv.spare u handler stands
    exact ⟨Nat.lt_succ_of_lt built, spare⟩

/-- A server that comes up has the handler that was built for it. Nobody else is about to launch
one. -/
theorem Manned.launch {handler : Nat} {φ : Phase} (inv : Manned s course)
    (locking : Locking s course) (stands : course task = .launching handler)
    (gone : ∀ h, φ ≠ .launching h) :
    Manned { s with servers := s.servers ++ [{ handler }] } (Function.update course task φ) := by
  have staff : ({ s with servers := s.servers ++ [{ handler }] } : Session).staff =
      s.staff ++ [handler] := by
    show (s.servers ++ [_]).map _ = _
    rw [List.map_append]
    rfl
  obtain ⟨built, spare⟩ := inv.spare task handler stands
  refine ⟨?_, ?_, fun u h launching => ?_⟩
  · rw [staff]
    intro h mem
    rcases List.mem_append.mp mem with before | new
    · exact inv.known h before
    · rwa [List.mem_singleton.mp new]
  · rw [staff]
    refine List.Nodup.append inv.own (List.nodup_singleton _) ?_
    exact List.disjoint_singleton.mpr spare
  · obtain ⟨other, launching⟩ := stood_of_update (gone _) launching
    exact absurd (locking.unique (by rw [launching]; rfl) (by rw [stands]; rfl)) other

theorem manned_keep {e : Option Happening} (inv : Manned s course) (locking : Locking s course)
    (move : Move s course e acts s' course') : Manned s' course' := by
  cases move with
  | @asks task t q next r acts s₁ φ here question step replies other =>
    -- setting the program of a task concerns no server
    suffices Manned s₁ (Function.update course task φ) from ⟨this.known, this.own, this.spare⟩
    by_cases built : q = .buildHandler
    · subst built
      generalize course task = ψ at step
      cases step with
      | idle h => exact absurd h (by simp [isIdle])
      | build =>
        cases replies with
        | own h =>
          obtain ⟨rfl, rfl⟩ := Prod.mk.inj (Option.some.inj h)
          exact inv.build
    have gone : ∀ h, φ ≠ .launching h := by
      rintro h rfl
      exact built (step_launching step)
    by_cases launched : ∀ handler, q ≠ .launch handler
    · exact inv.keep (sameStaff_of_replies replies built launched) fun _ _ launching =>
        (stood_of_update (gone _) launching).2
    · push Not at launched
      obtain ⟨handler, rfl⟩ := launched
      generalize stands : course task = ψ at step
      cases replies with
      | own h => contradiction
      | launched =>
        cases step with
        | idle h => exact absurd h (by simp [isIdle])
        | launched => exact inv.launch locking stands gone
      | unlaunched =>
        exact inv.keep ⟨rfl, rfl⟩ fun _ _ launching => (stood_of_update (gone _) launching).2
  | watches here question stands =>
    refine inv.keep ⟨rfl, rfl⟩ fun u h launching => ?_
    have before := (stood_of_update (by simp) launching).2
    exact (stood_of_update (by simp) before).2
  | wants => exact inv.keep ⟨rfl, rfl⟩ fun _ _ stands => stands
  | @acts server c c' act events =>
    exact inv.keep (sameStaff_acts s server c' events) fun _ _ stands => stands
  | quiet same servers queued handlers =>
    exact inv.keep ⟨staff_of_servers servers, handlers⟩ fun _ _ stands => stands

/-- After every run each server has a handler of its own. -/
theorem manned_of_run {files : FileSystem} {view : EditorView} {actions : List Action}
    (hrun : run actions { setup, files, view } = some s) :
    ∃ course, OnCourse s course ∧ Manned s course := by
  have starts : Manned { setup, files, view } fun _ => .free [] :=
    ⟨fun _ mem => absurd mem List.not_mem_nil, List.nodup_nil, fun _ _ stands => by contradiction⟩
  obtain ⟨course, on, -, -, manned⟩ := run_induct
    (P := fun _ _ s course => Standing s course ∧ Manned s course)
    ⟨standing_start setup files view, starts⟩
    (fun ⟨standing, manned⟩ on _ move =>
      ⟨standing_keep standing on move, manned_keep manned standing.locking move⟩) hrun
  exact ⟨course, on, manned⟩

end EmberClient.Session
