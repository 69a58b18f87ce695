import EmberClient.Proofs.Session.History
import Mathlib.Data.List.Induction

/-!
# Runs of a session, and of its connections

What a session does on one connection is a run of that connection (`connection_run`),
so all that is known about runs of a connection holds of every connection of a session.
`run_induct` is the induction that everything about a session rests on.
-/

namespace EmberClient.Session

/-! ## What a move does on a connection -/

/-- What an action, if there is one, does with a connection, if it is there. -/
inductive Acted : Option Connection → Option Connection.Action → Option Connection → Prop where
  | same {c : Option Connection} : Acted c none c
  | born : Acted none none (some {})
  | step {c c' : Connection} {act : Connection.Action} {events : List Connection.Event}
      (h : c.step act = some (c', events)) : Acted (some c) (some act) (some c')

theorem connection?_of_servers {s s' : Session} (servers : s'.servers = s.servers) (i : Nat) :
    s'.connection? i = s.connection? i := by
  rw [connection?, servers, connection?]

theorem connection?_editServer (s : Session) (server i : Nat) (edit : Server → Server)
    (same : ∀ v, (edit v).connection = v.connection) :
    (s.editServer server edit).connection? i = s.connection? i := by
  show ((s.servers.modify server edit)[i]?).map _ = _
  rw [List.getElem?_modify, connection?]
  cases s.servers[i]? with
  | none => rfl
  | some v =>
    show some (if server = i then edit v else v).connection = some v.connection
    split
    · rw [same]
    · rfl

/-- Editing one connection leaves the others as they were. -/
theorem connection?_editConnection (s : Session) (server i : Nat) (edit : Connection → Connection) :
    (s.editConnection server edit).connection? i =
      (s.connection? i).map fun c => if server = i then edit c else c := by
  show ((s.servers.modify server _)[i]?).map _ = _
  rw [List.getElem?_modify, connection?]
  cases s.servers[i]? with
  | none => rfl
  | some v =>
    show some (if server = i then _ else v).connection = some _
    split
    · rfl
    · rfl

/-- One action on the connection to one server. -/
theorem acted_editConnection {s : Session} {server : Nat} {edit : Connection → Connection}
    (act : Nat → Connection → Option Connection.Action) (i : Nat)
    (there : ∀ c, s.connection? server = some c →
      Acted (some c) (act server c) (some (edit c)))
    (elsewhere : ∀ c, server ≠ i → act i c = none) :
    Acted (s.connection? i) ((s.connection? i).bind (act i))
      ((s.editConnection server edit).connection? i) := by
  rw [connection?_editConnection]
  cases conn : s.connection? i with
  | none => exact .same
  | some c =>
    by_cases here : server = i
    · subst here
      simpa using there c conn
    · simp only [Option.bind_some, Option.map_some, elsewhere c here, if_neg here]
      exact .same

/-- What a question does that is none of those that act on a connection. -/
theorem acted_of_same {s s₁ : Session} {q : Question} (i : Nat)
    (same : s₁.connection? i = s.connection? i) (idle : ∀ c, clientAction c i q = none) :
    Acted (s.connection? i) ((s.connection? i).bind fun c => clientAction c i q)
      (s₁.connection? i) := by
  rw [same]
  cases s.connection? i with
  | none => exact .same
  | some c => simp only [Option.bind_some, idle]; exact .same

/-- A notification is an action on its connection, whether or not it can be queued there. -/
theorem acted_of_notify {s s₁ : Session} {task server : Nat} {method : String} {params : Json}
    {r : (Question.notify server method params).Reply}
    (h : s.reply task (.notify server method params) = some (s₁, r)) (i : Nat) :
    Acted (s.connection? i)
      ((s.connection? i).bind fun c => clientAction c i (.notify server method params))
      (s₁.connection? i) := by
  simp only [reply] at h
  split at h
  next missing =>
    obtain ⟨rfl, -⟩ := Prod.mk.inj (Option.some.inj h)
    cases conn : s.connection? i with
    | none => exact .same
    | some c =>
      have apart : server ≠ i := by
        rintro rfl
        rw [conn] at missing
        exact absurd missing (by simp)
      simp only [Option.bind_some, clientAction, if_neg apart]
      exact .same
  next c conn =>
    have only : ∀ d, s.connection? server = some d → d = c := by
      intro d hd
      rw [conn] at hd
      exact (Option.some.inj hd).symm
    split at h
    next c' sent =>
      obtain ⟨rfl, -⟩ := Prod.mk.inj (Option.some.inj h)
      refine acted_editConnection (fun j c => clientAction c j _) i ?_ ?_
      · intro d hd
        obtain rfl := only d hd
        simp only [clientAction, if_true]
        have hstep : d.step (.notify method params) = some (c', []) := by
          simp only [Connection.step, sent]
        exact .step hstep
      · intro d apart
        simp only [clientAction, if_neg apart]
    next fault unsent =>
      -- the connection takes the step, and stays as it was
      obtain ⟨rfl, -⟩ := Prod.mk.inj (Option.some.inj h)
      cases here : s.connection? i with
      | none => exact .same
      | some d =>
        simp only [Option.bind_some, clientAction]
        split
        next same =>
          subst same
          obtain rfl := only d here
          have hstep : d.step (.notify method params) = some (d, []) := by
            simp only [Connection.step, unsent]
          exact .step hstep
        next => exact .same

/-- A reply acts on a connection as its client would, or not at all. -/
theorem acted_of_reply {s s₁ : Session} {task : Nat} {q : Question} {r : q.Reply}
    (h : s.reply task q = some (s₁, r)) (i : Nat) :
    Acted (s.connection? i) ((s.connection? i).bind fun c => clientAction c i q)
      (s₁.connection? i) := by
  -- only what speaks on a connection is a step of it; what is noted about a server is none
  cases q with
  | call server method params =>
    obtain ⟨rfl, -⟩ := Prod.mk.inj (Option.some.inj h)
    refine acted_editConnection (fun j c => clientAction c j _) i ?_ ?_
    · intro c conn
      simp only [clientAction, if_true]
      exact .step rfl
    · intro c apart
      simp only [clientAction, if_neg apart]
  | respond server place outcome =>
    obtain ⟨rfl, -⟩ := Prod.mk.inj (Option.some.inj h)
    refine acted_editConnection (fun j c => clientAction c j _) i ?_ ?_
    · intro c conn
      cases answered : c.answer place outcome with
      | none =>
        simp only [clientAction, answered]
        exact .same
      | some c' =>
        simp only [clientAction, answered]
        have hstep : c.step (.answer place outcome) = some (c', []) := by
          simp only [Connection.step, answered, Option.map_some]
        exact .step hstep
    · intro c apart
      simp only [clientAction, apart, false_and, if_false]
  | notify server method params => exact acted_of_notify h i
  | discard server =>
    obtain ⟨rfl, -⟩ := Prod.mk.inj (Option.some.inj h)
    exact acted_of_same i (connection?_editServer s server i _ fun _ => rfl) fun _ => rfl
  | advertise server commands =>
    obtain ⟨rfl, -⟩ := Prod.mk.inj (Option.some.inj h)
    exact acted_of_same i (connection?_editServer s server i _ fun _ => rfl) fun _ => rfl
  | _ => exact acted_of_same i (connection?_of_servers ((reply_frame h).servers rfl) i) fun _ => rfl

/-- The same holds of replies as the relation of them has it. -/
theorem acted_of_replies {s s₁ : Session} {task : Nat} {q : Question} {r : q.Reply}
    {acts : Nat → Option Connection.Action} (h : Replies s task q r acts s₁) (i : Nat) :
    Acted (s.connection? i) (acts i) (s₁.connection? i) := by
  cases h with
  | own h => exact acted_of_reply h i
  | @launched handler =>
    show Acted (s.connection? i) none
      (((s.servers ++ [({ handler } : Server)])[i]?).map Server.connection)
    rw [List.getElem?_append]
    split
    next => exact .same
    -- the new server has the last number, where there was no connection
    next beyond =>
      have missing : s.connection? i = none := by
        rw [connection?, List.getElem?_eq_none (Nat.le_of_not_lt beyond)]
        rfl
      rw [missing]
      cases new : ([({ handler } : Server)][i - s.servers.length]?) with
      | none => exact .same
      | some v =>
        obtain rfl := List.mem_singleton.mp (List.mem_of_getElem? new)
        exact .born
  | @elapsed server place c c' events conn hstep =>
    refine acted_editConnection (fun j _ => giveUp j (.awaitBriefly server place)) i ?_ ?_
    · intro d hd
      rw [conn] at hd
      obtain rfl := Option.some.inj hd
      simp only [giveUp, if_true]
      exact .step hstep
    · intro d apart
      simp only [giveUp, if_neg apart]
  | _ => exact .same

/-- The reader's news leave the connections alone. -/
theorem servers_takes (server : Nat) (events : List Connection.Event) (s : Session) :
    (events.foldl (take server) s).servers = s.servers := by
  induction events generalizing s with
  | nil => rfl
  | cons event rest ih =>
    rw [List.foldl_cons, ih]
    cases event <;> rfl

/-- A move does on each connection what it says. -/
theorem Move.acted {s s' : Session} {course course' : Nat → Phase} {e : Option Happening}
    {acts : Nat → Option Connection.Action} (move : Move s course e acts s' course') (i : Nat) :
    Acted (s.connection? i) (acts i) (s'.connection? i) := by
  cases move with
  | @asks task t q next r acts s₁ φ here question step replies other =>
    have servers : (s₁.setProgram task (next r)).servers = s₁.servers := rfl
    rw [connection?_of_servers servers]
    exact acted_of_replies replies i
  | watches here question stands =>
    rw [connection?_of_servers (s := s) rfl]
    exact .same
  | wants here question new =>
    rw [connection?_of_servers (s := s) rfl]
    exact .same
  | @acts server c c' act events conn spontaneous hstep =>
    rw [connection?_of_servers (servers_takes server events _)]
    refine acted_editConnection (fun j _ => if server = j then some act else none) i ?_ ?_
    · intro d hd
      rw [conn] at hd
      obtain rfl := Option.some.inj hd
      simp only [if_true]
      exact .step hstep
    · intro d apart
      simp only [if_neg apart]
  | quiet same servers queued =>
    rw [connection?_of_servers servers]
    exact .same

/-! ## Runs in two parts -/

/-- A run that ends with an action is a run to the state where that action is possible. -/
theorem run_snoc {actions : List Action} {a : Action} {s s' : Session}
    (h : run (actions ++ [a]) s = some s') : ∃ d, run actions s = some d ∧ d.step a = some s' := by
  induction actions generalizing s with
  | nil =>
    obtain ⟨d, hstep, hrun⟩ := Option.bind_eq_some_iff.mp h
    obtain rfl := Option.some.inj hrun
    exact ⟨s, rfl, hstep⟩
  | cons b rest ih =>
    obtain ⟨d, hstep, hrun⟩ := Option.bind_eq_some_iff.mp h
    obtain ⟨d', hrest, hlast⟩ := ih hrun
    exact ⟨d', Option.bind_eq_some_iff.mpr ⟨d, hstep, hrest⟩, hlast⟩

/-- What the actions of a run leave behind, in order, where `leaves` says what one leaves. -/
def gathered {β : Type} (leaves : Session → Action → List β) : List Action → Session → List β
  | [], _ => []
  | a :: rest, s =>
    match s.step a with
    | some s' => leaves s a ++ gathered leaves rest s'
    | none => []

section Gathered

variable {β : Type} {leaves : Session → Action → List β} {before after : List Action}
  {start s d s' : Session} {a : Action}

/-- What two runs in a row leave is what the first leaves and then what the second does. -/
theorem gathered_append (hrun : run before start = some d) :
    gathered leaves (before ++ after) start =
      gathered leaves before start ++ gathered leaves after d := by
  induction before generalizing start with
  | nil =>
    obtain rfl := Option.some.inj hrun
    rfl
  | cons b before ih =>
    obtain ⟨d', first, rest⟩ := Option.bind_eq_some_iff.mp hrun
    simp only [List.cons_append, gathered, first, ih rest, List.append_assoc]

/-- The last action leaves its part behind everything else. -/
theorem gathered_snoc (hrun : run before start = some d) (hstep : d.step a = some s') :
    gathered leaves (before ++ [a]) start = gathered leaves before start ++ leaves d a := by
  rw [gathered_append hrun]
  simp only [gathered, hstep, List.append_nil]

/-- Whatever is read off a run action by action is gathered. -/
theorem eq_gathered {g : List Action → Session → List β} (nothing : ∀ s, g [] s = [])
    (first : ∀ a rest s, g (a :: rest) s =
      match s.step a with
      | some s' => leaves s a ++ g rest s'
      | none => []) : g = gathered leaves := by
  funext actions s
  induction actions generalizing s with
  | nil => exact nothing s
  | cons a rest ih => simp only [first, gathered, ih]

/-- What is gathered was left at some moment, if an action leaves one thing at most. -/
theorem moment_of_gathered {x : β} {past future : List β}
    (single : ∀ s a, (leaves s a).length ≤ 1) (hrun : run before start = some s)
    (split : gathered leaves before start = past ++ x :: future) :
    ∃ earlier a later d d', before = earlier ++ a :: later ∧ run earlier start = some d ∧
      d.step a = some d' ∧ leaves d a = [x] ∧ gathered leaves earlier start = past := by
  -- by the last action: the element is its own, or was gathered before
  induction before using List.reverseRecOn generalizing s future with
  | nil => exact absurd split (by simp [gathered])
  | append_singleton before a ih =>
    obtain ⟨d, hbefore, hstep⟩ := run_snoc hrun
    rw [gathered_snoc hbefore hstep] at split
    have sooner : ∀ future, gathered leaves before start = past ++ x :: future →
        ∃ earlier a' later d d', before ++ [a] = earlier ++ a' :: later ∧
          run earlier start = some d ∧ d.step a' = some d' ∧ leaves d a' = [x] ∧
            gathered leaves earlier start = past := by
      intro future split
      obtain ⟨earlier, a', later, d, d', rfl, moment⟩ := ih hbefore split
      exact ⟨earlier, a', later ++ [a], d, d', by simp, moment⟩
    rcases Nat.le_one_iff_eq_zero_or_eq_one.mp (single d a) with none | one
    · rw [List.length_eq_zero_iff.mp none, List.append_nil] at split
      exact sooner future split
    · obtain ⟨y, one⟩ := List.length_eq_one_iff.mp one
      rw [one] at split
      rcases snoc_eq_append_cons split with ⟨rfl, rfl, -⟩ | ⟨rest, -, split⟩
      · exact ⟨before, a, [], d, s, rfl, hbefore, hstep, one, rfl⟩
      · exact sooner rest split

end Gathered

theorem history_eq : history = gathered fun s a => (s.happening a).toList :=
  eq_gathered (fun _ => rfl) fun _ _ _ => rfl

/-- A longer run has the history of the shorter one, and what its last action made happen. -/
theorem history_snoc {actions : List Action} {a : Action} {s d s' : Session}
    (hrun : run actions s = some d) (hstep : d.step a = some s') :
    history (actions ++ [a]) s = history actions s ++ (d.happening a).toList := by
  rw [history_eq]
  exact gathered_snoc hrun hstep

theorem actionsOn_eq (server : Nat) :
    actionsOn server = gathered fun s a => (s.actionOn server a).toList :=
  eq_gathered (fun _ => rfl) fun _ _ _ => rfl

/-- The same holds for the actions on one connection. -/
theorem actionsOn_snoc {actions : List Action} {a : Action} {s d s' : Session} (server : Nat)
    (hrun : run actions s = some d) (hstep : d.step a = some s') :
    actionsOn server (actions ++ [a]) s = actionsOn server actions s ++ (d.actionOn server a).toList := by
  rw [actionsOn_eq]
  exact gathered_snoc hrun hstep

/-! ## Connections -/

/-- What happened on the connection to a server in a sequence of actions. -/
def connectionHistory (server : Nat) (actions : List Action) (s : Session) :
    List Connection.Happening :=
  Connection.history (actionsOn server actions s) {}

/-- What happens on a connection in an action. -/
def connectionHappening (c : Option Connection) (act : Option Connection.Action) :
    Option Connection.Happening :=
  c.bind fun c => act.bind c.happening

theorem connectionHappening_some (c : Connection) (act : Connection.Action) :
    connectionHappening (some c) (some act) = c.happening act := rfl

/-- The actions so far on the connection to each server lead to where it is. -/
def Traced (trace : Nat → List Connection.Action) (s : Session) : Prop :=
  ∀ server, (s.connection? server = none → trace server = []) ∧
    ∀ c, s.connection? server = some c → Connection.run (trace server) {} = some c

/-- A step of the session extends the trace of each connection by at most one action. -/
theorem Traced.step {trace : Nat → List Connection.Action} {s s' : Session}
    {acts : Nat → Option Connection.Action} (traced : Traced trace s)
    (acted : ∀ i, Acted (s.connection? i) (acts i) (s'.connection? i)) :
    Traced (fun i => trace i ++ (acts i).toList) s' := by
  intro i
  obtain ⟨absent, present⟩ := traced i
  have one := acted i
  show (_ → trace i ++ (acts i).toList = []) ∧ ∀ c, _ → Connection.run (trace i ++ (acts i).toList) {} = _
  generalize s.connection? i = before at one absent present
  generalize s'.connection? i = after at one ⊢
  generalize acts i = act at one ⊢
  -- the trace of a connection grows just when it takes a step
  cases one with
  | same =>
    simp only [Option.toList_none, List.append_nil]
    exact ⟨absent, present⟩
  | born =>
    refine ⟨fun h => absurd h (by simp), ?_⟩
    intro c hc
    obtain rfl := Option.some.inj hc
    rw [absent rfl]
    rfl
  | @step c c' act events hstep =>
    refine ⟨fun h => absurd h (by simp), ?_⟩
    intro d hd
    obtain rfl := Option.some.inj hd
    rw [Connection.run_append (present c rfl)]
    simp only [Option.toList_some, Connection.run, hstep, Option.bind_some]

/-- What has happened on a connection grows by what happens on it. -/
theorem Traced.history_snoc {trace : Nat → List Connection.Action} {s s' : Session}
    {acts : Nat → Option Connection.Action} (traced : Traced trace s)
    (acted : ∀ i, Acted (s.connection? i) (acts i) (s'.connection? i)) (i : Nat) :
    Connection.history (trace i ++ (acts i).toList) {} =
      Connection.history (trace i) {} ++ (connectionHappening (s.connection? i) (acts i)).toList := by
  obtain ⟨absent, present⟩ := traced i
  have one := acted i
  generalize s.connection? i = before at one absent present
  generalize s'.connection? i = after at one
  generalize acts i = act at one ⊢
  cases one with
  | same =>
    cases before <;> simp [connectionHappening]
  | born => simp [connectionHappening]
  | @step c c' act events hstep =>
    rw [Connection.history_append (present c rfl)]
    simp only [Option.toList_some, Connection.history, hstep, List.append_nil, connectionHappening,
      Option.bind_some]

/-! ## Induction -/

/-- What happened on each connection is the history of a run that leads to where it is. -/
def Recorded (on : Nat → List Connection.Happening) (s : Session) : Prop :=
  ∀ server, (s.connection? server = none → on server = []) ∧
    ∀ c, s.connection? server = some c →
      ∃ actions, Connection.run actions {} = some c ∧ on server = Connection.history actions {}

/-- What was traced can be told as a history. -/
theorem Traced.recorded {trace : Nat → List Connection.Action} {s : Session}
    (traced : Traced trace s) : Recorded (fun i => Connection.history (trace i) {}) s := by
  intro server
  obtain ⟨absent, present⟩ := traced server
  refine ⟨?_, fun c conn => ⟨trace server, present c conn, rfl⟩⟩
  intro missing
  show Connection.history (trace server) {} = []
  rw [absent missing]
  rfl

/-- What holds at the beginning of a session and is kept by every move holds after every
run. It may speak of what happened so far, in the session and on each connection. -/
theorem run_induct
    {P : List Happening → (Nat → List Connection.Happening) → Session → (Nat → Phase) → Prop}
    {setup : Setup} {files : FileSystem} {view : EditorView}
    (start : P [] (fun _ => []) { setup, files, view } fun _ => .free [])
    (keep : ∀ {h : List Happening} {on : Nat → List Connection.Happening} {s s' : Session}
      {course course' : Nat → Phase} {e : Option Happening}
      {acts : Nat → Option Connection.Action}, P h on s course → OnCourse s course →
      Recorded on s → Move s course e acts s' course' →
      P (h ++ e.toList)
        (fun i => on i ++ (connectionHappening (s.connection? i) (acts i)).toList) s' course')
    {actions : List Action} {s : Session} (hrun : run actions { setup, files, view } = some s) :
    ∃ course, OnCourse s course ∧
      Traced (fun i => actionsOn i actions { setup, files, view }) s ∧
      P (history actions { setup, files, view })
        (fun i => connectionHistory i actions { setup, files, view }) s course := by
  -- by the last action, since histories grow at their ends
  induction actions using List.reverseRecOn generalizing s with
  | nil =>
    obtain rfl := Option.some.inj hrun
    refine ⟨fun _ => .free [], ⟨?_, fun _ _ => rfl⟩, ?_, start⟩
    · exact fun task t here => absurd here (by simp)
    · exact fun server => ⟨fun _ => rfl, fun c hc => absurd hc (by simp [connection?])⟩
  | append_singleton actions a ih =>
    obtain ⟨d, hinit, hstep⟩ := run_snoc hrun
    obtain ⟨course, on, traced, inv⟩ := ih hinit
    obtain ⟨course', move, on'⟩ := move_of_step on hstep
    have next := keep inv on traced.recorded move
    have grown : (fun i => actionsOn i (actions ++ [a]) { setup, files, view }) =
        fun i => actionsOn i actions { setup, files, view } ++ (d.actionOn i a).toList :=
      funext fun i => actionsOn_snoc i hinit hstep
    refine ⟨course', on', ?_, ?_⟩
    · rw [grown]
      exact traced.step move.acted
    · rw [history_snoc hinit hstep]
      have trail : (fun i => connectionHistory i (actions ++ [a]) { setup, files, view }) =
          fun i => connectionHistory i actions { setup, files, view } ++
            (connectionHappening (d.connection? i) (d.actionOn i a)).toList := by
        funext i
        rw [connectionHistory, actionsOn_snoc i hinit hstep]
        exact traced.history_snoc move.acted i
      rw [trail]
      exact next

/-- After every run the tasks are on courses, and what was done on each connection leads to
where it is. -/
theorem traced_of_run {setup : Setup} {files : FileSystem} {view : EditorView}
    {actions : List Action} {s : Session} (hrun : run actions { setup, files, view } = some s) :
    (∃ course, OnCourse s course) ∧ Traced (fun i => actionsOn i actions { setup, files, view }) s := by
  obtain ⟨course, on, traced, -⟩ :=
    run_induct (P := fun _ _ _ _ => True) trivial (fun _ _ _ _ => trivial) hrun
  exact ⟨⟨course, on⟩, traced⟩

/-- **Each connection of a session is in a run of its own.** -/
theorem connection_run {setup : Setup} {files : FileSystem} {view : EditorView}
    {actions : List Action} {s : Session} (hrun : run actions { setup, files, view } = some s)
    {server : Nat} {c : Connection} (conn : s.connection? server = some c) :
    Connection.run (actionsOn server actions { setup, files, view }) {} = some c :=
  ((traced_of_run hrun).2 server).2 c conn

/-! ## A server that comes up -/

/-- No root, and a server that needs no arguments. -/
def bareSetup : Setup where
  settings := ⟨false, ⟨"els", [], "editor", ⟨false, 0⟩⟩⟩
  root := ""
  processId := 1

/-- A server is brought up and answers the first request. -/
def served : List Action :=
  [.begin .start] ++ List.replicate 7 (.advance 0) ++ [.launched 0 (.ok ()), .advance 0] ++
    List.replicate 4 (.connection 0 (.advance 0)) ++
    [.connection 0
      (.receive (Frame.encode (.response (.ofNat 1) (.ok (.obj [("capabilities", .obj [])]))))),
      .connection 0 .read, .connection 0 (.advance 0)]

/-- The server that a task waits for comes up and answers the first request. -/
def comesUp (task server : Nat) : List Action :=
  List.flatten [[.launched task (.ok ()), .advance task],
    List.replicate 4 (.connection server (.advance 0)),
    [.connection server
      (.receive (Frame.encode (.response (.ofNat 1) (.ok (.obj [("capabilities", .obj [])]))))),
      .connection server .read, .connection server (.advance 0)]]

end EmberClient.Session
