import EmberClient.Proofs.Connection.Requests
import EmberClient.Proofs.Session.Handshake
import EmberClient.Proofs.Session.Own

/-!
# Calls have places of their own

A call is named by its server and its place there. The places are given out in order, so
no two calls to a server share one (`Placed`), and what a caller at a place asks for is
what its call was begun with. What a task is told for a result is what the caller at that
place came to on that connection (`resolved_of_dialogue`). Together with what each program
waits for, its own calls only, this ties every result to one call on one connection:

> `Ran`: a command that was run on a server came to its own answer there, or the
> conversation is over.
-/

namespace EmberClient.Session

variable {setup : Setup} {files : FileSystem} {view : EditorView} {actions : List Action}
  {s d s' : Session} {a : Action}

/-! ## Steps at the end of a run -/

/-- Each step acts on each connection as the session's action on it says. -/
theorem acted_of_step (hrun : run actions { setup, files, view } = some d)
    (hstep : d.step a = some s') (i : Nat) :
    Acted (d.connection? i) (d.actionOn i a) (s'.connection? i) := by
  obtain ⟨⟨course, on⟩, -⟩ := traced_of_run hrun
  obtain ⟨course', move, -⟩ := move_of_step on hstep
  exact move.acted i

/-- A longer run adds to a connection's history what its last action made happen. -/
theorem connectionHistory_snoc (hrun : run actions { setup, files, view } = some d)
    (hstep : d.step a = some s') (i : Nat) :
    connectionHistory i (actions ++ [a]) { setup, files, view } =
      connectionHistory i actions { setup, files, view } ++
        (connectionHappening (d.connection? i) (d.actionOn i a)).toList := by
  rw [connectionHistory, actionsOn_snoc i hrun hstep]
  exact (traced_of_run hrun).2.history_snoc (acted_of_step hrun hstep) i

/-! ## What is told from what is shared -/

theorem told?_of_mem {task : Nat} {e : Exchange} (mem : e ∈ s.told task a) :
    s.told? a = some (task, e) := by
  simp only [told, List.mem_map, Option.mem_toList, Option.filter_eq_some_iff,
    decide_eq_true_eq] at mem
  obtain ⟨⟨listener, e'⟩, ⟨heard, rfl⟩, rfl⟩ := mem
  exact heard

/-- Questions that are answered from outside. -/
def isOutward : Question → Bool
  | .launch _ | .terminate _ | .prompt _ | .openFile _ | .editorCommand .. => true
  | _ => false

/-- A question to nobody outside is replied when the task takes its step, or the grace of a
shutdown has run out. -/
theorem reply_of_told {task : Nat} {q : Question} {r : q.Reply} (hstep : s.step a = some s')
    (heard : s.told? a = some (task, ⟨q, r⟩)) (inside : isOutward q = false)
    (patient : ∀ server place, q ≠ .awaitBriefly server place) :
    a = .advance task ∧ s.question? task = some q ∧
      ∃ s₁ program, s.reply task q = some (s₁, r) ∧ s' = s₁.setProgram task program := by
  obtain ⟨asked, s₁, program, goes, ⟨own, replied⟩ | brings⟩ := heard_of_step hstep heard
  · exact ⟨own, asked, s₁, program, replied, goes⟩
  · cases brings with
    | elapsed => exact absurd rfl (patient _ _)
    | _ => contradiction

/-- What is kept of a dialogue holds of all that is told in it. -/
theorem dialogue_induct {P : List Action → Exchange → Prop} {task : Nat}
    (hrun : run actions { setup, files, view } = some s)
    (new : ∀ {actions a d s' e}, run actions { setup, files, view } = some d →
      d.step a = some s' → d.told? a = some (task, e) → P (actions ++ [a]) e)
    (old : ∀ {actions a d s' e}, run actions { setup, files, view } = some d →
      d.step a = some s' → P actions e → P (actions ++ [a]) e)
    {e : Exchange} (mem : e ∈ dialogue task actions { setup, files, view }) : P actions e := by
  -- by the last action: it tells the task something new, or all of it was told before
  induction actions using List.reverseRecOn generalizing s with
  | nil => exact absurd mem List.not_mem_nil
  | append_singleton actions a ih =>
    obtain ⟨d, before, hstep⟩ := run_snoc hrun
    rw [dialogue_snoc task before hstep] at mem
    rcases List.mem_append.mp mem with earlier | now
    · exact old before hstep (ih before earlier)
    · exact new before hstep (told?_of_mem now)

/-- A call that a task was told the place of was made by it. -/
theorem called_of_dialogue (hrun : run actions { setup, files, view } = some s)
    {task server place : Nat} {method : String} {params : Json}
    (mem : ⟨.call server method params, place⟩ ∈ dialogue task actions { setup, files, view }) :
    ∃ inTransition, .called task server place method params inTransition ∈
      history actions { setup, files, view } := by
  refine dialogue_induct (P := fun actions e => e = ⟨.call server method params, place⟩ →
    ∃ inTransition, .called task server place method params inTransition ∈
      history actions { setup, files, view }) hrun ?_ ?_ mem rfl
  · rintro actions a d s' _ before hstep heard rfl
    obtain ⟨rfl, asked, s₁, -, replied, -⟩ := reply_of_told hstep heard rfl (by simp)
    obtain ⟨-, rfl⟩ := Prod.mk.inj (Option.some.inj replied)
    refine ⟨d.lock.head? = some task, ?_⟩
    rw [history_snoc before hstep]
    refine List.mem_append_right _ (Option.mem_toList.mpr ?_)
    simp only [happening, asked, noted, nextPlace]
  · rintro actions a d s' e before hstep ih rfl
    obtain ⟨inTransition, called⟩ := ih rfl
    refine ⟨inTransition, ?_⟩
    rw [history_snoc before hstep]
    exact List.mem_append_left _ called

/-- The result that a task is told is what the caller came to on that connection. -/
theorem resolved_of_dialogue (hrun : run actions { setup, files, view } = some s)
    {task server place : Nat} {result : Except Fault Json}
    (mem : ⟨.await server place, result⟩ ∈ dialogue task actions { setup, files, view }) :
    .resolved place result ∈ connectionHistory server actions { setup, files, view } := by
  refine dialogue_induct (P := fun actions e => e = ⟨.await server place, result⟩ →
    .resolved place result ∈ connectionHistory server actions { setup, files, view }) hrun ?_ ?_
    mem rfl
  · rintro actions a d s' _ before hstep heard rfl
    obtain ⟨rfl, asked, s₁, -, replied, -⟩ := reply_of_told hstep heard rfl (by simp)
    obtain ⟨⟨c, conn, done⟩, -⟩ := replies_await (.own replied)
    rw [connectionHistory_snoc before hstep]
    have looks := Connection.looks_of_run (connection_run before conn)
    refine List.mem_append_left _ (looks.finished place result ?_)
    unfold Connection.result? at done
    split at done
    · next result' stands =>
      obtain rfl := Option.some.inj done
      exact stands
    · contradiction
  · rintro actions a d s' e before hstep ih rfl
    rw [connectionHistory_snoc before hstep]
    exact List.mem_append_left _ (ih rfl)

/-! ## Places -/

/-- A call to a server. -/
structure Call where
  place : Nat
  method : String
  params : Json

/-- The call to this server that is begun when this happens. -/
def callTo? (i : Nat) : Happening → Option Call
  | .called _ server place method params _ =>
    if server = i then some ⟨place, method, params⟩ else none
  | _ => none

/-- The calls to a server, in order. -/
def callsTo (i : Nat) (h : List Happening) : List Call := h.filterMap (callTo? i)

/-- What happens next adds at most one call to a server. -/
theorem callsTo_append (i : Nat) (h : List Happening) (e : Option Happening) :
    callsTo i (h ++ e.toList) = callsTo i h ++ (e.bind (callTo? i)).toList :=
  filterMap_append_toList (callTo? i) h e

/-- The calls to a server stand at its places in order, and each caller asks for what its
call was begun with. -/
structure Placed (calls : List Call) (h : List Connection.Happening) (s : Session) (i : Nat) :
    Prop where
  absent : s.connection? i = none → calls = []
  places : ∀ c, s.connection? i = some c → calls.map Call.place = List.range c.callers.length
  carried : ∀ call ∈ calls, ∀ c, s.connection? i = some c →
    Connection.Carries h c call.place call.method call.params

/-- Nobody begins a call to this server. -/
theorem Placed.rest {calls : List Call} {h : List Connection.Happening} {i : Nat}
    {act : Option Connection.Action} (inv : Placed calls h s i)
    (acted : Acted (s.connection? i) act (s'.connection? i))
    (silent : ∀ method params, act ≠ some (.call method params)) :
    Placed calls (h ++ (connectionHappening (s.connection? i) act).toList) s' i := by
  obtain ⟨absent, places, carried⟩ := inv
  generalize s.connection? i = before at acted absent places carried
  generalize after : s'.connection? i = now at acted
  -- the connection stays, comes up, or takes a step that is no call
  cases acted with
  | same =>
    have still : connectionHappening before none = none := by cases before <;> rfl
    rw [still, Option.toList_none, List.append_nil]
    exact ⟨fun gone => absent (after ▸ gone), fun c conn => places c (after ▸ conn),
      fun call mem c conn => carried call mem c (after ▸ conn)⟩
  | born =>
    obtain rfl := absent rfl
    refine ⟨fun _ => rfl, fun c conn => ?_, fun call mem => absurd mem List.not_mem_nil⟩
    obtain rfl := Option.some.inj (after.symm.trans conn)
    rfl
  | @step c c' act events hstep =>
    have only : ∀ e, s'.connection? i = some e → e = c' :=
      fun e conn => (Option.some.inj (after.symm.trans conn)).symm
    have move := Connection.move_of_step hstep
    refine ⟨fun gone => absurd (after.symm.trans gone) (by simp), fun e conn => ?_,
      fun call mem e conn => ?_⟩
    · rw [only e conn, places c rfl, Connection.callers_of_step hstep]
      exact fun method params same => silent method params (congrArg some same)
    · rw [only e conn]
      exact (carried call mem c rfl).keep move

/-- A call takes the next place. -/
theorem Placed.begin {calls : List Call} {h : List Connection.Happening} {i : Nat}
    {c : Connection} {method : String} {params : Json} (inv : Placed calls h s i)
    (conn : s.connection? i = some c)
    (acted : Acted (some c) (some (.call method params)) (s'.connection? i))
    (unrequested : ∀ m, .requested c.callers.length m ∉ h) :
    Placed (calls ++ [⟨c.callers.length, method, params⟩]) h s' i := by
  generalize after : s'.connection? i = now at acted
  cases acted with
  | @step _ c' _ events hstep =>
    have only : ∀ e, s'.connection? i = some e → e = c' :=
      fun e conn => (Option.some.inj (after.symm.trans conn)).symm
    refine ⟨fun gone => absurd (after.symm.trans gone) (by simp), fun e conn' => ?_,
      fun call mem e conn' => ?_⟩
    · obtain ⟨grown, -⟩ := Prod.mk.inj (Option.some.inj hstep)
      rw [only e conn', List.map_append, inv.places c conn, ← grown]
      simp [List.range_succ]
    · rw [only e conn']
      rcases List.mem_append.mp mem with before | new
      · have kept := (inv.carried call before c conn).keep (Connection.move_of_step hstep)
        rwa [show c.happening (.call method params) = none from rfl, Option.toList_none,
          List.append_nil] at kept
      · obtain rfl := List.mem_singleton.mp new
        exact Connection.carries_of_call unrequested hstep

/-- A call is noted with the place that it takes. -/
theorem called_of_noted {task i : Nat} {c : Connection} {method : String} {params : Json}
    (conn : s.connection? i = some c) :
    (s.noted task (.call i method params)).bind (callTo? i) =
      some ⟨c.callers.length, method, params⟩ := by
  simp only [Session.noted, Option.bind_some, callTo?, if_true, nextPlace, conn, Option.map_some,
    Option.getD_some]

/-- What is no call to this server is not noted as one. -/
theorem uncalled_of_noted {task i : Nat} {q : Question}
    (other : ∀ method params, q ≠ .call i method params) :
    (s.noted task q).bind (callTo? i) = none := by
  cases q with
  | call server method params =>
    have apart : server ≠ i := fun same => other method params (by rw [same])
    simp only [Session.noted, Option.bind_some, callTo?, if_neg apart]
  | setCurrent | takeCurrent | vacate | terminate =>
    simp only [Session.noted]
    cases s.slot <;> rfl
  | _ => rfl

/-- Only a call to a server places one there. -/
theorem uncalled_of_replies {s₁ : Session} {task i : Nat} {q : Question} {r : q.Reply}
    {acts : Nat → Option Connection.Action} (replies : Replies s task q r acts s₁)
    (other : ∀ method params, q ≠ .call i method params) (method : String) (params : Json) :
    acts i ≠ some (.call method params) := by
  intro act
  by_cases speaks : speaksTo q = some i
  · cases q with
    | call server method' params' =>
      obtain rfl := Option.some.inj speaks
      exact other _ _ rfl
    | notify server method' params' =>
      obtain rfl := Option.some.inj speaks
      cases replies with
      | own replied =>
        obtain ⟨c, conn, act⟩ := Option.bind_eq_some_iff.mp act
        simp only [clientAction, if_true] at act
        exact absurd (Option.some.inj act) (by simp)
    | _ => exact absurd speaks (by simp [speaksTo])
  · exact absurd (reticent_of_replies replies speaks _ act) (by simp [Connection.isReticent])

/-- Every move keeps the calls to a server at its places, in order. -/
theorem placed_keep {h : List Happening} {on : Nat → List Connection.Happening}
    {course course' : Nat → Phase} {e : Option Happening}
    {acts : Nat → Option Connection.Action} {i : Nat} (inv : Placed (callsTo i h) (on i) s i)
    (standing : Standing s course) (recorded : Recorded on s)
    (move : Move s course e acts s' course') :
    Placed (callsTo i (h ++ e.toList))
      (on i ++ (connectionHappening (s.connection? i) (acts i)).toList) s' i := by
  have acted := move.acted i
  rw [callsTo_append]
  have rest : e.bind (callTo? i) = none → (∀ method params, acts i ≠ some (.call method params)) →
      Placed (callsTo i h ++ (e.bind (callTo? i)).toList)
        (on i ++ (connectionHappening (s.connection? i) (acts i)).toList) s' i := by
    intro unnoted silent
    rw [unnoted, Option.toList_none, List.append_nil]
    exact inv.rest acted silent
  -- a call to this server is the one thing that comes to a place here; `rest` is all else
  cases move with
  | @asks task t q next r acts s₁ φ here question step replies other =>
    by_cases calls : ∃ method params, q = .call i method params
    · obtain ⟨method, params, rfl⟩ := calls
      obtain ⟨c, conn⟩ := standing.knowing.mentioned task i (mem_mentions_of_speaks step rfl)
      obtain ⟨act, rfl⟩ := replies_call replies conn
      have silent : connectionHappening (s.connection? i) (acts i) = none := by
        rw [act, conn]
        rfl
      rw [called_of_noted conn, silent, Option.toList_none, List.append_nil]
      rw [act, conn] at acted
      exact inv.begin conn acted fun m => unrequested_of_recorded recorded c m conn
    · have apart : ∀ method params, q ≠ .call i method params :=
        fun method params same => calls ⟨method, params, same⟩
      exact rest (uncalled_of_noted apart) (uncalled_of_replies replies apart)
  | @acts server c c' act events conn spontaneous hstep =>
    refine rest rfl ?_
    intro method params same
    obtain ⟨c, -, same⟩ := Option.bind_eq_some_iff.mp same
    obtain ⟨-, same⟩ := Option.ite_none_right_eq_some.mp same
    obtain rfl := Option.some.inj same
    exact absurd spontaneous (by simp [isSpontaneous])
  | watches | wants | quiet => exact rest rfl (by simp)

theorem placed_of_run (hrun : run actions { setup, files, view } = some s) (i : Nat) :
    Placed (callsTo i (history actions { setup, files, view }))
      (connectionHistory i actions { setup, files, view }) s i := by
  obtain ⟨-, -, -, -, placed⟩ := run_induct
    (P := fun h on s course => Standing s course ∧ ∀ i, Placed (callsTo i h) (on i) s i)
    ⟨standing_start setup files view, fun i => ⟨fun _ => rfl, fun c conn => absurd conn
      (by simp [connection?]), fun call mem => absurd mem List.not_mem_nil⟩⟩
    (fun inv onCourse recorded move => ⟨standing_keep inv.1 onCourse move,
      fun i => placed_keep (inv.2 i) inv.1 recorded move⟩) hrun
  exact placed i

/-- No two calls to a server have the same place. -/
theorem Placed.nodup {calls : List Call} {h : List Connection.Happening} {i : Nat}
    (inv : Placed calls h s i) : (calls.map Call.place).Nodup := by
  cases conn : s.connection? i with
  | none =>
    rw [inv.absent conn]
    exact List.nodup_nil
  | some c =>
    rw [inv.places c conn]
    exact List.nodup_range

/-! ## Running a command on a server -/

variable {said : List Exchange} {outcome : Except Fault Json} {name : String}
  {arguments : List Json}

/-- A request is the call and the wait for its answer. -/
theorem Gives.request {server : Nat} {method : String} {params : Json}
    (comes : Gives setup (request server method params) said outcome) :
    ∃ place, said = [⟨.call server method params, place⟩, ⟨.await server place, outcome⟩] := by
  obtain ⟨place, rest, rfl, goes⟩ := comes.of_ask rfl
  exact ⟨place, congrArg _ (goes.question rfl)⟩

/-- Running a command on the current server fails where there is none, and is a call to it
otherwise. -/
theorem Gives.executeOnServer
    (comes : Gives setup (Dispatch.executeOnServer name arguments) said outcome) :
    (said = [⟨.current, none⟩] ∧ outcome = .error .notRunning) ∨
      ∃ server place, said = [⟨.current, some server⟩,
        ⟨.call server Connection.executeMethod (Connection.executeParams name arguments), place⟩,
        ⟨.await server place, outcome⟩] := by
  obtain ⟨slot, rest, rfl, goes⟩ := comes.of_ask rfl
  cases slot with
  | none =>
    obtain ⟨rfl, rfl⟩ := goes.of_done
    exact .inl ⟨rfl, rfl⟩
  | some server =>
    obtain ⟨place, rfl⟩ := goes.request
    exact .inr ⟨server, place, rfl⟩

/-- Routing a command comes to a call to the current server, or to what the editor makes of
it, or fails where there is no server. -/
theorem Gives.route (comes : Gives setup (Dispatch.route name arguments) said outcome) :
    (said = [⟨.current, none⟩] ∧ outcome = .error .notRunning) ∨
      ⟨.editorCommand name arguments, outcome⟩ ∈ said ∨
      ∃ server place between, said = [⟨.current, some server⟩] ++ between ++
        [⟨.call server Connection.executeMethod (Connection.executeParams name arguments), place⟩,
        ⟨.await server place, outcome⟩] := by
  obtain ⟨slot, rest, rfl, goes⟩ := comes.of_ask rfl
  cases slot with
  | none =>
    dsimp only at goes
    split at goes
    · obtain ⟨rfl, rfl⟩ := goes.of_done
      exact .inl ⟨rfl, rfl⟩
    · rw [goes.question rfl]
      exact .inr (.inl (by simp))
  | some server =>
    obtain ⟨belongs, between, second, rfl, -, last⟩ := goes.of_bind
    cases belongs with
    | false =>
      rw [last.question rfl]
      exact .inr (.inl (by simp))
    | true =>
      obtain ⟨place, rfl⟩ := last.request
      exact .inr (.inr ⟨server, place, between, rfl⟩)

/-- A task has run a command on a server: it began the call at this place there, all that is
requested for the call is that the command be run, under the id that the caller was given,
and what comes of it is the first answer under that id, or the conversation is over. -/
structure Ran (actions : List Action) (start : Session) (task server place : Nat) (name : String)
    (arguments : List Json) (outcome : Except Fault Json) : Prop where
  called : ∃ inTransition, .called task server place Connection.executeMethod
    (Connection.executeParams name arguments) inTransition ∈ history actions start
  requested : ∀ m, .requested place m ∈ connectionHistory server actions start →
    ∃ id, m = .request id Connection.executeMethod (Connection.executeParams name arguments) ∧
      .numbered place id ∈ connectionHistory server actions start
  ended : outcome = .error .connectionClosed ∨
    ∃ answer, outcome = (Answer.response answer).result ∧
      Connection.AnsweredBy (connectionHistory server actions start) place answer

/-- Two requests that are the same message have the same number. -/
theorem request_id {id id' : UInt64} {method method' : String} {params params' : Json}
    (same : Message.request id method params = Message.request id' method' params') : id = id' := by
  have ids := Option.some.inj (congrArg Message.id same)
  have words := congrArg Json.word? ids
  rw [Json.word?_ofNat, Json.word?_ofNat] at words
  exact Option.some.inj words

/-- Whoever was told the place of a call and its result has run the command. -/
theorem ran_of_dialogue (hrun : run actions { setup, files, view } = some s)
    {task server place : Nat}
    (called : ⟨.call server Connection.executeMethod (Connection.executeParams name arguments),
      place⟩ ∈ dialogue task actions { setup, files, view })
    (ended : ⟨.await server place, outcome⟩ ∈ dialogue task actions { setup, files, view }) :
    Ran actions { setup, files, view } task server place name arguments outcome := by
  have resolved := resolved_of_dialogue hrun ended
  obtain ⟨inTransition, began⟩ := called_of_dialogue hrun called
  have placed := placed_of_run hrun server
  -- something happened on the connection, so it is there
  obtain ⟨c, conn⟩ : ∃ c, s.connection? server = some c := by
    cases conn : s.connection? server with
    | some c => exact ⟨c, rfl⟩
    | none =>
      have among : (⟨place, _, _⟩ : Call) ∈ callsTo server (history actions { setup, files, view }) :=
        List.mem_filterMap.mpr ⟨_, began, if_pos rfl⟩
      rw [placed.absent conn] at among
      exact absurd among List.not_mem_nil
  have onConnection := connection_run hrun conn
  refine ⟨⟨inTransition, began⟩, fun m requested => ?_, ?_⟩
  · have among : (⟨place, _, _⟩ : Call) ∈ callsTo server (history actions { setup, files, view }) :=
      List.mem_filterMap.mpr ⟨_, began, if_pos rfl⟩
    obtain ⟨id, rfl⟩ := (placed.carried _ among c conn).requested m requested
    obtain ⟨id', method, params, same, numbered⟩ :=
      (Connection.named_of_run onConnection).requested place _ requested
    rw [← request_id same] at numbered
    exact ⟨id, rfl, numbered⟩
  · have matched := Connection.matched_of_run onConnection
    obtain ⟨past, future, split⟩ := List.append_of_mem resolved
    obtain ⟨-, closed | ⟨answer, same, answered⟩⟩ :=
      matched.justified past _ future split place outcome rfl
    · exact .inl closed
    · refine .inr ⟨answer, same, ?_⟩
      rw [split]
      exact answered.append _

end EmberClient.Session
