import EmberClient.Proofs.Connection.Responses
import EmberClient.Proofs.Session.Calls

/-!
# Generations of servers do not mix

During a restart two servers are there at once, with callers that still wait on the old
one and handlers that still work for it, and both connections number their requests from
one on. Nothing mixes all the same: a task is told what its own call came to on the
connection that it was made on, and the answer to a request goes out on the connection that
the request was taken from, however late.

> `calls_stay_with_their_server`: the fate of every call that is made to a current server,
> what is left of a server whose output has ended, and where answers go.

One thing can leave a call waiting for ever: a length that no body can have kills the
reader, and who waits on that connection is not told (`stranded`).
-/

namespace EmberClient.Session

open Connection (requestsTaken)

variable {setup : Setup} {files : FileSystem} {view : EditorView} {actions : List Action}
  {s d s' : Session} {a : Action} {i j task : Nat}

/-! ## Who does what on a connection -/

/-- What a task does on a connection is what it asks for. -/
theorem clientAction_cases {c : Connection} {q : Question} {act : Connection.Action}
    (does : clientAction c i q = some act) :
    (∃ method params, act = .call method params) ∨ (∃ method params, act = .notify method params) ∨
      ∃ place outcome, act = .answer place outcome ∧ q = .respond i place outcome := by
  cases q with
  | call server method params =>
    obtain ⟨-, same⟩ := Option.ite_none_right_eq_some.mp does
    exact .inl ⟨method, params, (Option.some.inj same).symm⟩
  | notify server method params =>
    obtain ⟨-, same⟩ := Option.ite_none_right_eq_some.mp does
    exact .inr (.inl ⟨method, params, (Option.some.inj same).symm⟩)
  | respond server place outcome =>
    obtain ⟨⟨rfl, -⟩, same⟩ := Option.ite_none_right_eq_some.mp does
    exact .inr (.inr ⟨place, outcome, (Option.some.inj same).symm, rfl⟩)
  | _ => contradiction

/-- What is done on a connection is done by a task, or by who takes part in it. -/
theorem actionOn_cases {c : Connection} {act : Connection.Action} (conn : d.connection? i = some c)
    (does : d.actionOn i a = some act) :
    (∃ task q, a = .advance task ∧ d.question? task = some q ∧ clientAction c i q = some act) ∨
      (∃ place, act = .abandon place) ∨ a = .connection i act := by
  simp only [actionOn, conn, Option.bind_some] at does
  cases a with
  | advance task =>
    obtain ⟨q, asked, does⟩ := Option.bind_eq_some_iff.mp does
    exact .inl ⟨task, q, rfl, asked, does⟩
  | elapse task =>
    obtain ⟨q, -, does⟩ := Option.bind_eq_some_iff.mp does
    cases q with
    | awaitBriefly server place =>
      obtain ⟨-, same⟩ := Option.ite_none_right_eq_some.mp does
      exact .inr (.inl ⟨place, (Option.some.inj same).symm⟩)
    | _ => contradiction
  | connection server action =>
    obtain ⟨rfl, same⟩ := Option.ite_none_right_eq_some.mp does
    exact .inr (.inr (by rw [Option.some.inj same]))
  | _ => contradiction

/-- What participants do is theirs to do, and a connection is given up only when it may be. -/
theorem allowed_of_step {act : Connection.Action} (hstep : d.step (.connection i act) = some s') :
    isSpontaneous act = true ∧ (act = .release → d.mayRelease i = true) := by
  cases stepped_of_step hstep with
  | brought _ _ _ brings => cases brings
  | acts _ spontaneous allowed => exact ⟨spontaneous, allowed⟩

/-! ## Giving a connection up -/

/-- A connection is given up when nobody waits on it. -/
theorem closed_of_release {c : Connection} (hstep : d.step a = some s')
    (conn : d.connection? i = some c) (act : d.actionOn i a = some .release) :
    ∀ caller ∈ c.callers, caller.isOpen = false := by
  rcases actionOn_cases conn act with ⟨task, q, -, -, does⟩ | ⟨place, other⟩ | rfl
  · exact absurd (clientAction_cases does) (by simp)
  · contradiction
  · have may := (allowed_of_step hstep).2 rfl
    obtain ⟨v, here, rfl⟩ := Option.map_eq_some_iff.mp conn
    simp only [mayRelease, here, Bool.and_eq_true, List.all_eq_true, Bool.not_eq_true'] at may
    exact may.2

/-- A connection is given up by a session only when nobody waits on it any more. -/
theorem vacant_of_run (hrun : run actions { setup, files, view } = some s) {c : Connection}
    (conn : s.connection? i = some c) : Connection.Vacant c := by
  -- by the last action; a connection is given up only when nobody waits on it
  induction actions using List.reverseRecOn generalizing s c with
  | nil =>
    obtain rfl := Option.some.inj hrun
    exact absurd conn (by simp [connection?])
  | append_singleton actions a ih =>
    obtain ⟨d, before, hstep⟩ := run_snoc hrun
    have acted := acted_of_step before hstep i
    have closed := fun c conn => closed_of_release (i := i) (c := c) hstep conn
    rw [conn] at acted
    generalize old : d.connection? i = c₀ at acted closed
    generalize d.actionOn i a = act at acted closed
    cases acted with
    | same => exact ih before old
    | born => exact Connection.vacant_start
    | step goes => exact (ih before old).step goes fun same => closed _ rfl (congrArg some same)

/-! ## Where requests come from -/

/-- A task that was told something has begun. -/
theorem origin_of_dialogue (hrun : run actions { setup, files, view } = some s) {e : Exchange}
    (mem : e ∈ dialogue task actions { setup, files, view }) :
    ∃ o, (origins actions { setup, files, view })[task]? = some o := by
  have standings := leads_of_run rfl hrun
  by_cases inside : task < s.tasks.length
  · obtain ⟨o, here, -⟩ := standings.leads task _ (List.getElem?_eq_getElem inside)
    exact ⟨o, here⟩
  · rw [standings.beyond task (Nat.le_of_not_lt inside)] at mem
    exact absurd mem List.not_mem_nil

/-- Who answers a request was begun to answer it. -/
theorem origin_of_respond (hrun : run actions { setup, files, view } = some s) {outcome : Outcome}
    (mem : ⟨.respond i j outcome, ()⟩ ∈ dialogue task actions { setup, files, view }) :
    ∃ method params,
      (origins actions { setup, files, view })[task]? = some (.request i j method params) := by
  obtain ⟨o, here⟩ := origin_of_dialogue hrun mem
  obtain ⟨past, future, split⟩ := List.append_of_mem mem
  have duty : o.duty = some (i, j) := own_of_run rfl hrun here past _ future split
  cases o with
  | request server place method params =>
    obtain ⟨rfl, rfl⟩ := Prod.mk.inj (Option.some.inj duty)
    exact ⟨method, params, here⟩
  | _ => exact absurd duty (by simp [Origin.duty])

/-- The request of this server that a task was begun for: its place, its method and its
parameters. -/
def Origin.asked? (i : Nat) : Origin → Option (Nat × String × Json)
  | .request server place method params => if server = i then some (place, method, params) else none
  | _ => none

/-- An origin is asked for when it is that request. -/
theorem asked?_iff {o : Origin} {method : String} {params : Json} :
    o.asked? i = some (j, method, params) ↔ o = .request i j method params := by
  cases o with
  | request server place method' params' =>
    simp only [Origin.asked?, Option.ite_none_right_eq_some, Option.some.injEq, Prod.mk.injEq,
      Origin.request.injEq]
  | _ => simp [Origin.asked?]

theorem asked?_ofEvent? (server : Nat) (event : Connection.Event) :
    (Origin.ofEvent? server event).bind (Origin.asked? i) =
      if server = i then event.request? else none := by
  cases event with
  | request place method params => rfl
  | notification method params => simp [Origin.ofEvent?, Connection.Event.request?]

/-- Only what a server says begins a task for one of its requests. -/
theorem asked_of_begun_other (other : ∀ act, a ≠ .connection i act) :
    (s.begun a).filterMap (Origin.asked? i) = [] := by
  cases a with
  | connection server act =>
    have apart : server ≠ i := fun same => other act (same ▸ rfl)
    simp only [begun]
    split
    · simp [List.filterMap_filterMap, asked?_ofEvent?, apart]
    · rfl
  | advance task =>
    simp only [begun]
    split <;> rfl
  | _ => rfl

/-- The tasks that are begun for requests of a server are those for the requests that are
taken from it. -/
theorem asked_of_begun {c : Connection} (conn : s.connection? i = some c)
    (hstep : s.step a = some s') :
    (s.begun a).filterMap (Origin.asked? i) =
      (((connectionHappening (s.connection? i) (s.actionOn i a)).bind
        Connection.takenRequest?).map fun (_, asked) => (c.requests.length, asked)).toList := by
  -- requests are taken by the reader of this connection; all other actions begin nothing for it
  by_cases here : ∃ act, a = .connection i act
  · -- the tasks that are begun are read off the events that the reader hands on
    obtain ⟨act, rfl⟩ := here
    obtain ⟨c', events, goes⟩ : ∃ c' events, c.step act = some (c', events) := by
      cases stepped_of_step hstep with
      | brought _ _ _ brings => cases brings
      | acts there _ _ acts =>
        obtain rfl := Option.some.inj (there.symm.trans conn)
        exact ⟨_, _, acts⟩
    have does : s.actionOn i (.connection i act) = some act := by
      simp only [actionOn, conn, Option.bind_some, if_true]
    rw [does, conn, connectionHappening_some, ← Connection.events_requests goes]
    simp [begun, conn, goes, List.filterMap_filterMap, asked?_ofEvent?]
  · have other : ∀ act, a ≠ .connection i act := fun act same => here ⟨act, same⟩
    rw [asked_of_begun_other other, conn]
    cases does : s.actionOn i a with
    | none => rfl
    | some act =>
      have unread : act ≠ .read := by
        rintro rfl
        rcases actionOn_cases conn does with ⟨_, _, -, -, acts⟩ | ⟨_, acts⟩ | same
        · exact absurd (clientAction_cases acts) (by simp)
        · contradiction
        · exact other _ same
      rw [connectionHappening_some, Connection.untaken_of_other unread]
      rfl

/-- For each request that was taken from a server a task was begun, in this order, and for
no other. -/
theorem asked_of_run (hrun : run actions { setup, files, view } = some s) (i : Nat) :
    (origins actions { setup, files, view }).filterMap (Origin.asked? i) =
      (requestsTaken (connectionHistory i actions { setup, files, view })).zipIdx.map
        fun ((_, asked), place) => (place, asked) := by
  -- by the last action: each task begun for a request goes with one request taken
  induction actions using List.reverseRecOn generalizing s with
  | nil =>
    obtain rfl := Option.some.inj hrun
    rfl
  | append_singleton actions a ih =>
    obtain ⟨d, before, hstep⟩ := run_snoc hrun
    rw [origins_snoc before hstep, List.filterMap_append, ih before,
      connectionHistory_snoc before hstep, Connection.requestsTaken_append, List.zipIdx_append,
      List.map_append]
    congr 1
    cases conn : d.connection? i with
    | none =>
      have other : ∀ act, a ≠ .connection i act := by
        rintro act rfl
        cases stepped_of_step hstep with
        | brought _ _ _ brings => cases brings
        | acts there => simp [conn] at there
      rw [asked_of_begun_other other]
      cases d.actionOn i a <;> rfl
    | some c =>
      have requested := Connection.requested_of_run (connection_run before conn)
      rw [asked_of_begun conn hstep, conn, requested.length, Nat.zero_add]
      cases (connectionHappening (some c) (d.actionOn i a)).bind Connection.takenRequest? <;> rfl

/-- What a task was begun to answer was taken from that server, at that place. -/
theorem taken_of_origin (hrun : run actions { setup, files, view } = some s) {method : String}
    {params : Json}
    (here : (origins actions { setup, files, view })[task]? = some (.request i j method params)) :
    ∃ id, (requestsTaken (connectionHistory i actions { setup, files, view }))[j]? =
      some (id, method, params) := by
  have mem : (j, method, params) ∈
      (origins actions { setup, files, view }).filterMap (Origin.asked? i) :=
    List.mem_filterMap.mpr ⟨_, List.mem_of_getElem? here, asked?_iff.mpr rfl⟩
  rw [asked_of_run hrun i] at mem
  obtain ⟨⟨⟨id, method', params'⟩, place⟩, there, same⟩ := List.mem_map.mp mem
  obtain ⟨rfl, rfl, rfl⟩ := same
  exact ⟨id, List.mk_mem_zipIdx_iff_getElem?.mp there⟩

/-- Each request that was taken has begun a task. -/
theorem task_of_taken (hrun : run actions { setup, files, view } = some s) {id : Json}
    {method : String} {params : Json}
    (taken : (requestsTaken (connectionHistory i actions { setup, files, view }))[j]? =
      some (id, method, params)) :
    ∃ task : Nat, (origins actions { setup, files, view })[task]? =
      some (.request i j method params) := by
  have mem : (j, method, params) ∈
      (origins actions { setup, files, view }).filterMap (Origin.asked? i) := by
    rw [asked_of_run hrun i]
    exact List.mem_map.mpr ⟨((id, method, params), j), List.mk_mem_zipIdx_iff_getElem?.mpr taken, rfl⟩
  obtain ⟨o, there, asked⟩ := List.mem_filterMap.mp mem
  obtain rfl := asked?_iff.mp asked
  exact List.mem_iff_getElem?.mp there

/-- No two tasks are begun for one request. -/
theorem task_unique (hrun : run actions { setup, files, view } = some s) {t u : Nat}
    {method method' : String} {params params' : Json}
    (ht : (origins actions { setup, files, view })[t]? = some (.request i j method params))
    (hu : (origins actions { setup, files, view })[u]? = some (.request i j method' params')) :
    t = u := by
  have places : (((origins actions { setup, files, view }).filterMap (Origin.asked? i)).map
      Prod.fst).Nodup := by
    rw [asked_of_run hrun i, List.map_map]
    have indices : ((requestsTaken
        (connectionHistory i actions { setup, files, view })).zipIdx.map Prod.snd).Nodup := by
      rw [List.zipIdx_map_snd]
      exact List.nodup_range'
    exact indices
  rw [List.Nodup, List.pairwise_map, List.pairwise_filterMap] at places
  have apart : ∀ {t u : Nat} {method method' : String} {params params' : Json},
      (origins actions { setup, files, view })[t]? = some (.request i j method params) →
      (origins actions { setup, files, view })[u]? = some (.request i j method' params') →
      ¬ t < u := by
    intro t u method method' params params' ht hu before
    obtain ⟨inside, ht⟩ := List.getElem?_eq_some_iff.mp ht
    obtain ⟨inside', hu⟩ := List.getElem?_eq_some_iff.mp hu
    exact List.pairwise_iff_getElem.mp places t u inside inside' before _ (asked?_iff.mpr ht) _
      (asked?_iff.mpr hu) rfl
  exact Nat.le_antisymm (Nat.le_of_not_lt (apart hu ht)) (Nat.le_of_not_lt (apart ht hu))

/-! ## Where answers go -/

/-- Who answers on a connection is a task that asked for that. -/
theorem told_of_answer {c : Connection} {outcome : Outcome} (hstep : d.step a = some s')
    (conn : d.connection? i = some c) (act : d.actionOn i a = some (.answer j outcome)) :
    ∃ task, d.told? a = some (task, ⟨.respond i j outcome, ()⟩) := by
  rcases actionOn_cases conn act with ⟨task, q, rfl, asked, does⟩ | ⟨place, other⟩ | rfl
  · rcases clientAction_cases does with ⟨_, _, other⟩ | ⟨_, _, other⟩ | ⟨place, outcome', same, rfl⟩
    · contradiction
    · contradiction
    · obtain ⟨rfl, rfl⟩ := Connection.Action.answer.inj same
      unfold question? at asked
      split at asked
      · next q next question =>
        obtain rfl := Option.some.inj asked
        obtain ⟨t, here, program⟩ := Option.map_eq_some_iff.mp question
        exact ⟨task, by simp [told?, here, program, mustPut, reply]⟩
      · contradiction
  · contradiction
  · exact absurd (allowed_of_step hstep).1 (by simp [isSpontaneous])

/-- A message is the answer of a task to a request that this server made. -/
structure Answers (actions : List Action) (start : Session) (i : Nat) (m : Message)
    (task place : Nat) (id : Json) (method : String) (params : Json) (outcome : Outcome) :
    Prop where
  message : m = .response id outcome
  request : (Connection.requestsTaken (connectionHistory i actions start))[place]? =
    some (id, method, params)
  origin : (origins actions start)[task]? = some (.request i place method params)
  answered : ⟨.respond i place outcome, ()⟩ ∈ dialogue task actions start

/-- Each response is the answer to a request that was taken before. -/
theorem answers_of_responded (hrun : run actions { setup, files, view } = some s) {m : Message}
    (mem : .responded m ∈ connectionHistory i actions { setup, files, view }) :
    ∃ task place id method params outcome,
      Answers actions { setup, files, view } i m task place id method params outcome := by
  -- the task that gives the answer was begun for the request at that place, so it is enough to find
  -- the place and the task
  suffices ∃ task place id outcome, m = .response id outcome ∧
      (∃ method params,
        (Connection.requestsTaken (connectionHistory i actions { setup, files, view }))[place]? =
          some (id, method, params)) ∧
      ⟨.respond i place outcome, ()⟩ ∈ dialogue task actions { setup, files, view } by
    obtain ⟨task, place, id, outcome, message, ⟨method, params, request⟩, answered⟩ := this
    obtain ⟨method', params', origin⟩ := origin_of_respond hrun answered
    obtain ⟨id', taken⟩ := taken_of_origin hrun origin
    rw [request] at taken
    obtain ⟨rfl, rfl, rfl⟩ := Option.some.inj taken
    exact ⟨task, place, id, method, params, outcome, message, request, origin, answered⟩
  -- by the last action: an answer was given before, or this action gives it
  induction actions using List.reverseRecOn generalizing s with
  | nil => exact absurd mem List.not_mem_nil
  | append_singleton actions a ih =>
    obtain ⟨d, before, hstep⟩ := run_snoc hrun
    rw [connectionHistory_snoc before hstep] at mem ⊢
    rw [Connection.requestsTaken_append]
    rcases List.mem_append.mp mem with earlier | now
    · obtain ⟨task, place, id, outcome, message, ⟨method, params, request⟩, answered⟩ :=
        ih before earlier
      refine ⟨task, place, id, outcome, message, ⟨method, params, ?_⟩, ?_⟩
      · rw [List.getElem?_append_left (length_of_getElem? request), request]
      · rw [dialogue_snoc task before hstep]
        exact List.mem_append_left _ answered
    · obtain ⟨c, conn, now⟩ := Option.bind_eq_some_iff.mp (Option.mem_toList.mp now)
      obtain ⟨act, acts, now⟩ := Option.bind_eq_some_iff.mp now
      obtain ⟨place, outcome, id, rfl, stands, rfl⟩ := Connection.responded_of_step now
      obtain ⟨task, heard⟩ := told_of_answer hstep conn acts
      obtain ⟨method, params, request⟩ :=
        (Connection.requested_of_run (connection_run before conn)).ids place id stands
      refine ⟨task, place, id, outcome, rfl, ⟨method, params, ?_⟩, ?_⟩
      · exact (List.getElem?_append_left (length_of_getElem? request)).trans request
      · rw [dialogue_snoc task before hstep, told_self heard]
        exact List.mem_append_right _ (List.mem_singleton_self _)

/-! ## Calls, answers and generations -/

/-- **Calls stay with their server**, and so do answers. In every run of a session, with any
number of servers that came and went:

* no two calls to a server have the same place there;
* a command that a task ran on the current server, by whatever name it came to that, either
  found no server, or was a call on that server's connection and came to the answer that
  this very call was given there, or to the end of that conversation; a command that is
  routed may also have gone to the editor;
* when the output of a server has ended its reader comes to its end, and when nothing on the
  connection goes on any more, nobody is left waiting on it, unless its reader died;
* a task answers the request that it was begun for, on the server that made it;
* what a server is sent without a method answers a request that was taken from it. -/
theorem calls_stay_with_their_server (hrun : run actions { setup, files, view } = some s) :
    let start : Session := { setup, files, view }
    (∀ i, ((callsTo i (history actions start)).map Call.place).Nodup) ∧
    (∀ task past said future name arguments outcome,
      dialogue task actions start = past ++ said ++ future →
      (Gives setup (Dispatch.executeOnServer name arguments) said outcome →
        (said = [⟨.current, none⟩] ∧ outcome = .error .notRunning) ∨
          ∃ server place, ⟨.current, some server⟩ ∈ said ∧
            Ran actions start task server place name arguments outcome) ∧
      (Gives setup (Dispatch.route name arguments) said outcome →
        (said = [⟨.current, none⟩] ∧ outcome = .error .notRunning) ∨
          ⟨.editorCommand name arguments, outcome⟩ ∈ said ∨
          ∃ server place, ⟨.current, some server⟩ ∈ said ∧
            Ran actions start task server place name arguments outcome)) ∧
    (∀ i c, s.connection? i = some c → c.inputEnded = true →
      (∃ n c', Connection.run (List.replicate n .read) c = some c' ∧ c'.step .read = none) ∧
      (c.reader ≠ .dead → c.AtRest → ∀ caller ∈ c.callers, caller.isOpen = false)) ∧
    (∀ task i place outcome, ⟨.respond i place outcome, ()⟩ ∈ dialogue task actions start →
      ∃ method params, (origins actions start)[task]? = some (.request i place method params)) ∧
    ∀ i c m, s.connection? i = some c → m ∈ c.written → m.method = none →
      ∃ task place id method params outcome,
        Answers actions start i m task place id method params outcome := by
  intro start
  refine ⟨fun i => (placed_of_run hrun i).nodup, ?_, ?_, ?_, ?_⟩
  · intro task past said future name arguments outcome split
    have within : ∀ e ∈ said, e ∈ dialogue task actions start := by
      intro e mem
      rw [split]
      exact List.mem_append_left _ (List.mem_append_right _ mem)
    constructor
    · intro comes
      rcases comes.executeOnServer with missing | ⟨server, place, rfl⟩
      · exact .inl missing
      · refine .inr ⟨server, place, by simp, ?_⟩
        exact ran_of_dialogue hrun (within _ (by simp)) (within _ (by simp))
    · intro comes
      rcases comes.route with missing | editor | ⟨server, place, between, rfl⟩
      · exact .inl missing
      · exact .inr (.inl editor)
      · refine .inr (.inr ⟨server, place, by simp, ?_⟩)
        exact ran_of_dialogue hrun (within _ (by simp)) (within _ (by simp))
  · -- the reader comes to the end of what there is, and closing leaves nobody behind
    intro i c conn spent
    refine ⟨Connection.reads_out spent, fun alive rest caller mem => ?_⟩
    have onConnection := connection_run hrun conn
    exact Connection.nobody_left (Connection.closing_of_run onConnection)
      (Connection.finishes_of_run onConnection) (vacant_of_run hrun conn) spent alive rest caller mem
  · intro task i place outcome mem
    exact origin_of_respond hrun mem
  · -- what is written was queued, and what was queued without a method is an answer
    intro i c m conn written answer
    have onConnection := connection_run hrun conn
    have out := (Connection.written_of_run onConnection).subset written
    exact answers_of_responded hrun (Connection.responded_of_sent onConnection out answer)

/-- A start is over, and a command is under way on the first server. -/
def inFlight : List Action :=
  List.flatten [servedAndTold,
    [.connection 0 (.receive (Frame.encode (.response (.ofNat 2) (.ok .null)))),
      .connection 0 .read, .connection 0 (.advance 1)],
    List.replicate 4 (.advance 0),
    [.begin (.executeOnServer "a" []), .advance 2, .advance 2],
    List.replicate 4 (.connection 0 (.advance 2))]

/-- A restart brings a second server up; the first one was not heard of again. -/
def superseded : List Action :=
  List.flatten [inFlight, [.begin .restart], List.replicate 6 (.advance 3),
    List.replicate 4 (.connection 0 (.advance 3)),
    [.elapse 3, .advance 3, .advance 3, .terminated 3], List.replicate 6 (.advance 3),
    comesUp 3 1, List.replicate 6 (.advance 3), List.replicate 4 (.connection 1 (.advance 1))]

/-- A command is run on the second server. The first one then answers under the same id that
this command has there, and the second one answers too. -/
def lateAnswer : List Action :=
  List.flatten [superseded, [.begin (.executeOnServer "b" []), .advance 4, .advance 4],
    List.replicate 4 (.connection 1 (.advance 2)),
    [.connection 0 (.receive (Frame.encode (.response (.ofNat 3) (.ok (.ofNat 7))))),
      .connection 0 .read, .connection 0 (.advance 2), .advance 2,
      .connection 1 (.receive (Frame.encode (.response (.ofNat 3) (.ok (.ofNat 8))))),
      .connection 1 .read, .connection 1 (.advance 2), .advance 4]]

/-- What a job came to that ran a command on the current server. -/
theorem gives_of_job (hrun : run actions { setup, files, view } = some s) {name : String}
    {arguments : List Json} {outcome : Except Fault Json}
    (begun : (origins actions { setup, files, view })[task]? =
      some (.job (.executeOnServer name arguments)))
    (result : s.result? task = some (.outcome outcome)) :
    Gives setup (Dispatch.executeOnServer name arguments)
      (dialogue task actions { setup, files, view }) outcome := by
  have comes := gives_of_result rfl hrun begun result
  obtain ⟨found, first, second, split, came, rest⟩ := Gives.of_bind comes
  obtain ⟨rfl, same⟩ := rest.of_done
  obtain rfl := Result.outcome.inj same
  rwa [split, List.append_nil]

/-- The task and the place of a call. -/
def callName? : Happening → Option (Nat × Nat × Nat)
  | .called task server place _ _ _ => some (task, server, place)
  | _ => none

/-- What a job yielded. -/
def Result.value? : Result → Option Json
  | .outcome (.ok v) => some v
  | _ => none

theorem result_of_value? {r : Option Result} {v : Json} (h : r.bind Result.value? = some v) :
    r = some (.outcome (.ok v)) := by
  obtain ⟨result, rfl, yields⟩ := Option.bind_eq_some_iff.mp h
  unfold Result.value? at yields
  split at yields
  · obtain rfl := Option.some.inj yields
    rfl
  · contradiction

/-- Was begun to run a command on the current server, without arguments. -/
def Origin.runs (name : String) : Origin → Bool
  | .job (.executeOnServer name' []) => name' = name
  | _ => false

theorem origin_of_runs {name : String} {o : Option Origin} (h : o.any (Origin.runs name) = true) :
    o = some (.job (.executeOnServer name [])) := by
  obtain ⟨origin, rfl, runs⟩ := (Option.any_eq_true _ _).mp h
  unfold Origin.runs at runs
  split at runs
  · obtain rfl := of_decide_eq_true runs
    rfl
  · contradiction

/-- `calls_stay_with_their_server` where a late answer has the id of a new call: each of the
two commands comes to what its own server answered. -/
theorem calls_stay_with_their_server_late :
    ∃ v w, v.word? = some 7 ∧ w.word? = some 8 ∧
      Ran lateAnswer { setup := bareSetup } 2 0 2 "a" [] (.ok v) ∧
      Ran lateAnswer { setup := bareSetup } 4 1 2 "b" [] (.ok w) := by
  have came : ((run lateAnswer { setup := bareSetup }).any fun s =>
      ((s.result? 2).bind Result.value?).bind Json.word? = some 7 ∧
        ((s.result? 4).bind Result.value?).bind Json.word? = some 8) = true := by decide +kernel
  have begun : ((origins lateAnswer { setup := bareSetup })[2]?.any (Origin.runs "a") &&
      (origins lateAnswer { setup := bareSetup })[4]?.any (Origin.runs "b")) = true := by
    decide +kernel
  -- at which place of which server each call stands tells the two answers apart
  have places : (history lateAnswer { setup := bareSetup }).filterMap callName? =
      [(0, 0, 0), (0, 0, 1), (2, 0, 2), (3, 0, 3), (3, 1, 0), (3, 1, 1), (4, 1, 2)] := by
    decide +kernel
  obtain ⟨s, hrun, came⟩ := (Option.any_eq_true _ _).mp came
  obtain ⟨came₁, came₂⟩ := of_decide_eq_true came
  obtain ⟨v, first, seven⟩ := Option.bind_eq_some_iff.mp came₁
  obtain ⟨w, second, eight⟩ := Option.bind_eq_some_iff.mp came₂
  obtain ⟨begun₁, begun₂⟩ := Bool.and_eq_true_iff.mp begun
  have called {task server place : Nat} {name : String} {outcome : Except Fault Json}
      (ran : Ran lateAnswer { setup := bareSetup } task server place name [] outcome) :
      (task, server, place) ∈ (history lateAnswer { setup := bareSetup }).filterMap callName? := by
    obtain ⟨inTransition, mem⟩ := ran.called
    exact List.mem_filterMap.mpr ⟨_, mem, rfl⟩
  have whole (said : List Exchange) : said = [] ++ said ++ [] := by simp
  obtain ⟨-, all, -⟩ := calls_stay_with_their_server hrun
  refine ⟨v, w, seven, eight, ?_, ?_⟩
  · have comes := gives_of_job hrun (origin_of_runs begun₁) (result_of_value? first)
    rcases (all 2 [] _ [] "a" [] _ (whole _)).1 comes with ⟨-, failed⟩ | ⟨server, place, -, ran⟩
    · contradiction
    · obtain ⟨rfl, rfl⟩ : server = 0 ∧ place = 2 := by simpa [places] using called ran
      exact ran
  · have comes := gives_of_job hrun (origin_of_runs begun₂) (result_of_value? second)
    rcases (all 4 [] _ [] "b" [] _ (whole _)).1 comes with ⟨-, failed⟩ | ⟨server, place, -, ran⟩
    · contradiction
    · obtain ⟨rfl, rfl⟩ : server = 1 ∧ place = 2 := by simpa [places] using called ran
      exact ran

/-- The first server announces a body of more bytes than one can have, and then closes its
output. -/
def oversizedAtLast : List Action :=
  superseded ++ [.connection 0 (.receive (Text.utf8 "Content-Length: 9223372036854775808\r\n\r\n")),
    .connection 0 .read, .connection 0 .endInput]

/-- A reader that died leaves a caller behind: the server is not the current one any more, its
output has ended, nothing on the connection goes on, and the caller has its entry and waits. -/
theorem stranded :
    ∃ s c, run oversizedAtLast { setup := bareSetup } = some s ∧ s.slot = some 1 ∧
      s.connection? 0 = some c ∧ c.inputEnded = true ∧ c.AtRest ∧ (3, 2) ∈ c.pending ∧
      ∃ caller ∈ c.callers, caller.isOpen = true := by
  have facts : ((run oversizedAtLast { setup := bareSetup }).any fun s =>
      s.slot = some 1 ∧ (s.connection? 0).any fun c =>
        c.inputEnded = true ∧ c.AtRest ∧ (3, 2) ∈ c.pending ∧
          c.callers.any Caller.isOpen = true) = true := by decide +kernel
  obtain ⟨s, hrun, facts⟩ := (Option.any_eq_true _ _).mp facts
  obtain ⟨slot, facts⟩ := of_decide_eq_true facts
  obtain ⟨c, conn, facts⟩ := (Option.any_eq_true _ _).mp facts
  obtain ⟨spent, rest, entry, open_⟩ := of_decide_eq_true facts
  exact ⟨s, c, hrun, slot, conn, spent, rest, entry, List.any_eq_true.mp open_⟩

end EmberClient.Session
