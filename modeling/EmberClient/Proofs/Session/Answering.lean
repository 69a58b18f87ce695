import EmberClient.Proofs.Session.Generations

/-!
# Every request is answered once

Each request that a server makes is handed to a task of its own, at its place among the
requests of that server. These tasks go on in any order, ask for anything on the way, and
may even call the server that waits for them. `answersOn` lists the answers that they gave, in the
order in which they gave them. A place is answered by the one task that was begun for it, and
by that once:

> `answered_nodup`: no place is answered twice.

So whoever comes to answer finds the id of its request still standing, and while the writer is there
the response is queued under it:

> `requests_answered_once`: the responses that go out are, in some order, one for each request
> whose task is done, with the id of the request and what its own task found.
-/

namespace EmberClient.Session

open Connection (requestsTaken responses)

variable {setup : Setup} {files : FileSystem} {view : EditorView} {actions : List Action}
  {start s s' d : Session} {a : Action} {i j task : Nat}

/-! ## Each place is answered once -/

/-- The answer that is given to a request of this server, with its place. -/
def Exchange.answer? (i : Nat) : Exchange → Option (Nat × Outcome)
  | ⟨.respond server place outcome, _⟩ => if server = i then some (place, outcome) else none
  | _ => none

/-- An exchange counts as an answer when it is the question that responds. -/
theorem answer?_iff {e : Exchange} {outcome : Outcome} :
    e.answer? i = some (j, outcome) ↔ e = ⟨.respond i j outcome, ()⟩ := by
  obtain ⟨q, r⟩ := e
  cases q with
  | respond server place outcome' =>
    simp only [Exchange.answer?, Option.ite_none_right_eq_some, Option.some.injEq, Prod.mk.injEq,
      Exchange.mk.injEq, Question.respond.injEq]
    constructor
    · rintro ⟨rfl, rfl, rfl⟩
      exact ⟨⟨rfl, rfl, rfl⟩, HEq.rfl⟩
    · rintro ⟨same, -⟩
      exact same
  | _ => simp [Exchange.answer?]

/-- The answers that were given to requests of this server, with their places, in order. -/
def answersOn (i : Nat) : List Action → Session → List (Nat × Outcome)
  | [], _ => []
  | a :: rest, s =>
    match s.step a with
    | some s' => ((s.told? a).bind fun (_, e) => e.answer? i).toList ++ answersOn i rest s'
    | none => []

theorem answersOn_eq (i : Nat) :
    answersOn i = gathered fun s a => ((s.told? a).bind fun (_, e) => e.answer? i).toList :=
  eq_gathered (fun _ => rfl) fun _ _ _ => rfl

/-- A longer run adds to the answers what its last action told. -/
theorem answersOn_snoc (i : Nat) (hrun : run actions start = some d) (hstep : d.step a = some s') :
    answersOn i (actions ++ [a]) start =
      answersOn i actions start ++ ((d.told? a).bind fun (_, e) => e.answer? i).toList := by
  rw [answersOn_eq]
  exact gathered_snoc hrun hstep

/-- What is answered in an action is what a task is told. -/
theorem told_of_answer? {answer : Nat × Outcome}
    (now : ((d.told? a).bind fun (_, e) => e.answer? i) = some answer) :
    ∃ task, d.told? a = some (task, ⟨.respond i answer.1 answer.2, ()⟩) := by
  obtain ⟨⟨task, e⟩, heard, answers⟩ := Option.bind_eq_some_iff.mp now
  obtain rfl := answer?_iff.mp answers
  exact ⟨task, heard⟩

/-- An answer is given when some task has given it. -/
theorem mem_answersOn {outcome : Outcome} (hrun : run actions start = some s) :
    (j, outcome) ∈ answersOn i actions start ↔
      ∃ task, ⟨.respond i j outcome, ()⟩ ∈ dialogue task actions start := by
  -- by the last action, which answers in the order in which the tasks are told
  induction actions using List.reverseRecOn generalizing s with
  | nil => simp [answersOn, dialogue]
  | append_singleton actions a ih =>
    obtain ⟨d, before, hstep⟩ := run_snoc hrun
    rw [answersOn_snoc i before hstep, List.mem_append, ih before, Option.mem_toList]
    constructor
    · rintro (⟨task, earlier⟩ | now)
      · exact ⟨task, dialogue_snoc task before hstep ▸ List.mem_append_left _ earlier⟩
      · obtain ⟨task, heard⟩ := told_of_answer? now
        refine ⟨task, ?_⟩
        rw [dialogue_snoc task before hstep, told_self heard]
        exact List.mem_append_right _ (List.mem_singleton_self _)
    · rintro ⟨task, mem⟩
      rw [dialogue_snoc task before hstep] at mem
      rcases List.mem_append.mp mem with earlier | now
      · exact .inl ⟨task, earlier⟩
      · right
        rw [told?_of_mem now]
        exact answer?_iff.mpr rfl

/-- What is answered was taken. -/
theorem taken_of_answered (hrun : run actions { setup, files, view } = some s)
    (answered : j ∈ (answersOn i actions { setup, files, view }).map Prod.fst) :
    ∃ asked, (requestsTaken (connectionHistory i actions { setup, files, view }))[j]? =
      some asked := by
  obtain ⟨⟨place, outcome⟩, mem, rfl⟩ := List.mem_map.mp answered
  obtain ⟨task, told⟩ := (mem_answersOn hrun).mp mem
  obtain ⟨method, params, begun⟩ := origin_of_respond hrun told
  obtain ⟨id, taken⟩ := taken_of_origin hrun begun
  exact ⟨_, taken⟩

/-- Who is about to answer a request was begun for it, and the request is not answered yet. -/
theorem unanswered_of_asked {outcome : Outcome} (hrun : run actions { setup, files, view } = some s)
    (asked : s.question? task = some (.respond i j outcome)) :
    j ∉ (answersOn i actions { setup, files, view }).map Prod.fst ∧ ∃ method params,
      (origins actions { setup, files, view })[task]? = some (.request i j method params) := by
  obtain ⟨t, next, here, question⟩ := task_of_question? asked
  obtain ⟨o, begun, leads⟩ := (leads_of_run rfl hrun).leads task t here
  rw [question] at leads
  have duty : o.duty = some (i, j) := ((asksOwn_origin o).leads leads).1
  cases o with
  | request server place method params =>
    obtain ⟨rfl, rfl⟩ := Prod.mk.inj (Option.some.inj duty)
    refine ⟨fun answered => ?_, method, params, begun⟩
    obtain ⟨⟨_, outcome'⟩, mem, rfl⟩ := List.mem_map.mp answered
    obtain ⟨u, told⟩ := (mem_answersOn hrun).mp mem
    obtain ⟨method', params', begun'⟩ := origin_of_respond hrun told
    -- one task is begun for a request, and this one still looks for the answer
    obtain rfl := task_unique hrun begun begun'
    exact unanswered_of_leads (found_of_request leads) told
  | _ => exact absurd duty (by simp [Origin.duty])

/-- No place is answered twice. -/
theorem answered_nodup (hrun : run actions { setup, files, view } = some s) (i : Nat) :
    ((answersOn i actions { setup, files, view }).map Prod.fst).Nodup := by
  induction actions using List.reverseRecOn generalizing s with
  | nil => exact List.nodup_nil
  | append_singleton actions a ih =>
    obtain ⟨d, before, hstep⟩ := run_snoc hrun
    rw [answersOn_snoc i before hstep, List.map_append]
    cases now : (d.told? a).bind fun (_, e) => e.answer? i with
    | none => simpa using ih before
    | some answer =>
      obtain ⟨task, heard⟩ := told_of_answer? now
      obtain ⟨-, asked, -⟩ := reply_of_told hstep heard rfl (by simp)
      -- a place that is about to be answered has no answer yet
      have fresh := (unanswered_of_asked before asked).1
      refine List.nodup_append.mpr ⟨ih before, by simp, ?_⟩
      rintro place earlier _ new rfl
      obtain rfl := List.mem_singleton.mp new
      exact fresh earlier

/-! ## Every answer goes out -/

/-- The response that an answer at a place goes out as. -/
def responseTo (taken : List Asked) : Nat × Outcome → Option Message
  | (place, outcome) => taken[place]?.map fun (id, _) => .response id outcome

/-- Places that are not answered hold their ids, and as long as the writer is there, what was
responded are the answers. -/
structure Tended (h : List Connection.Happening) (answers : List (Nat × Outcome))
    (c : Connection) : Prop where
  stands : ∀ place < c.requests.length, place ∉ answers.map Prod.fst →
    ∃ id, c.requests[place]? = some (some id)
  complete : c.writing = true → responses h = answers.filterMap (responseTo (requestsTaken h))

section

variable {h : List Connection.Happening} {answers : List (Nat × Outcome)} {c c' : Connection}
  {act : Connection.Action} {events : List Connection.Event}

/-- Requests that are taken later change nothing about the answers that were given. -/
theorem responseTo_append {taken more : List Asked}
    (within : ∀ place ∈ answers.map Prod.fst, place < taken.length) :
    answers.filterMap (responseTo (taken ++ more)) = answers.filterMap (responseTo taken) := by
  refine List.filterMap_congr fun answer mem => ?_
  have inside := within answer.1 (List.mem_map_of_mem mem)
  simp only [responseTo, List.getElem?_append_left inside]

/-- Nothing is answered. -/
theorem Tended.quiet (inv : Tended h answers c) (hstep : c.step act = some (c', events))
    (within : ∀ place ∈ answers.map Prod.fst, place < (requestsTaken h).length)
    (other : ∀ place outcome, act ≠ .answer place outcome) :
    Tended (h ++ (c.happening act).toList) answers c' := by
  constructor
  · intro place inside unanswered
    rcases Connection.stands_of_step hstep other inside with ⟨old, same⟩ | new
    · rw [same]
      exact inv.stands place old unanswered
    · exact new
  · intro writing
    have before := Connection.writing_before hstep writing
    have silent := Connection.unresponded_of_other (c := c) other
    rw [Connection.responses_append, silent, Connection.requestsTaken_append,
      responseTo_append within, inv.complete before]
    exact List.append_nil _

/-- A place that is not answered yet is answered. -/
theorem Tended.answer {place : Nat} {outcome : Outcome} (inv : Tended h answers c)
    (requested : Connection.Requested h c) (hstep : c.step (.answer place outcome) = some (c', events)) :
    Tended (h ++ (c.happening (.answer place outcome)).toList) (answers ++ [(place, outcome)]) c' := by
  obtain ⟨id, stands, requests⟩ := Connection.place_of_answer hstep
  constructor
  · intro place' inside unanswered
    simp only [List.map_append, List.mem_append, not_or, List.map_singleton,
      List.mem_singleton] at unanswered
    rw [requests, List.length_set] at inside
    rw [requests, List.getElem?_set_ne fun same => unanswered.2 same.symm]
    exact inv.stands place' inside unanswered.1
  · intro writing
    have before := Connection.writing_before hstep writing
    obtain ⟨method, params, taken⟩ := requested.ids place id stands
    have happens := (Connection.answers_of_id outcome stands).2 before
    have untaken : requestsTaken (h ++ (c.happening (.answer place outcome)).toList) =
        requestsTaken h := by
      rw [Connection.requestsTaken_append, happens]
      exact List.append_nil _
    rw [untaken, Connection.responses_append, happens, List.filterMap_append, inv.complete before]
    simp [responseTo, taken, Connection.responded?]

end

/-- A server that is not there has no history. -/
theorem unheard_of_absent (hrun : run actions { setup, files, view } = some s)
    (absent : s.connection? i = none) :
    connectionHistory i actions { setup, files, view } = [] :=
  ((traced_of_run hrun).2.recorded i).1 absent

/-- Before a server comes up none of its requests is answered. -/
theorem unanswered_of_absent (hrun : run actions { setup, files, view } = some s)
    (absent : s.connection? i = none) : answersOn i actions { setup, files, view } = [] := by
  refine List.eq_nil_iff_forall_not_mem.mpr fun answer mem => ?_
  obtain ⟨asked, taken⟩ := taken_of_answered hrun (List.mem_map_of_mem mem)
  rw [unheard_of_absent hrun absent] at taken
  exact absurd taken (by simp [requestsTaken])

/-- A request that was taken has a place for its answer. -/
theorem place_of_taken (hrun : run actions { setup, files, view } = some s) {c : Connection}
    (conn : s.connection? i = some c) {asked : Asked}
    (taken : (requestsTaken (connectionHistory i actions { setup, files, view }))[j]? = some asked) :
    j < c.requests.length := by
  rw [(Connection.requested_of_run (connection_run hrun conn)).length]
  exact length_of_getElem? taken

/-- Who is about to answer a request finds its id, and answers under it. -/
theorem acts_of_asked {outcome : Outcome} {c : Connection}
    (hrun : run actions { setup, files, view } = some s)
    (inv : Tended (connectionHistory i actions { setup, files, view })
      (answersOn i actions { setup, files, view }) c) (conn : s.connection? i = some c)
    (asked : s.question? task = some (.respond i j outcome)) :
    ∃ id, c.requests[j]? = some (some id) ∧
      s.actionOn i (.advance task) = some (.answer j outcome) := by
  obtain ⟨unanswered, method, params, begun⟩ := unanswered_of_asked hrun asked
  obtain ⟨id, taken⟩ := taken_of_origin hrun begun
  obtain ⟨id, stands⟩ := inv.stands j (place_of_taken hrun conn taken) unanswered
  refine ⟨id, stands, ?_⟩
  have answers := (Connection.answers_of_id outcome stands).1
  simp only [actionOn, conn, asked, Option.bind_some, clientAction, answers, and_self, if_true]

/-- Who is about to answer a request has a connection to answer on. -/
theorem present_of_asked {outcome : Outcome} (hrun : run actions { setup, files, view } = some s)
    (asked : s.question? task = some (.respond i j outcome)) : ∃ c, s.connection? i = some c := by
  obtain ⟨-, method, params, begun⟩ := unanswered_of_asked hrun asked
  obtain ⟨id, taken⟩ := taken_of_origin hrun begun
  refine Option.ne_none_iff_exists'.mp fun absent => ?_
  rw [unheard_of_absent hrun absent] at taken
  exact absurd taken (by simp [requestsTaken])

/-- Unless a task is told of it, nothing is answered on a connection. -/
theorem quiet_of_untold {c : Connection} (hstep : d.step a = some s)
    (untold : ((d.told? a).bind fun (_, e) => e.answer? i) = none)
    (conn : d.connection? i = some c) (outcome : Outcome) :
    d.actionOn i a ≠ some (.answer j outcome) := by
  intro acts
  obtain ⟨task, heard⟩ := told_of_answer hstep conn acts
  have answers : (⟨.respond i j outcome, ()⟩ : Exchange).answer? i = some (j, outcome) :=
    answer?_iff.mpr rfl
  rw [heard] at untold
  exact absurd (answers.symm.trans untold) (by simp)

/-- In every run the places without an answer hold their ids, and the responses are the answers. -/
theorem tended_of_run (hrun : run actions { setup, files, view } = some s) {c : Connection}
    (conn : s.connection? i = some c) :
    Tended (connectionHistory i actions { setup, files, view })
      (answersOn i actions { setup, files, view }) c := by
  -- by the last action: it answers here, or whatever stands here stays
  induction actions using List.reverseRecOn generalizing s c with
  | nil =>
    obtain rfl := Option.some.inj hrun
    exact absurd conn (by simp [connection?])
  | append_singleton actions a ih =>
    obtain ⟨d, before, hstep⟩ := run_snoc hrun
    have acted := acted_of_step before hstep i
    rw [answersOn_snoc i before hstep, connectionHistory_snoc before hstep]
    rw [conn] at acted
    -- whether this action answers a request of the server
    cases now : (d.told? a).bind fun (_, e) => e.answer? i with
    | some answer =>
      obtain ⟨task, heard⟩ := told_of_answer? now
      obtain ⟨rfl, asked, -⟩ := reply_of_told hstep heard rfl (by simp)
      obtain ⟨c₀, old⟩ := present_of_asked before asked
      obtain ⟨id, -, acts⟩ := acts_of_asked before (ih before old) old asked
      rw [old, acts] at acted
      rw [old, acts, connectionHappening_some]
      cases acted with
      | step goes =>
        exact (ih before old).answer (Connection.requested_of_run (connection_run before old)) goes
    | none =>
      have other := fun j c₀ conn => quiet_of_untold (j := j) (c := c₀) hstep now conn
      rw [Option.toList_none, List.append_nil]
      generalize old : d.connection? i = c₀ at acted other
      generalize d.actionOn i a = act at acted other
      cases acted with
      | same =>
        simp only [connectionHappening, Option.bind_none, Option.bind_some, Option.toList_none,
          List.append_nil]
        exact ih before old
      | born =>
        rw [unanswered_of_absent before old, unheard_of_absent before old]
        exact ⟨fun place inside => absurd inside (by simp), fun _ => rfl⟩
      | step goes =>
        refine (ih before old).quiet goes (fun place answered => ?_) fun place outcome same => ?_
        · obtain ⟨asked, taken⟩ := taken_of_answered before answered
          exact length_of_getElem? taken
        · exact other place _ rfl outcome (congrArg some same)

/-- Who has found the answer to a request gives it in its next step, and it is queued under the
id of the request. -/
theorem queues_of_asked (hrun : run actions { setup, files, view } = some s) {c : Connection}
    (conn : s.connection? i = some c) (writing : c.writing = true) {outcome : Outcome} {id : Json}
    {method : String} {params : Json}
    (taken : (requestsTaken (connectionHistory i actions { setup, files, view }))[j]? =
      some (id, method, params))
    (asked : s.question? task = some (.respond i j outcome)) :
    ∃ s' c', s.step (.advance task) = some s' ∧ s'.connection? i = some c' ∧
      c'.written = c.written ∧ c'.queue = c.queue ++ [.response id outcome] := by
  obtain ⟨id', stands, -⟩ := acts_of_asked hrun (tended_of_run hrun conn) conn asked
  obtain ⟨_, _, same⟩ := (Connection.requested_of_run (connection_run hrun conn)).ids j id' stands
  obtain ⟨rfl, -⟩ := Prod.mk.inj (Option.some.inj (taken.symm.trans same))
  obtain ⟨t, next, here, question⟩ := task_of_question? asked
  have goes : s.step (.advance task) = some ((s.editConnection i fun c =>
      (c.answer j outcome).getD c).setProgram task (next ())) :=
    step_of_stepped (.replied here question rfl (by simp [mustPut]) rfl)
  refine ⟨_, (c.answer j outcome).getD c, goes, ?_, ?_⟩
  · show (s.editConnection i fun c => (c.answer j outcome).getD c).connection? i = _
    rw [connection?_editConnection, conn, Option.map_some, if_pos rfl]
  · simp [Connection.answer, Connection.enqueue, stands, writing]

/-! ## One response for each request -/

/-- The answer that was given at a place. -/
def outcomeAt (answers : List (Nat × Outcome)) (place : Nat) : Option Outcome :=
  (answers.find? fun answer => answer.1 = place).map (·.2)

section

variable {answers : List (Nat × Outcome)} {taken : List Asked}

/-- Where no place is answered twice, the outcome at a place is the answer given. -/
theorem outcomeAt_iff (nodup : (answers.map Prod.fst).Nodup) {outcome : Outcome} :
    outcomeAt answers j = some outcome ↔ (j, outcome) ∈ answers := by
  constructor
  · intro found
    obtain ⟨⟨place, outcome'⟩, first, rfl⟩ := Option.map_eq_some_iff.mp found
    obtain rfl : place = j := by simpa using List.find?_some first
    exact List.mem_of_find?_eq_some first
  · intro mem
    cases first : answers.find? fun answer => answer.1 = j with
    | none => exact absurd (List.find?_eq_none.mp first _ mem) (by simp)
    | some answer =>
      have here : answer.1 = j := by simpa using List.find?_some first
      have one := List.inj_on_of_nodup_map nodup (List.mem_of_find?_eq_some first) mem here
      rw [outcomeAt, first, one]
      rfl

/-- Answers at different places are, in some order, those at one place after the other. -/
theorem answers_perm {n : Nat} (nodup : (answers.map Prod.fst).Nodup)
    (within : ∀ place ∈ answers.map Prod.fst, place < n) :
    answers.Perm ((List.range n).filterMap fun place =>
      (outcomeAt answers place).map fun outcome => (place, outcome)) := by
  refine (List.perm_ext_iff_of_nodup nodup.of_map (List.nodup_range.filterMap ?_)).mpr ?_
  · intro place place' answer here there
    obtain ⟨_, -, rfl⟩ := Option.map_eq_some_iff.mp here
    obtain ⟨_, -, same⟩ := Option.map_eq_some_iff.mp there
    exact (congrArg Prod.fst same).symm
  · rintro ⟨place, outcome⟩
    rw [← outcomeAt_iff nodup, List.mem_filterMap]
    constructor
    · intro given
      have inside := within place (List.mem_map_of_mem ((outcomeAt_iff nodup).mp given))
      exact ⟨place, List.mem_range.mpr inside, by rw [given, Option.map_some]⟩
    · rintro ⟨place', -, given⟩
      obtain ⟨_, found, same⟩ := Option.map_eq_some_iff.mp given
      obtain ⟨rfl, rfl⟩ := Prod.mk.inj same
      exact found

/-- Whatever the order of the answers, what they go out as is one response for each place that
is answered. -/
theorem responses_perm (nodup : (answers.map Prod.fst).Nodup)
    (within : ∀ place ∈ answers.map Prod.fst, place < taken.length) :
    (answers.filterMap (responseTo taken)).Perm (taken.zipIdx.filterMap fun (asked, place) =>
      (outcomeAt answers place).map (Message.response asked.1)) := by
  have places : List.range taken.length = taken.zipIdx.map Prod.snd := by
    rw [List.zipIdx_map_snd, List.range_eq_range']
  refine ((answers_perm nodup within).filterMap (responseTo taken)).trans (.of_eq ?_)
  rw [places, List.filterMap_map, List.filterMap_filterMap]
  refine List.filterMap_congr ?_
  rintro ⟨asked, place⟩ mem
  have here : taken[place]? = some asked := List.mk_mem_zipIdx_iff_getElem?.mp mem
  simp only [Function.comp_apply]
  cases outcomeAt answers place with
  | none => rfl
  | some outcome => simp [responseTo, here]

end

/-- A task serves the request at a place: it alone was begun for it, it is done once it has
answered with what it found, and not before. -/
structure Serves (actions : List Action) (start s : Session) (i place : Nat) (method : String)
    (params : Json) (task : Nat) (outcome : Option Outcome) : Prop where
  begun : (origins actions start)[task]? = some (.request i place method params)
  alone : ∀ u method' params',
    (origins actions start)[u]? = some (.request i place method' params') → u = task
  busy : outcome = none → s.result? task = none
  found : ∀ o, outcome = some o → s.result? task = some .nothing ∧ ∃ first,
    dialogue task actions start = first ++ [⟨.respond i place o, ()⟩] ∧
      Gives start.setup (Handler.answer start.setup method params) first o

/-- Each request that was taken has a task that serves it. -/
theorem serves_of_taken (hrun : run actions { setup, files, view } = some s) {id : Json}
    {method : String} {params : Json}
    (taken : (requestsTaken (connectionHistory i actions { setup, files, view }))[j]? =
      some (id, method, params)) :
    ∃ task, Serves actions { setup, files, view } s i j method params task
      (outcomeAt (answersOn i actions { setup, files, view }) j) := by
  obtain ⟨task, begun⟩ := task_of_taken hrun taken
  -- whoever answers at this place was begun for it, and there is one such task
  have alone : ∀ u method' params', (origins actions { setup, files, view })[u]? =
      some (.request i j method' params') → u = task :=
    fun u method' params' begun' => task_unique hrun begun' begun
  have nodup := answered_nodup hrun i
  obtain ⟨t, here, leads⟩ := task_of_begun rfl hrun begun
  rcases leads_of_request leads with ⟨q, looking, program⟩ | ⟨first, outcome, told, found, program⟩
  · -- the task has not come to its answer
    have unanswered : outcomeAt (answersOn i actions { setup, files, view }) j = none := by
      by_contra some
      obtain ⟨outcome, given⟩ := Option.ne_none_iff_exists'.mp some
      obtain ⟨u, told⟩ := (mem_answersOn hrun).mp ((outcomeAt_iff nodup).mp given)
      obtain ⟨method', params', begun'⟩ := origin_of_respond hrun told
      obtain rfl := alone u method' params' begun'
      exact unanswered_of_leads looking told
    rw [unanswered]
    refine ⟨task, begun, alone, fun _ => ?_, fun o given => absurd given (by simp)⟩
    rw [result?, here, Option.map_some, program]
    cases q <;> rfl
  · -- it has answered, with the last thing that it did
    have given : outcomeAt (answersOn i actions { setup, files, view }) j = some outcome := by
      refine (outcomeAt_iff nodup).mpr ((mem_answersOn hrun).mpr ⟨task, ?_⟩)
      rw [told]
      exact List.mem_append_right _ (List.mem_singleton_self _)
    rw [given]
    refine ⟨task, begun, alone, fun none => absurd none (by simp), fun o same => ?_⟩
    obtain rfl := Option.some.inj same
    refine ⟨?_, first, told, found⟩
    rw [result?, here, Option.map_some, program]

/-- Whatever message stands at the front of the output of a server, its reader takes it and
goes on behind it, and nothing is queued for the server. -/
theorem reads_of_front (hrun : run actions { setup, files, view } = some s) {c : Connection}
    (conn : s.connection? i = some c) {m : Message} {rest : Text.Bytes}
    (reading : c.reader = .reading)
    (front : Frame.read c.inputEnded c.input = .message m rest) :
    ∃ s' c', s.step (.connection i .read) = some s' ∧ s'.connection? i = some c' ∧
      c'.reader = .reading ∧ c'.input = rest ∧ c'.writing = c.writing ∧ c'.written = c.written ∧
      c'.queue = c.queue ∧
      requestsTaken (connectionHistory i (actions ++ [.connection i .read])
        { setup, files, view }) =
        requestsTaken (connectionHistory i actions { setup, files, view }) ++
          m.request?.toList := by
  obtain ⟨c', events, goes, took, reads, input, written, queue, writing⟩ :=
    Connection.reads_on reading front
  have hstep : s.step (.connection i .read) =
      some (events.foldl (take i) (s.editConnection i fun _ => c')) :=
    step_of_stepped (.acts conn rfl nofun goes)
  refine ⟨_, c', hstep, ?_, reads, input, writing, written, queue, ?_⟩
  · rw [connection?_of_servers (servers_takes i events _), connection?_editConnection, conn,
      Option.map_some, if_pos rfl]
  · have does : s.actionOn i (.connection i .read) = some .read := by
      simp only [actionOn, conn, Option.bind_some, if_true]
    rw [connectionHistory_snoc hrun hstep, conn, does, connectionHappening_some, took,
      Connection.requestsTaken_append]
    rfl

/-- **Every request is answered once.** In every run of a session, whatever a server says and
in whatever order the tasks of the client go on, as long as the writer is there:

- What was sent or waits to be sent to the server as a response is, in some order, one
  response for each request that was taken from it and is answered, with the id of that
  request.
- No request has null for its id. It is served by one task, and answered once that task is
  done, with what this task found; a task that has found the answer gives it in its next step.
- A message is a request if it has a method and an id. Whatever message comes next, the reader
  takes it and goes on behind it; a request is taken with it if it is one, and none otherwise,
  and nothing is sent.
- A response has the id that it is given and the outcome in its result or its error. It has no
  method, and that makes it a response. -/
theorem requests_answered_once (hrun : run actions { setup, files, view } = some s)
    {c : Connection} (conn : s.connection? i = some c) (writing : c.writing = true) :
    let start : Session := { setup, files, view }
    let taken := requestsTaken (connectionHistory i actions start)
    ∃ outcome : Nat → Option Outcome,
      ((c.written ++ c.queue).filter Message.isAnswer).Perm
        (taken.zipIdx.filterMap fun (asked, place) =>
          (outcome place).map (Message.response asked.1)) ∧
      (∀ place id method params, taken[place]? = some (id, method, params) → id ≠ .null ∧
        ∃ task, Serves actions start s i place method params task (outcome place) ∧
          ∀ o, s.question? task = some (.respond i place o) →
            ∃ s' c', s.step (.advance task) = some s' ∧ s'.connection? i = some c' ∧
              c'.written = c.written ∧ c'.queue = c.queue ++ [.response id o]) ∧
      (∀ m rest, c.reader = .reading → Frame.read c.inputEnded c.input = .message m rest →
        (∀ id method params, m.request? = some (id, method, params) ↔
          m.id = some id ∧ m.method = some method ∧ params = m.params.getD .null) ∧
        ∃ s' c', s.step (.connection i .read) = some s' ∧ s'.connection? i = some c' ∧
          c'.reader = .reading ∧ c'.input = rest ∧ c'.writing = true ∧ c'.written = c.written ∧
          c'.queue = c.queue ∧
          requestsTaken (connectionHistory i (actions ++ [.connection i .read]) start) =
            taken ++ m.request?.toList) ∧
      (∀ id o, (Message.response id o).Responds id o) ∧
      ∀ m : Message, m.isAnswer = true ↔ m.method = none := by
  intro start taken
  have onConnection := connection_run hrun conn
  refine ⟨outcomeAt (answersOn i actions start), ?_, ?_, ?_, Message.responds_response,
    fun _ => Option.isNone_iff_eq_none⟩
  · -- while the writer lives all answers are written or queued, each under the id at its place
    rw [Connection.responses_of_run onConnection writing]
    refine (List.Perm.of_eq ((tended_of_run hrun conn).complete writing)).trans ?_
    refine responses_perm (answered_nodup hrun i) fun place answered => ?_
    obtain ⟨asked, here⟩ := taken_of_answered hrun answered
    exact length_of_getElem? here
  · intro place id method params here
    obtain ⟨task, serves⟩ := serves_of_taken hrun here
    refine ⟨Connection.ids_of_run onConnection _ (List.mem_of_getElem? here), task, serves, ?_⟩
    exact fun o asked => queues_of_asked hrun conn writing here asked
  · intro m rest reading front
    refine ⟨fun _ _ _ => Message.request?_iff, ?_⟩
    rw [← writing]
    exact reads_of_front hrun conn reading front

/-- A server comes up and makes two requests under one id, with a message between them that is
none. The second request is answered first. -/
def askedTwice : List Action :=
  let comes (m : Message) : Action := .connection 0 (.receive (Frame.encode m))
  List.flatten [[.begin .start], List.replicate 7 (.advance 0), [.launched 0 (.ok ())],
    [comes (.request 7 "client/registerCapability" .null), comes {}, comes (.request 7 "x" .null)],
    List.replicate 3 (.connection 0 .read), [.advance 2, .advance 1]]

/-- `requests_answered_once` where both requests have the same id: each of them has its own
answer under it. -/
theorem requests_answered_once_twice :
    ∃ s c id id' params params' o o' t t',
      run askedTwice { setup := bareSetup } = some s ∧ s.connection? 0 = some c ∧
      id.word? = some 7 ∧ id'.word? = some 7 ∧
      ((c.written ++ c.queue).filter Message.isAnswer).Perm [.response id o, .response id' o'] ∧
      Serves askedTwice { setup := bareSetup } s 0 0 "client/registerCapability" params t (some o) ∧
      Serves askedTwice { setup := bareSetup } s 0 1 "x" params' t' (some o') := by
  have answers : ((run askedTwice { setup := bareSetup }).any fun s => (s.connection? 0).any fun c =>
      c.writing && ((c.written ++ c.queue).filter Message.isAnswer).length == 2) = true := by
    decide +kernel
  have requests : (requestsTaken (connectionHistory 0 askedTwice { setup := bareSetup })).map
      (fun asked => (asked.1.word?, asked.2.1)) =
        [(some 7, "client/registerCapability"), (some 7, "x")] := by
    decide +kernel
  obtain ⟨s, hrun, there⟩ := (Option.any_eq_true _ _).mp answers
  obtain ⟨c, conn, both⟩ := (Option.any_eq_true _ _).mp there
  obtain ⟨writing, two⟩ := Bool.and_eq_true_iff.mp both
  obtain ⟨⟨id, method, params⟩, _, taken, one, rest⟩ := List.map_eq_cons_iff.mp requests
  obtain ⟨⟨id', method', params'⟩, rfl, other⟩ := List.map_eq_singleton_iff.mp rest
  obtain ⟨word, rfl⟩ := Prod.mk.inj one
  obtain ⟨word', rfl⟩ := Prod.mk.inj other
  obtain ⟨outcome, responses, served, -⟩ := requests_answered_once hrun conn writing
  obtain ⟨-, t, first, -⟩ := served 0 id _ params (by rw [taken]; rfl)
  obtain ⟨-, t', second, -⟩ := served 1 id' _ params' (by rw [taken]; rfl)
  rw [taken] at responses
  -- two responses are there, so neither request is left without one
  have length := responses.length_eq.symm.trans (eq_of_beq two)
  cases some : outcome 0 with
  | none => cases some' : outcome 1 <;> simp [some, some'] at length
  | some o =>
    cases some' : outcome 1 with
    | none => simp [some, some'] at length
    | some o' =>
      simp only [List.zipIdx_cons, List.zipIdx_nil, List.filterMap_cons, List.filterMap_nil,
        some, some', Option.map_some, Nat.zero_add] at responses
      exact ⟨s, c, id, id', params, params', o, o', t, t', hrun, conn, word, word', responses,
        some ▸ first, some' ▸ second⟩

end EmberClient.Session
