import EmberClient.Proofs.Connection.Ending

/-!
# Who asks under which id, and what is answered

The reader hands each request of the server on by its place among those that it took.
`requestsTaken` reads them off the history. Whatever is answered at a place goes out under
the id of the request that was taken there, and nothing but an answer to a request goes
out without a method.

The client's own requests go out under the ids that their callers were given (`Named`).
-/

namespace EmberClient

/-- A request as it came: its id, its method and its parameters. -/
abbrev Asked := Json × String × Json

/-- The request that a message is. -/
def Message.request? (m : Message) : Option Asked :=
  match m.incoming with
  | .ok (.request id method params) => some (id, method, params)
  | _ => none

/-- The id that a caller was given, while it can still need it. -/
def Caller.id? : Caller → Option UInt64
  | .numbered id _ _ | .entered id _ _ | .admitted id _ _ | .refused id | .waiting id => some id
  | _ => none

namespace Connection

/-- The request that is taken when this happens. -/
def takenRequest? : Happening → Option Asked
  | .took m => m.request?
  | _ => none

/-- The requests that the reader took, in order. -/
def requestsTaken (h : List Happening) : List Asked := h.filterMap takenRequest?

/-- What happens next adds at most one request to those taken. -/
theorem requestsTaken_append (h : List Happening) (e : Option Happening) :
    requestsTaken (h ++ e.toList) = requestsTaken h ++ (e.bind takenRequest?).toList :=
  filterMap_append_toList takenRequest? h e

/-- Each place holds the id of the request that was taken there, or is answered. -/
structure Requested (h : List Happening) (c : Connection) : Prop where
  length : c.requests.length = (requestsTaken h).length
  ids : ∀ (place : Nat) (id : Json), c.requests[place]? = some (some id) →
    ∃ method params, (requestsTaken h)[place]? = some (id, method, params)

theorem requested_start : Requested [] {} := ⟨rfl, fun place id stands => absurd stands (by simp)⟩

/-- Nothing is taken, and the places stay, but for one that may be answered. -/
theorem Requested.same {h : List Happening} {c c' : Connection} {e : Option Happening}
    (inv : Requested h c) (silent : e.bind takenRequest? = none)
    (length : c'.requests.length = c.requests.length)
    (old : ∀ (place : Nat) (id : Json), c'.requests[place]? = some (some id) →
      c.requests[place]? = some (some id)) : Requested (h ++ e.toList) c' := by
  have all : requestsTaken (h ++ e.toList) = requestsTaken h := by
    rw [requestsTaken_append, silent, Option.toList_none, List.append_nil]
  refine ⟨?_, fun place id stands => ?_⟩
  · rw [all, length]
    exact inv.length
  · rw [all]
    exact inv.ids place id (old place id stands)

/-- A message adds a place for an answer if it is a request. -/
theorem accept_requests (c : Connection) (m : Message) :
    (c.accept m).1.requests = c.requests ++ (m.request?.map fun (id, _) => some id).toList := by
  unfold accept Message.request?
  split
  · next id outcome incoming =>
    rw [incoming]
    unfold deliver
    split
    · exact (List.append_nil _).symm
    · split
      · exact (List.append_nil _).symm
      · exact (List.append_nil _).symm
  · next incoming =>
    rw [incoming]
    rfl
  · next incoming =>
    rw [incoming]
    exact (List.append_nil _).symm
  · next incoming =>
    rw [incoming]
    exact (List.append_nil _).symm

/-- A request that is taken stands at the place after all that were taken before it. -/
theorem Requested.took {h : List Happening} {c c' : Connection} {m : Message}
    (inv : Requested h c)
    (requests : c'.requests = c.requests ++ (m.request?.map fun (id, _) => some id).toList) :
    Requested (h ++ [.took m]) c' := by
  have all : requestsTaken (h ++ [.took m]) = requestsTaken h ++ m.request?.toList :=
    requestsTaken_append h (some (.took m))
  refine ⟨?_, fun place id stands => ?_⟩
  · rw [requests, all, List.length_append, List.length_append, inv.length]
    cases m.request? <;> rfl
  · rw [requests, List.getElem?_append] at stands
    rw [all, List.getElem?_append, ← inv.length]
    split at stands
    · next inside =>
      rw [if_pos inside]
      exact inv.ids place id stands
    · next outside =>
      rw [if_neg outside]
      cases asked : m.request? with
      | none => exact absurd stands (by simp [asked])
      | some request =>
        obtain ⟨id', method, params⟩ := request
        simp only [asked, Option.map_some, Option.toList_some] at stands
        have here := List.mem_singleton.mp (List.mem_of_getElem? stands)
        -- one place is new, so this is the first after the old ones
        have last := (List.getElem?_eq_some_iff.mp stands).1
        rw [List.length_singleton] at last
        refine ⟨method, params, ?_⟩
        rw [show place - c.requests.length = 0 by omega, Option.some.inj here]
        rfl

/-- A place that is answered holds no id any more. -/
theorem id_of_set {requests : List (Option Json)} {place place' : Nat} {id : Json}
    (stands : (requests.set place none)[place']? = some (some id)) :
    requests[place']? = some (some id) := by
  rcases getElem?_set_cases stands with ⟨-, same⟩ | ⟨-, old⟩
  · contradiction
  · exact old

/-- Every action keeps the places for answers in step with the requests taken. -/
theorem requested_step {h : List Happening} {c c' : Connection} {a : Action}
    {events : List Event} (inv : Requested h c) (hstep : c.step a = some (c', events)) :
    Requested (h ++ (c.happening a).toList) c' := by
  have stepped := stepped_of_step hstep
  generalize c.happening a = e at stepped ⊢
  -- only the reader adds places and only an answer empties one; all else leaves them alone
  cases stepped with
  | @takes m rest => exact inv.took (accept_requests { c with input := rest } m)
  | answers | forfeits => exact inv.same rfl List.length_set fun _ _ stands => id_of_set stands
  | _ => exact inv.same rfl rfl fun _ _ stands => stands

theorem requested_of_run {actions : List Action} {c : Connection}
    (hrun : run actions {} = some c) : Requested (history actions {}) c := by
  have inv := run_keeps requested_step requested_start hrun
  rwa [List.nil_append] at inv

/-- Whatever is answered is answered at a place that holds the id. -/
theorem responded_of_step {c : Connection} {a : Action} {m : Message}
    (happens : c.happening a = some (.responded m)) :
    ∃ place outcome id, a = .answer place outcome ∧ c.requests[place]? = some (some id) ∧
      m = .response id outcome := by
  obtain ⟨c', events, stepped⟩ := stepped_of_happening happens
  cases stepped with
  | answers outcome stands => exact ⟨_, _, _, rfl, stands, rfl⟩

/-- An answer empties the place that it is given at, which held an id. -/
theorem place_of_answer {c c' : Connection} {place : Nat} {outcome : Outcome}
    {events : List Event} (hstep : c.step (.answer place outcome) = some (c', events)) :
    ∃ id, c.requests[place]? = some (some id) ∧ c'.requests = c.requests.set place none := by
  have stepped := stepped_of_step hstep
  generalize c.happening (.answer place outcome) = e at stepped
  cases stepped with
  | answers _ stands | forfeits _ stands => exact ⟨_, stands, rfl⟩

/-- What the client says of its own accord has a method. -/
theorem method_of_own {c : Connection} {a : Action} {e : Happening} {m : Message}
    (happens : c.happening a = some e) (spoken : own e = some m) : m.method.isSome = true := by
  obtain ⟨c', events, stepped⟩ := stepped_of_happening happens
  cases stepped with
  | queues | notifies =>
    obtain rfl := Option.some.inj spoken
    rfl
  | _ => contradiction

/-- What goes out without a method is an answer. -/
theorem responded_of_sent {actions : List Action} {c : Connection} {m : Message}
    (hrun : run actions {} = some c) (out : m ∈ sent (history actions {}))
    (answer : m.method = none) : .responded m ∈ history actions {} := by
  have methods : ∀ e ∈ history actions {}, ∀ m, own e = some m → m.method.isSome = true := by
    have inv := run_keeps (P := fun h _ => ∀ e ∈ h, ∀ m, own e = some m → m.method.isSome = true)
      ?_ (fun e mem => absurd mem List.not_mem_nil) hrun
    · rwa [List.nil_append] at inv
    · intro h c c' a events old hstep e mem m spoken
      rcases List.mem_append.mp mem with before | new
      · exact old e before m spoken
      · exact method_of_own (Option.mem_toList.mp new) spoken
  obtain ⟨e, mem, queued⟩ := List.mem_filterMap.mp out
  cases e with
  | responded m' =>
    obtain rfl := Option.some.inj queued
    exact mem
  | requested place m' | notified m' =>
    obtain rfl := Option.some.inj queued
    have has := methods _ mem m' rfl
    rw [answer] at has
    exact absurd has (by simp)
  | _ => exact absurd queued (by simp [queued?])

/-! ## Under which id a caller asks -/

/-- Callers keep the ids that they were given, and ask under them. -/
structure Named (h : List Happening) (c : Connection) : Prop where
  stands : ∀ place caller id, c.callers[place]? = some caller → caller.id? = some id →
    .numbered place id ∈ h
  requested : ∀ place m, .requested place m ∈ h →
    ∃ id method params, m = .request id method params ∧ .numbered place id ∈ h

/-- A caller has its number from the happening that gave it. -/
theorem GoesOn.id? {c : Connection} {place : Nat} {old new : Caller} {e : Option Happening}
    {id : UInt64} (goes : c.GoesOn place old new e) (given : new.id? = some id) :
    old.id? = some id ∨ e = some (.numbered place id) := by
  cases goes with
  | number =>
    obtain rfl := Option.some.inj given
    exact Or.inr rfl
  | withdraw | resolve | abandon => exact absurd given (by simp [Caller.id?])
  | _ => exact Or.inl given

/-- What is requested bears the number that its caller was admitted with. -/
theorem Move.requests {c c' : Connection} {place : Nat} {m : Message}
    (move : Move c (some (.requested place m)) c') :
    ∃ id method params, m = .request id method params ∧
      c.callers[place]? = some (.admitted id method params) := by
  cases move with
  | request stands writing => exact ⟨_, _, _, rfl, stands⟩

/-- Every move keeps the numbers of callers those of the history. -/
theorem named_keep {h : List Happening} {c : Connection} {e : Option Happening}
    {c' : Connection} (inv : Named h c) (move : Move c e c') : Named (h ++ e.toList) c' := by
  constructor
  · intro place caller id now given
    rcases move.stood_or_came now with stood | ⟨_, _, rfl⟩ | ⟨old, stood, goes⟩
    · exact List.mem_append_left _ (inv.stands place caller id stood given)
    · exact absurd given (by simp [Caller.id?])
    · rcases goes.id? given with before | new
      · exact List.mem_append_left _ (inv.stands place old id stood before)
      · exact List.mem_append_right _ (Option.mem_toList.mpr new)
  · intro place m mem
    rcases List.mem_append.mp mem with old | new
    · obtain ⟨id, method, params, rfl, numbered⟩ := inv.requested place m old
      exact ⟨id, method, params, rfl, List.mem_append_left _ numbered⟩
    · obtain rfl := Option.mem_toList.mp new
      obtain ⟨id, method, params, rfl, stood⟩ := move.requests
      exact ⟨id, method, params, rfl, List.mem_append_left _ (inv.stands place _ id stood rfl)⟩

theorem named_of_run {actions : List Action} {c : Connection} (hrun : run actions {} = some c) :
    Named (history actions {}) c := by
  refine run_induct ⟨?_, ?_⟩ named_keep hrun
  · exact fun place caller id stands => absurd stands (by simp)
  · exact fun place m mem => absurd mem List.not_mem_nil

end Connection

end EmberClient
