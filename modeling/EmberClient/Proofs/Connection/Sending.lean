import EmberClient.Proofs.Connection.Matching

/-!
# What the client says on a connection

`sent` lists the messages that were queued for the server, `said` those among them that
the client sends of its own accord: its requests and notifications, not its answers.
What the server has been sent is an initial part of `sent`.
-/

namespace EmberClient.Connection

/-- What is queued when this happens. -/
def queued? : Happening → Option Message
  | .requested _ m | .notified m | .responded m => some m
  | _ => none

/-- The messages that were queued, in order. -/
def sent (h : List Happening) : List Message := h.filterMap queued?

/-- What the client says of its own accord when this happens. -/
def own : Happening → Option Message
  | .requested _ m | .notified m => some m
  | _ => none

/-- What the client said of its own accord, in order. -/
def said (h : List Happening) : List Message := h.filterMap own

/-- What happens next puts at most one message in the queue. -/
theorem sent_append (h : List Happening) (e : Option Happening) :
    sent (h ++ e.toList) = sent h ++ (e.bind queued?).toList :=
  filterMap_append_toList queued? h e

/-- The client says at most one thing at a time. -/
theorem said_append (h : List Happening) (e : Option Happening) :
    said (h ++ e.toList) = said h ++ (e.bind own).toList :=
  filterMap_append_toList own h e

/-! ## What the server is sent -/

/-- What waits for the writer follows what it has taken; both were queued, in this order.
Something is missing only when the writer is gone. -/
structure Sending (h : List Happening) (c : Connection) : Prop where
  ordered : c.written ++ c.queue <+: sent h
  complete : c.writing = true → c.written ++ c.queue = sent h

/-- Nothing is queued, and what waited is taken or still waits. -/
theorem Sending.same {h : List Happening} {c c' : Connection} {e : Option Happening}
    (inv : Sending h c) (silent : e.bind queued? = none)
    (messages : c'.written ++ c'.queue = c.written ++ c.queue) (writing : c'.writing = c.writing) :
    Sending (h ++ e.toList) c' := by
  have same : sent (h ++ e.toList) = sent h := by
    rw [sent_append, silent, Option.toList_none, List.append_nil]
  refine ⟨?_, ?_⟩
  · rw [same, messages]
    exact inv.ordered
  · rw [same, messages, writing]
    exact inv.complete

/-- What waited is lost, with the writer. -/
theorem Sending.lost {h : List Happening} {c c' : Connection} {e : Option Happening}
    (inv : Sending h c) (silent : e.bind queued? = none) (written : c'.written = c.written)
    (queue : c'.queue = []) (writing : c'.writing = false) : Sending (h ++ e.toList) c' := by
  refine ⟨?_, ?_⟩
  · rw [sent_append, silent, written, queue, Option.toList_none, List.append_nil, List.append_nil]
    exact (List.prefix_append _ _).trans inv.ordered
  · rw [writing]
    exact fun here => absurd here (by simp)

/-- A message is queued behind the others. -/
theorem Sending.enqueue {h : List Happening} {c c' : Connection} {e : Option Happening}
    {m : Message} (inv : Sending h c) (queued : e.bind queued? = some m)
    (writing : c.writing = true) (written : c'.written = c.written)
    (queue : c'.queue = c.queue ++ [m]) : Sending (h ++ e.toList) c' := by
  have all : c'.written ++ c'.queue = sent (h ++ e.toList) := by
    rw [sent_append, queued, written, queue, ← inv.complete writing, Option.toList_some,
      List.append_assoc]
  exact ⟨all ▸ List.prefix_refl _, fun _ => all⟩

/-- Taking a message leaves what is on the way to the server alone. -/
theorem accept_outgoing (c : Connection) (m : Message) :
    (c.accept m).1.written = c.written ∧ (c.accept m).1.queue = c.queue ∧
      (c.accept m).1.writing = c.writing := by
  obtain ⟨pending, answers, requests, same⟩ := accept_eq c m
  rw [same]
  exact ⟨rfl, rfl, rfl⟩

/-- Every action keeps what was sent in step with the queue and the writer. -/
theorem sending_step {h : List Happening} {c c' : Connection} {a : Action} {events : List Event}
    (inv : Sending h c) (hstep : c.step a = some (c', events)) :
    Sending (h ++ (c.happening a).toList) c' := by
  have stepped := stepped_of_step hstep
  generalize c.happening a = e at stepped ⊢
  cases stepped with
  | queues _ writing | notifies _ _ writing | answers _ _ writing =>
    exact inv.enqueue rfl writing rfl rfl
  | @takes m rest =>
    obtain ⟨written, queue, writing⟩ := accept_outgoing { c with input := rest } m
    exact inv.same rfl (congrArg₂ (· ++ ·) written queue) writing
  | writes _ queue => exact inv.same rfl (by simp [queue]) rfl
  | loses | letsGo => exact inv.lost rfl rfl rfl rfl
  | _ => exact inv.same rfl rfl rfl

theorem sending_of_run {actions : List Action} {c : Connection} (hrun : run actions {} = some c) :
    Sending (history actions {}) c := by
  have start : Sending [] {} := ⟨List.prefix_refl _, fun _ => rfl⟩
  exact run_keeps sending_step start hrun

/-- The server is sent what was queued, in this order, as far as it goes. -/
theorem written_of_run {actions : List Action} {c : Connection} (hrun : run actions {} = some c) :
    c.written <+: sent (history actions {}) :=
  (List.prefix_append _ _).trans (sending_of_run hrun).ordered

/-! ## Actions by which the client says nothing new -/

/-- The client neither begins a call nor sends a notification. -/
def isReticent : Action → Bool
  | .call .. | .notify .. => false
  | _ => true

/-- Beginning a call is the only way to come by a caller. -/
theorem callers_of_step {c c' : Connection} {a : Action} {events : List Event}
    (hstep : c.step a = some (c', events)) (other : ∀ method params, a ≠ .call method params) :
    c'.callers.length = c.callers.length := by
  have stepped := stepped_of_step hstep
  generalize c.happening a = e at stepped
  cases stepped with
  | calls => exact absurd rfl (other _ _)
  | @takes m rest => exact congrArg List.length (accept_fields { c with input := rest } m).1
  | _ => first | rfl | exact List.length_set ..

/-- No caller comes. -/
theorem callers_of_reticent {c c' : Connection} {a : Action} {events : List Event}
    (reticent : isReticent a = true) (hstep : c.step a = some (c', events)) :
    c'.callers.length = c.callers.length := by
  refine callers_of_step hstep ?_
  rintro method params rfl
  contradiction

/-- No notification is sent. -/
theorem not_notified_of_reticent {a : Action} (c : Connection) (reticent : isReticent a = true)
    (m : Message) : c.happening a ≠ some (.notified m) := by
  intro happens
  obtain ⟨c', events, stepped⟩ := stepped_of_happening happens
  cases stepped
  contradiction

/-! ## What a caller asks for -/

/-- The caller has sent this request, or is going to. -/
def Speaks (method : String) (params : Json) : Caller → Prop
  | .fresh m given | .numbered _ m given | .entered _ m given | .admitted _ m given =>
    m = method ∧ given = params
  | _ => True

/-- The call at this place is for this method, and nothing else is requested for it. -/
structure Carries (h : List Happening) (c : Connection) (place : Nat) (method : String)
    (params : Json) : Prop where
  stands : ∃ caller, c.callers[place]? = some caller ∧ Speaks method params caller
  requested : ∀ m, .requested place m ∈ h → ∃ id, m = .request id method params

/-- A caller that goes on keeps its method and its parameters. -/
theorem GoesOn.speaks {c : Connection} {place : Nat} {old new : Caller} {e : Option Happening}
    {method : String} {params : Json} (goes : c.GoesOn place old new e)
    (speaks : Speaks method params old) : Speaks method params new := by
  cases goes with
  | number | enter | letIn => exact speaks
  | _ => trivial

/-- A call that carries its parameters still does after a move. -/
theorem Carries.keep {h : List Happening} {c c' : Connection} {e : Option Happening} {place : Nat}
    {method : String} {params : Json} (inv : Carries h c place method params) (move : Move c e c') :
    Carries (h ++ e.toList) c' place method params := by
  obtain ⟨caller, stands, speaks⟩ := inv.stands
  refine ⟨?_, ?_⟩
  · rcases move.stands_or_goes stands with same | ⟨new, goes, now⟩
    · exact ⟨caller, same, speaks⟩
    · exact ⟨new, now, goes.speaks speaks⟩
  · intro m mem
    rcases List.mem_append.mp mem with old | new
    · exact inv.requested m old
    · obtain rfl := Option.mem_toList.mp new
      cases move with
      | @request place id m given stood writing =>
        rw [stood] at stands
        obtain rfl := Option.some.inj stands
        obtain ⟨rfl, rfl⟩ := speaks
        exact ⟨id, rfl⟩

/-- A new call is for what it was begun with. -/
theorem carries_of_call {h : List Happening} {c c' : Connection} {method : String} {params : Json}
    {events : List Event} (fresh : ∀ m, .requested c.callers.length m ∉ h)
    (hstep : c.step (.call method params) = some (c', events)) :
    Carries h c' c.callers.length method params := by
  obtain ⟨rfl, -⟩ := Prod.mk.inj (Option.some.inj hstep)
  refine ⟨⟨.fresh method params, ?_, rfl, rfl⟩, fun m mem => absurd mem (fresh m)⟩
  show (c.callers ++ _)[c.callers.length]? = _
  rw [List.getElem?_append_right (Nat.le_refl _), Nat.sub_self]
  rfl

end EmberClient.Connection
