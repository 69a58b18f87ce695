import EmberClient.Proofs.Connection.Steps
import EmberClient.Proofs.History

/-!
# What happens on a connection

`Connection.run` tells where a sequence of actions leads, `history` what happened on the way.

`Move` says what a single action can do to the callers and to closing. Every invariant that is
about these is one case analysis over it, and `run_induct` turns what each move keeps into what
holds after every run.
-/

namespace EmberClient

/-- How far a caller is. -/
def Caller.stage : Caller → Nat
  | .fresh _ _ => 0
  | .numbered _ _ _ => 1
  | .entered _ _ _ => 2
  | .admitted _ _ _ => 3
  | .refused _ | .waiting _ => 4
  | .finished _ | .abandoned => 5

theorem Caller.stage_le (caller : Caller) : caller.stage ≤ 5 := by
  cases caller <;> simp [Caller.stage]

namespace Connection

open Text

/-- What happened in a sequence of actions, up to the first that is not possible. -/
def history : List Action → Connection → List Happening
  | [], _ => []
  | a :: rest, c =>
    match c.step a with
    | some (c', _) => (c.happening a).toList ++ history rest c'
    | none => []

/-! ## Moves -/

/-- The parts of a connection that callers and closing depend on are the same. -/
structure SameCore (c c' : Connection) : Prop where
  nextId : c'.nextId = c.nextId
  pending : c'.pending = c.pending
  answers : c'.answers = c.answers
  closed : c'.closed = c.closed
  callers : c'.callers = c.callers
  release : c'.release = c.release
  /-- The reader may have died, but it has not moved on. -/
  reader : c'.reader = c.reader ∨ c'.reader = .dead

/-- What one action can do: what happens in it, and what comes of it. -/
inductive Move (c : Connection) : Option Happening → Connection → Prop where
  | call (method : String) (params : Json) :
    Move c none { c with callers := c.callers ++ [.fresh method params] }
  | number {place : Nat} {method : String} {params : Json}
      (stands : c.callers[place]? = some (.fresh method params)) :
    Move c (some (.numbered place c.nextId))
      { c with
        nextId := c.nextId + 1
        callers := c.callers.set place (.numbered c.nextId method params) }
  | enter {place : Nat} {id : UInt64} {method : String} {params : Json}
      (stands : c.callers[place]? = some (.numbered id method params)) :
    Move c (some (.entered place id))
      { c.enter id place with callers := c.callers.set place (.entered id method params) }
  | look {place : Nat} {id : UInt64} {method : String} {params : Json}
      (stands : c.callers[place]? = some (.entered id method params)) :
    Move c (some (.looked place c.closed))
      { c with
        callers := c.callers.set place
          (if c.closed then .refused id else .admitted id method params) }
  | request {place : Nat} {id : UInt64} {method : String} {params : Json}
      (stands : c.callers[place]? = some (.admitted id method params)) (writing : c.writing = true) :
    Move c (some (.requested place (.request id method params)))
      { c with
        queue := c.queue ++ [.request id method params]
        callers := c.callers.set place (.waiting id) }
  | fail {place : Nat} {id : UInt64} {method : String} {params : Json}
      (stands : c.callers[place]? = some (.admitted id method params)) (gone : c.writing = false) :
    Move c none { c with callers := c.callers.set place (.refused id) }
  | withdraw {place : Nat} {id : UInt64} (stands : c.callers[place]? = some (.refused id)) :
    Move c (some (.resolved place (.error .connectionClosed)))
      { c.withdraw id with
        callers := c.callers.set place (.finished (.error .connectionClosed)) }
  | resolve {place : Nat} {id : UInt64} {a : Answer}
      (stands : c.callers[place]? = some (.waiting id)) (answer : c.answer? place = some a) :
    Move c (some (.resolved place a.result))
      { c with
        answers := c.answers.filter fun a => a.1 ≠ place
        callers := c.callers.set place (.finished a.result) }
  | abandon {place : Nat} {id : UInt64} (stands : c.callers[place]? = some (.waiting id)) :
    Move c none { c with callers := c.callers.set place .abandoned }
  | take {m : Message} {rest : Bytes} (reading : c.reader = .reading)
      (read : Frame.read c.inputEnded c.input = .message m rest) :
    Move c (some (.took m)) ({ c with input := rest }.accept m).1
  | endRead (reading : c.reader = .reading) :
    Move c (some (.marked .reader)) { c.markClosed with reader := .closing }
  | clearRead (closing : c.reader = .closing) :
    Move c (some (.cleared .reader)) { c.clearPending with reader := .ended }
  | letGo (held : c.release = .held) :
    Move c none
      { c with
        release := .stopping
        reader := if c.reader = .reading then .ended else c.reader
        writing := false
        queue := [] }
  | markRelease (stopping : c.release = .stopping) :
    Move c (some (.marked .release)) { c.markClosed with release := .closing }
  | clearRelease (closing : c.release = .closing) :
    Move c (some (.cleared .release)) { c.clearPending with release := .released }
  | notify {m : Message} {c' : Connection} (same : SameCore c c') : Move c (some (.notified m)) c'
  | respond {m : Message} {c' : Connection} (same : SameCore c c') : Move c (some (.responded m)) c'
  | quiet {c' : Connection} (same : SameCore c c') : Move c none c'

/-- **Every action is a move.** -/
theorem move_of_step {c c' : Connection} {a : Action} {events : List Event}
    (hstep : c.step a = some (c', events)) : Move c (c.happening a) c' := by
  have stepped := stepped_of_step hstep
  generalize c.happening a = e at stepped ⊢
  cases stepped with
  | calls method params => exact .call method params
  | numbers stands => exact .number stands
  | enters stands => exact .enter stands
  | looks stands => exact .look stands
  | queues stands writing => exact .request stands writing
  | fails stands gone => exact .fail stands gone
  | withdraws stands => exact .withdraw stands
  | resolves stands answer => exact .resolve stands answer
  | abandons stands => exact .abandon stands
  | takes reading front => exact .take reading front
  | ends reading | breaks reading => exact .endRead reading
  | clears closing => exact .clearRead closing
  | letsGo held => exact .letGo held
  | marksRelease stopping => exact .markRelease stopping
  | clearsRelease closing => exact .clearRelease closing
  | notifies => exact .notify ⟨rfl, rfl, rfl, rfl, rfl, rfl, Or.inl rfl⟩
  | answers => exact .respond ⟨rfl, rfl, rfl, rfl, rfl, rfl, Or.inl rfl⟩
  | dies => exact .quiet ⟨rfl, rfl, rfl, rfl, rfl, rfl, Or.inr rfl⟩
  | _ => exact .quiet ⟨rfl, rfl, rfl, rfl, rfl, rfl, Or.inl rfl⟩

/-! ## What a move does to the callers -/

/-- What stands at a place after another place, or this one, was set. -/
theorem getElem?_set_cases {α : Type} {l : List α} {i j : Nat} {a b : α}
    (h : (l.set i a)[j]? = some b) : (j = i ∧ b = a) ∨ (j ≠ i ∧ l[j]? = some b) := by
  by_cases same : i = j
  · subst same
    rw [List.getElem?_set_self'] at h
    cases hl : l[i]? with
    | none => rw [hl] at h; exact absurd h (by simp)
    | some x => rw [hl] at h; exact Or.inl ⟨rfl, (Option.some.inj h).symm⟩
  · rw [List.getElem?_set_ne same] at h
    exact Or.inr ⟨fun e => same e.symm, h⟩

/-- The caller at this place is at least so far. -/
def Reached (callers : List Caller) (place stage : Nat) : Prop :=
  ∃ caller, callers[place]? = some caller ∧ stage ≤ caller.stage

/-- A caller that stands here is not so far. -/
theorem not_reached {callers : List Caller} {place stage : Nat} {caller : Caller}
    (stands : callers[place]? = some caller) (early : caller.stage < stage) :
    ¬ Reached callers place stage := by
  rintro ⟨other, stands', far⟩
  rw [stands] at stands'
  obtain rfl := Option.some.inj stands'
  omega

/-- A caller goes from here to there in a move in which this happens. -/
inductive GoesOn (c : Connection) (place : Nat) : Caller → Caller → Option Happening → Prop where
  | number {method : String} {params : Json} :
    GoesOn c place (.fresh method params) (.numbered c.nextId method params)
      (some (.numbered place c.nextId))
  | enter {id : UInt64} {method : String} {params : Json} :
    GoesOn c place (.numbered id method params) (.entered id method params)
      (some (.entered place id))
  /-- It sees the closing mark. -/
  | refuse {id : UInt64} {method : String} {params : Json} :
    GoesOn c place (.entered id method params) (.refused id) (some (.looked place true))
  /-- It sees none. -/
  | letIn {id : UInt64} {method : String} {params : Json} :
    GoesOn c place (.entered id method params) (.admitted id method params)
      (some (.looked place false))
  | request {id : UInt64} {method : String} {params : Json} :
    GoesOn c place (.admitted id method params) (.waiting id)
      (some (.requested place (.request id method params)))
  | fail {id : UInt64} {method : String} {params : Json} :
    GoesOn c place (.admitted id method params) (.refused id) none
  | withdraw {id : UInt64} :
    GoesOn c place (.refused id) (.finished (.error .connectionClosed))
      (some (.resolved place (.error .connectionClosed)))
  | resolve {id : UInt64} {a : Answer} :
    GoesOn c place (.waiting id) (.finished a.result) (some (.resolved place a.result))
  | abandon {id : UInt64} : GoesOn c place (.waiting id) .abandoned none

/-- A caller that goes on comes to a later stage. -/
theorem GoesOn.stage_lt {c : Connection} {place : Nat} {old new : Caller} {e : Option Happening}
    (h : c.GoesOn place old new e) : old.stage < new.stage := by
  cases h <;> simp [Caller.stage]

/-- A move brings a new caller, or one caller goes on, or the callers stay. -/
theorem Move.callers_cases {c c' : Connection} {e : Option Happening} (move : Move c e c') :
    (e = none ∧ ∃ method params, c'.callers = c.callers ++ [.fresh method params]) ∨
      (∃ place old new, c.callers[place]? = some old ∧ c.GoesOn place old new e ∧
        c'.callers = c.callers.set place new) ∨
      c'.callers = c.callers := by
  cases move with
  | call method params => exact Or.inl ⟨rfl, method, params, rfl⟩
  | number stands => exact Or.inr (Or.inl ⟨_, _, _, stands, .number, rfl⟩)
  | enter stands => exact Or.inr (Or.inl ⟨_, _, _, stands, .enter, rfl⟩)
  | look stands =>
    cases closed : c.closed with
    | true => exact Or.inr (Or.inl ⟨_, _, _, stands, .refuse, by simp⟩)
    | false => exact Or.inr (Or.inl ⟨_, _, _, stands, .letIn, by simp⟩)
  | request stands writing => exact Or.inr (Or.inl ⟨_, _, _, stands, .request, rfl⟩)
  | fail stands gone => exact Or.inr (Or.inl ⟨_, _, _, stands, .fail, rfl⟩)
  | withdraw stands => exact Or.inr (Or.inl ⟨_, _, _, stands, .withdraw, rfl⟩)
  | resolve stands answer => exact Or.inr (Or.inl ⟨_, _, _, stands, .resolve, rfl⟩)
  | abandon stands => exact Or.inr (Or.inl ⟨_, _, _, stands, .abandon, rfl⟩)
  | @take m rest reading read =>
    exact Or.inr (Or.inr (accept_fields { c with input := rest } m).1)
  | notify same | respond same | quiet same => exact Or.inr (Or.inr same.callers)
  | _ => exact Or.inr (Or.inr rfl)

/-- Who stands somewhere before a move stands there after it, or has gone on. -/
theorem Move.stands_or_goes {c c' : Connection} {e : Option Happening} (move : Move c e c')
    {place : Nat} {old : Caller} (stands : c.callers[place]? = some old) :
    c'.callers[place]? = some old ∨
      ∃ new, c.GoesOn place old new e ∧ c'.callers[place]? = some new := by
  rcases move.callers_cases with ⟨-, method, params, grown⟩ | ⟨p, other, new, stood, goes, set⟩ | same
  · have inside : place < c.callers.length := (List.getElem?_eq_some_iff.mp stands).1
    exact Or.inl (by rw [grown, List.getElem?_append_left inside]; exact stands)
  · by_cases here : p = place
    · subst here
      rw [stood] at stands
      obtain rfl := Option.some.inj stands
      refine Or.inr ⟨new, goes, ?_⟩
      rw [set, List.getElem?_set_self', stood]
      rfl
    · exact Or.inl (by rw [set, List.getElem?_set_ne here]; exact stands)
  · exact Or.inl (by rw [same]; exact stands)

/-- Who stands somewhere after a move stood there before it, or has just begun, or
has come from where it stood. -/
theorem Move.stood_or_came {c c' : Connection} {e : Option Happening} (move : Move c e c')
    {place : Nat} {new : Caller} (stands : c'.callers[place]? = some new) :
    c.callers[place]? = some new ∨ (∃ method params, new = .fresh method params) ∨
      ∃ old, c.callers[place]? = some old ∧ c.GoesOn place old new e := by
  rcases move.callers_cases with ⟨-, method, params, grown⟩ | ⟨p, old, next, stood, goes, set⟩ | same
  · rw [grown, List.getElem?_append] at stands
    split at stands
    · exact Or.inl stands
    · exact Or.inr (Or.inl ⟨method, params, List.mem_singleton.mp (List.mem_of_getElem? stands)⟩)
  · rw [set] at stands
    rcases getElem?_set_cases stands with ⟨rfl, rfl⟩ | ⟨-, old⟩
    · exact Or.inr (Or.inr ⟨old, stood, goes⟩)
    · exact Or.inl old
  · rw [same] at stands
    exact Or.inl stands

/-- A caller never goes back. -/
theorem Move.reached {c c' : Connection} {e : Option Happening} (move : Move c e c')
    {place stage : Nat} (h : Reached c.callers place stage) : Reached c'.callers place stage := by
  obtain ⟨caller, stands, far⟩ := h
  rcases move.stands_or_goes stands with same | ⟨new, goes, now⟩
  · exact ⟨caller, same, far⟩
  · exact ⟨new, now, Nat.le_trans far (Nat.le_of_lt goes.stage_lt)⟩

/-- A caller that is done, or has stopped waiting, takes no further step. -/
theorem Move.stays {c c' : Connection} {e : Option Happening} (move : Move c e c') {place : Nat}
    {caller : Caller} (stands : c.callers[place]? = some caller) (ended : caller.stage = 5) :
    c'.callers[place]? = some caller := by
  rcases move.stands_or_goes stands with same | ⟨new, goes, -⟩
  · exact same
  · have further := goes.stage_lt
    have := new.stage_le
    omega

/-! ## Runs -/

/-- A run in two parts. -/
theorem run_append {first second : List Action} {c c' : Connection}
    (h : run first c = some c') : run (first ++ second) c = run second c' := by
  induction first generalizing c with
  | nil =>
    obtain rfl := Option.some.inj h
    rfl
  | cons a rest ih =>
    simp only [run, Option.bind_eq_some_iff] at h
    obtain ⟨⟨d, events⟩, hstep, h⟩ := h
    simp only [List.cons_append, run, hstep, Option.bind_some]
    exact ih h

/-- Two runs in a row have their histories in a row. -/
theorem history_append {first second : List Action} {c c' : Connection}
    (h : run first c = some c') : history (first ++ second) c = history first c ++ history second c' := by
  induction first generalizing c with
  | nil =>
    obtain rfl := Option.some.inj h
    rfl
  | cons a rest ih =>
    simp only [run, Option.bind_eq_some_iff] at h
    obtain ⟨⟨d, events⟩, hstep, h⟩ := h
    simp only [List.cons_append, history, hstep, List.append_assoc]
    rw [ih h]

/-- What holds of a connection and its history, and is kept by every action, holds
after every run. -/
theorem run_keeps {P : List Happening → Connection → Prop}
    (keep : ∀ {h : List Happening} {c c' : Connection} {a : Action} {events : List Event},
      P h c → c.step a = some (c', events) → P (h ++ (c.happening a).toList) c') :
    ∀ {actions : List Action} {h : List Happening} {c c' : Connection},
      P h c → run actions c = some c' → P (h ++ history actions c) c' := by
  intro actions
  -- along the actions from the front, with what has happened so far in `h`
  induction actions with
  | nil =>
    intro h c c' hP hrun
    obtain rfl := Option.some.inj hrun
    simpa [history] using hP
  | cons a rest ih =>
    intro h c c' hP hrun
    simp only [run, Option.bind_eq_some_iff] at hrun
    obtain ⟨⟨d, events⟩, hstep, hrun⟩ := hrun
    have hnext := ih (keep hP hstep) hrun
    rw [List.append_assoc] at hnext
    simpa only [history, hstep] using hnext

/-- What holds at the beginning and is kept by every move holds after every run
from the beginning. -/
theorem run_induct {P : List Happening → Connection → Prop} (start : P [] {})
    (keep : ∀ {h : List Happening} {c : Connection} {e : Option Happening} {c' : Connection},
      P h c → Move c e c' → P (h ++ e.toList) c')
    {actions : List Action} {c : Connection} (hrun : run actions {} = some c) :
    P (history actions {}) c := by
  simpa using run_keeps (fun hP hstep => keep hP (move_of_step hstep)) start hrun

end Connection

end EmberClient
