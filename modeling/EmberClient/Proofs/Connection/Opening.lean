import EmberClient.Proofs.Connection.Sending
import EmberClient.Session.Setup
import Mathlib.Data.List.Induction

/-!
# The stages of a handshake

A connection on which a session shakes hands goes through three stages: nothing was done
on it (`Unused`), its only caller is on the way with the first request (`Opening`), the
client has introduced itself (`Introduced`). Only the client takes it from one to the
next; whatever else happens leaves it where it is, and all that is said is said in turn
(`InTurn`).
-/

namespace EmberClient.Connection

/-- The first request. -/
def opening (setup : Setup) : Message := .request 1 "initialize" setup.initializeParams

/-- The notification by which the client introduces itself. -/
def introduction : Message := .notification "initialized" (.obj [])

/-- Nothing was done on the connection. -/
structure Unused (h : List Happening) (c : Connection) : Prop where
  nobody : c.callers = []
  first : c.nextId = 1
  silent : said h = []

/-- How far a caller is with the first request, by what the client has said. -/
def Opens (setup : Setup) (nextId : UInt64) (l : List Message) : Caller → Prop
  | .fresh method given =>
    nextId = 1 ∧ method = "initialize" ∧ given = setup.initializeParams ∧ l = []
  | .numbered id method given | .entered id method given | .admitted id method given =>
    id = 1 ∧ method = "initialize" ∧ given = setup.initializeParams ∧ l = []
  | .refused _ => l = []
  | .waiting _ | .abandoned => l = [opening setup]
  | .finished result => (l = [] ∧ result = .error .connectionClosed) ∨ l = [opening setup]

/-- The only caller is on the way with the first request, or done with it. -/
structure Opening (setup : Setup) (h : List Happening) (c : Connection) : Prop where
  alone : ∃ caller, c.callers = [caller] ∧ Opens setup c.nextId (said h) caller
  resolved : ∀ result, c.callers = [.finished result] → .resolved 0 result ∈ h

/-- The client has introduced itself after the first request. -/
def Introduced (setup : Setup) (h : List Happening) : Prop :=
  ∃ rest, said h = opening setup :: introduction :: rest

/-- What the client says is the first request and nothing was said before; or it
introduces itself after an answer to that request that could be read, and that request is the
only thing said before; or it has introduced itself before. -/
def InTurn (setup : Setup) (past : List Happening) (e : Happening) : Prop :=
  ∀ m, own e = some m →
    (said past = [] ∧ e = .requested 0 (opening setup)) ∨
      (said past = [opening setup] ∧ e = .notified introduction ∧
        ∃ v result, setup.reader.read v = some result ∧ .resolved 0 (.ok v) ∈ past ∧
          AnsweredBy past 0 (.ok v)) ∨
      Introduced setup past

variable {setup : Setup} {h : List Happening} {c c' : Connection} {e : Option Happening}

/-! ## What whatever else happens keeps -/

/-- What the client does not say leaves what it said. -/
theorem said_same (silent : e.bind own = none) : said (h ++ e.toList) = said h := by
  rw [said_append, silent, Option.toList_none, List.append_nil]

theorem Introduced.append (inv : Introduced setup h) (e : Option Happening) :
    Introduced setup (h ++ e.toList) := by
  obtain ⟨rest, eq⟩ := inv
  exact ⟨rest ++ (e.bind own).toList, by rw [said_append, eq]; rfl⟩

/-- Only a caller that stands somewhere, or the client itself, says something. -/
theorem Move.unsaid (move : Move c e c') (nobody : c.callers = [])
    (unnotified : ∀ m, e ≠ some (.notified m)) : e.bind own = none := by
  cases move with
  | request stands writing => exact absurd stands (by simp [nobody])
  | notify same => exact absurd rfl (unnotified _)
  | _ => rfl

/-- A connection stays unused while no call is placed and no notice given. -/
theorem Unused.keep (inv : Unused h c) (move : Move c e c')
    (length : c'.callers.length = c.callers.length) (unnotified : ∀ m, e ≠ some (.notified m)) :
    Unused (h ++ e.toList) c' := by
  have nobody : c'.callers = [] := by
    rw [inv.nobody] at length
    exact List.eq_nil_of_length_eq_zero length
  have silent := (said_same (move.unsaid inv.nobody unnotified)).trans inv.silent
  refine ⟨nobody, ?_, silent⟩
  cases move with
  | number stands => exact absurd stands (by simp [inv.nobody])
  | @take m rest reading read => exact (accept_fields { c with input := rest } m).2.1.trans inv.first
  | notify same | respond same | quiet same => exact same.nextId.trans inv.first
  | _ => exact inv.first

/-- The only caller goes on. -/
theorem Opening.goOn {new : Caller} (callers : c'.callers = [new])
    (opens : Opens setup c'.nextId (said (h ++ e.toList)) new)
    (resolved : ∀ result, new = .finished result → e = some (.resolved 0 result)) :
    Opening setup (h ++ e.toList) c' := by
  refine ⟨⟨new, callers, opens⟩, ?_⟩
  intro result ended
  rw [callers] at ended
  rw [resolved result (List.singleton_inj.mp ended)]
  exact List.mem_append_right _ (List.mem_singleton_self _)

/-- The only caller stays where it is, and nothing is said. -/
theorem Opening.same (inv : Opening setup h c) (callers : c'.callers = c.callers)
    (nextId : c'.nextId = c.nextId) (silent : e.bind own = none) :
    Opening setup (h ++ e.toList) c' := by
  refine ⟨?_, ?_⟩
  · rw [callers, nextId, said_same silent]
    exact inv.alone
  · intro result ended
    exact List.mem_append_left _ (inv.resolved result (callers ▸ ended))

/-- With one caller, whoever stands somewhere is that caller. -/
theorem eq_of_only {caller x : Caller} {place : Nat} (only : c.callers = [caller])
    (stands : c.callers[place]? = some x) : place = 0 ∧ x = caller := by
  rw [only] at stands
  obtain rfl := List.mem_singleton.mp (List.mem_of_getElem? stands)
  have inside := (List.getElem?_eq_some_iff.mp stands).1
  simp only [List.length_singleton] at inside
  exact ⟨by omega, rfl⟩

theorem set_only {caller : Caller} (only : c.callers = [caller]) (new : Caller) :
    c.callers.set 0 new = [new] := by
  rw [only]
  rfl

/-- The opening goes on while no other caller comes and no notice is given. -/
theorem Opening.keep (inv : Opening setup h c) (move : Move c e c')
    (length : c'.callers.length = c.callers.length) (unnotified : ∀ m, e ≠ some (.notified m)) :
    Opening setup (h ++ e.toList) c' := by
  obtain ⟨caller, only, opens⟩ := inv.alone
  cases move with
  -- a second caller would make the list longer
  | call method given => simp at length
  | @number place method given stands =>
    obtain ⟨rfl, rfl⟩ := eq_of_only only stands
    obtain ⟨first, method, given, silent⟩ := opens
    refine .goOn (set_only only _) ⟨first, method, given, ?_⟩ (by simp)
    exact (said_same rfl).trans silent
  | @enter place id method given stands =>
    obtain ⟨rfl, rfl⟩ := eq_of_only only stands
    obtain ⟨first, method, given, silent⟩ := opens
    refine .goOn (set_only only _) ⟨first, method, given, ?_⟩ (by simp)
    exact (said_same rfl).trans silent
  | @look place id method given stands =>
    obtain ⟨rfl, rfl⟩ := eq_of_only only stands
    obtain ⟨first, method, given, silent⟩ := opens
    have silent' := (said_same (h := h) (e := some (.looked 0 c.closed)) rfl).trans silent
    -- turned away, it has said nothing, and will not
    cases closed : c.closed with
    | true =>
      rw [closed] at silent'
      exact .goOn (set_only only _) silent' (by simp)
    | false =>
      rw [closed] at silent'
      exact .goOn (set_only only _) ⟨first, method, given, silent'⟩ (by simp)
  | @request place id method given stands writing =>
    obtain ⟨rfl, rfl⟩ := eq_of_only only stands
    obtain ⟨rfl, rfl, rfl, silent⟩ := opens
    refine .goOn (set_only only _) ?_ (by simp)
    show said _ = _
    rw [said_append, silent]
    rfl
  | @fail place id method given stands gone =>
    obtain ⟨rfl, rfl⟩ := eq_of_only only stands
    obtain ⟨-, -, -, silent⟩ := opens
    exact .goOn (set_only only _) ((said_same rfl).trans silent) (by simp)
  | @withdraw place id stands =>
    obtain ⟨rfl, rfl⟩ := eq_of_only only stands
    exact .goOn (set_only only _) (Or.inl ⟨(said_same rfl).trans opens, rfl⟩) (by simp)
  | @resolve place id a stands answer =>
    obtain ⟨rfl, rfl⟩ := eq_of_only only stands
    exact .goOn (set_only only _) (Or.inr ((said_same rfl).trans opens)) (by simp)
  | @abandon place id stands =>
    obtain ⟨rfl, rfl⟩ := eq_of_only only stands
    exact .goOn (set_only only _) ((said_same rfl).trans opens) (by simp)
  | @take m rest reading read =>
    have fields := accept_fields { c with input := rest } m
    exact inv.same fields.1 fields.2.1 rfl
  | notify same => exact absurd rfl (unnotified _)
  | respond same | quiet same => exact inv.same same.callers same.nextId rfl
  | _ => exact inv.same rfl rfl rfl

/-! ## What is said in turn -/

/-- What is not said is never out of turn. -/
theorem inTurn_of_silent (silent : e.bind own = none) (x : Happening) (here : e = some x) :
    InTurn setup h x := by
  intro m speaks
  rw [here] at silent
  exact absurd (silent.symm.trans speaks) (by simp)

/-- After the introduction anything may be said. -/
theorem Introduced.inTurn (inv : Introduced setup h) (x : Happening) : InTurn setup h x :=
  fun _ _ => Or.inr (Or.inr inv)

/-- Whatever the only caller does, it says nothing but the first request. -/
theorem Opening.inTurn (inv : Opening setup h c) (move : Move c e c')
    (unnotified : ∀ m, e ≠ some (.notified m)) (x : Happening) (here : e = some x) :
    InTurn setup h x := by
  cases move with
  | @request place id method given stands writing =>
    obtain ⟨caller, only, opens⟩ := inv.alone
    obtain ⟨rfl, rfl⟩ := eq_of_only only stands
    obtain ⟨rfl, rfl, rfl, silent⟩ := opens
    obtain rfl := Option.some.inj here
    exact fun _ _ => Or.inl ⟨silent, rfl⟩
  | notify same => exact absurd rfl (unnotified _)
  | _ => exact inTurn_of_silent rfl x here

/-- As long as there was no answer that could be read, nothing is said but the first request. -/
theorem said_of_inTurn (turns : EachAfter (InTurn setup) h) :
    said h <+: [opening setup] ∨
      ∃ v result, setup.reader.read v = some result ∧ .resolved 0 (.ok v) ∈ h := by
  -- by what happened last: it says nothing, or is in turn
  induction h using List.reverseRecOn with
  | nil => exact Or.inl List.nil_prefix
  | append_singleton h x ih =>
    obtain ⟨before, turn⟩ := turns.of_snoc
    have grown : said (h ++ [x]) = said h ++ (own x).toList := said_append h (some x)
    rcases ih before with few | ⟨v, result, reads, resolved⟩
    · cases speaks : own x with
      | none =>
        rw [grown, speaks, Option.toList_none, List.append_nil]
        exact Or.inl few
      | some m =>
        rcases turn m speaks with ⟨silent, rfl⟩ | ⟨-, -, v, result, reads, resolved, -⟩ | ⟨rest, eq⟩
        · rw [grown, silent]
          exact Or.inl (List.prefix_refl _)
        · exact Or.inr ⟨v, result, reads, List.mem_append_left _ resolved⟩
        · -- then two things were said already
          rw [eq] at few
          exact absurd few.length_le (by simp)
    · exact Or.inr ⟨v, result, reads, List.mem_append_left _ resolved⟩

/-- Before anything is said nobody is introduced. -/
theorem Unused.not_introduced (inv : Unused h c) : ¬ Introduced setup h := by
  rintro ⟨rest, eq⟩
  rw [inv.silent] at eq
  exact absurd eq (by simp)

/-- Nor is anybody while `initialize` waits for its answer. -/
theorem Opening.not_introduced (inv : Opening setup h c) : ¬ Introduced setup h := by
  rintro ⟨rest, eq⟩
  obtain ⟨caller, -, opens⟩ := inv.alone
  rw [eq] at opens
  cases caller <;> simp [Opens] at opens

/-- The stage that a connection is at. -/
def Stage (setup : Setup) (h : List Happening) (c : Connection) : Prop :=
  Unused h c ∨ Opening setup h c ∨ Introduced setup h

/-- The client alone takes a connection to another stage. -/
theorem Stage.keep (stage : Stage setup h c) {a : Action} {events : List Event}
    (reticent : isReticent a = true) (hstep : c.step a = some (c', events)) :
    Stage setup (h ++ (c.happening a).toList) c' ∧
      ∀ x, c.happening a = some x → InTurn setup h x := by
  have length := callers_of_reticent reticent hstep
  have unnotified := not_notified_of_reticent c reticent
  have move := move_of_step hstep
  rcases stage with unused | opening | introduced
  · refine ⟨Or.inl (unused.keep move length unnotified), ?_⟩
    exact inTurn_of_silent (move.unsaid unused.nobody unnotified)
  · refine ⟨Or.inr (Or.inl (opening.keep move length unnotified)), ?_⟩
    exact opening.inTurn move unnotified
  · exact ⟨Or.inr (Or.inr (introduced.append _)), fun x _ => introduced.inTurn x⟩

/-- The first request has been answered well: the server tells these commands. -/
structure Accepted (setup : Setup) (commands : List String) (h : List Happening) (c : Connection) :
    Prop where
  opening : Opening setup h c
  answered : ∃ v, c.callers = [.finished (.ok v)] ∧ setup.commands? v = some commands

/-- An answer that was accepted stays so, under the same conditions. -/
theorem Accepted.keep {commands : List String} (inv : Accepted setup commands h c)
    (move : Move c e c') (length : c'.callers.length = c.callers.length)
    (unnotified : ∀ m, e ≠ some (.notified m)) : Accepted setup commands (h ++ e.toList) c' := by
  obtain ⟨v, only, tells⟩ := inv.answered
  refine ⟨inv.opening.keep move length unnotified, v, ?_, tells⟩
  have stands : c.callers[0]? = some (.finished (.ok v)) := by rw [only]; rfl
  have stays := move.stays stands rfl
  rw [only, List.length_singleton] at length
  obtain ⟨caller, one⟩ := List.length_eq_one_iff.mp length
  rw [one] at stays ⊢
  obtain rfl := Option.some.inj stays
  rfl

/-! ## What the client does itself -/

/-- It begins with the first request. -/
theorem opening_of_call (unused : Unused h c) {events : List Event}
    (hstep : c.step (.call "initialize" setup.initializeParams) = some (c', events)) :
    Opening setup h c' := by
  obtain ⟨rfl, -⟩ := Prod.mk.inj (Option.some.inj hstep)
  refine ⟨⟨.fresh "initialize" setup.initializeParams, ?_, unused.first, rfl, rfl, unused.silent⟩, ?_⟩
  · show c.callers ++ _ = _
    rw [unused.nobody]
    rfl
  · intro result ended
    have fresh : [Caller.fresh "initialize" setup.initializeParams] = [.finished result] := by
      rw [← ended]
      show _ = c.callers ++ _
      rw [unused.nobody]
      rfl
    exact absurd fresh (by simp)

/-- It introduces itself when the first request was answered well. -/
theorem introduced_of_notify {commands : List String} (inv : Accepted setup commands h c)
    (matched : Matched h c) :
    Introduced setup (h ++ [.notified introduction]) ∧ InTurn setup h (.notified introduction) := by
  obtain ⟨v, only, tells⟩ := inv.answered
  obtain ⟨result, reads, -⟩ := Option.map_eq_some_iff.mp tells
  have said : said h = [opening setup] := by
    obtain ⟨caller, only', opens⟩ := inv.opening.alone
    rw [only] at only'
    obtain rfl := List.singleton_inj.mp only'
    exact opens.resolve_left fun ended => absurd ended.2 (by simp)
  have resolved := inv.opening.resolved _ only
  refine ⟨⟨[], ?_⟩, fun m _ => Or.inr (Or.inl ⟨said, rfl, v, result, reads, resolved, ?_⟩)⟩
  · have grown := said_append h (some (.notified introduction))
    rw [said] at grown
    exact grown
  · exact matched.answeredBy resolved

end EmberClient.Connection
