import EmberClient.Proofs.Connection.Closing
import EmberClient.Proofs.Connection.Opening
import EmberClient.Proofs.Session.Standing

/-!
# Shaking hands with each server

What the client says on a connection is said by the programs that speak of its server,
and what a program may say depends on how far along it is. `Shaken` ties the two
together, server by server: a program that brings a server up is alone with it until the
client has introduced itself, and whoever else speaks of a server came to know it after
that, from the slot.

`handshake_order` is the outcome for the messages on each connection.
-/

namespace EmberClient.Session

open Connection (Unused Opening Introduced Accepted Stage InTurn isReticent)

/-- What a program in this phase counts on about the connection to its server. -/
def Phase.Expects (setup : Setup) (φ : Phase) (h : List Connection.Happening) (c : Connection) :
    Prop :=
  match φ with
  | .up _ => Unused h c
  | .greeting _ place => place = 0 ∧ Opening setup h c
  | .greeted _ commands => Accepted setup commands h c
  | .rejected _ | .ended _ => True
  | _ => Introduced setup h

/-- The connection to a server is at one of the stages of a handshake, at the one that the
programs count on that speak of the server, and at the last one while the server is in
the slot. All that the client said on it was said in turn. -/
structure Shaken (setup : Setup) (s : Session) (course : Nat → Phase) (i : Nat)
    (h : List Connection.Happening) : Prop where
  inTurn : EachAfter (InTurn setup) h
  stage : ∀ c, s.connection? i = some c → Stage setup h c
  expects : ∀ task c, i ∈ (course task).mentions → s.connection? i = some c →
    (course task).Expects setup h c
  current : s.slot = some i → Introduced setup h

section Expecting

variable {setup : Setup} {φ : Phase} {h h' : List Connection.Happening} {c c' : Connection}

/-- What a program counts on stays so while the client says nothing. -/
theorem expects_keep {a : Connection.Action} {events : List Connection.Event}
    (old : φ.Expects setup h c) (reticent : isReticent a = true)
    (hstep : c.step a = some (c', events)) :
    φ.Expects setup (h ++ (c.happening a).toList) c' := by
  have length := Connection.callers_of_reticent reticent hstep
  have unnotified := Connection.not_notified_of_reticent c reticent
  have move := Connection.move_of_step hstep
  cases φ with
  | up => exact Unused.keep old move length unnotified
  | greeting => exact ⟨old.1, old.2.keep move length unnotified⟩
  | greeted => exact Accepted.keep old move length unnotified
  | rejected | ended => trivial
  | _ => exact Introduced.append old _

/-- Where the client has introduced itself nobody counts on anything earlier. -/
theorem expects_of_introduced (old : φ.Expects setup h c)
    (introduced : Introduced setup h)
    (now : Introduced setup h') : φ.Expects setup h' c' := by
  cases φ with
  | up => exact absurd introduced (Unused.not_introduced old)
  | greeting => exact absurd introduced old.2.not_introduced
  | greeted => exact absurd introduced old.opening.not_introduced
  | rejected | ended => trivial
  | _ => exact now

/-- Whoever is in no transition counts on the client having introduced itself. -/
theorem introduced_of_free (free : φ.holds = false) (old : φ.Expects setup h c) :
    Introduced setup h := by
  cases φ with
  | free | watching | noticed | holding | stopping | reporting | alarmed | burying | buried =>
    exact old
  | _ => exact absurd free (by simp [Phase.holds])

end Expecting

/-- What a task in this phase counts on. -/
theorem Shaken.expects_of {setup : Setup} {s : Session} {course : Nat → Phase} {i task : Nat}
    {h : List Connection.Happening} {c : Connection} {φ : Phase} (inv : Shaken setup s course i h)
    (conn : s.connection? i = some c) (stands : course task = φ) (mem : i ∈ φ.mentions) :
    φ.Expects setup h c := by
  subst stands
  exact inv.expects task c mem conn

/-- Who brings a server up is alone with it until the client has introduced itself. -/
theorem Shaken.sole {setup : Setup} {s : Session} {course : Nat → Phase} {i task : Nat}
    {h : List Connection.Happening} {c : Connection} (inv : Shaken setup s course i h)
    (locking : Locking s course) (conn : s.connection? i = some c)
    (held : (course task).holds = true) (early : ¬ Introduced setup h) (u : Nat)
    (apart : u ≠ task) : i ∉ (course u).mentions := by
  intro mem
  cases holds : (course u).holds with
  | true => exact apart (locking.unique holds held)
  | false => exact early (introduced_of_free holds (inv.expects u c mem conn))

/-! ## While nothing is said -/

/-- What a connection does by itself says nothing to the server. -/
theorem reticent_of_spontaneous {a : Connection.Action} (h : isSpontaneous a = true) :
    isReticent a = true := by
  cases a <;> first | rfl | exact absurd h (by simp [isSpontaneous])

/-- The server that is spoken to. -/
def speaksTo : Question → Option Nat
  | .call i _ _ | .notify i _ _ => some i
  | _ => none

/-- A question that does not speak to a server says nothing on its connection. -/
theorem reticent_of_replies {s s₁ : Session} {task i : Nat} {q : Question} {r : q.Reply}
    {acts : Nat → Option Connection.Action} (replies : Replies s task q r acts s₁)
    (silent : speaksTo q ≠ some i) (a : Connection.Action) (act : acts i = some a) :
    isReticent a = true := by
  cases replies with
  | own replied =>
    obtain ⟨c, -, act⟩ := Option.bind_eq_some_iff.mp act
    cases q with
    | call server method params | notify server method params =>
      have apart : server ≠ i := fun same => silent (congrArg some same)
      simp only [clientAction, if_neg apart] at act
      exact absurd act (by simp)
    | respond server place outcome =>
      simp only [clientAction, Option.ite_none_right_eq_some] at act
      obtain ⟨-, act⟩ := act
      obtain rfl := Option.some.inj act
      rfl
    | _ => exact absurd act (by simp [clientAction])
  | elapsed conn hstep =>
    obtain ⟨d, -, act⟩ := Option.bind_eq_some_iff.mp act
    simp only [giveUp, Option.ite_none_right_eq_some] at act
    obtain rfl := Option.some.inj act.2
    rfl
  | _ => exact absurd act (by simp)

/-- A server that is up goes on when nothing is said to it and whoever speaks of it may. -/
theorem Shaken.calm {setup : Setup} {s s' : Session} {course course' : Nat → Phase} {i : Nat}
    {h : List Connection.Happening} {c : Connection} {act : Option Connection.Action}
    (inv : Shaken setup s course i h) (conn : s.connection? i = some c)
    (acted : Acted (s.connection? i) act (s'.connection? i))
    (reticent : ∀ a, act = some a → isReticent a = true)
    (phases : ∀ u, i ∈ (course' u).mentions → (course' u).Expects setup h c)
    (slot : s'.slot = some i → Introduced setup h) :
    Shaken setup s' course' i (h ++ (connectionHappening (s.connection? i) act).toList) := by
  rw [conn] at acted ⊢
  generalize after : s'.connection? i = conn' at acted
  -- the connection stays as it is, or takes a step in which the client says nothing of its own
  cases acted with
  | same =>
    show Shaken setup s' course' i (h ++ [])
    rw [List.append_nil]
    have only : ∀ d, s'.connection? i = some d → d = c := by
      intro d hd
      rw [after] at hd
      exact (Option.some.inj hd).symm
    refine ⟨inv.inTurn, ?_, ?_, slot⟩
    · intro d hd
      rw [only d hd]
      exact inv.stage c conn
    · intro u d mem hd
      rw [only d hd]
      exact phases u mem
  | @step c c' a events hstep =>
    have quiet := reticent a rfl
    obtain ⟨stage, turns⟩ := (inv.stage c conn).keep quiet hstep
    have only : ∀ d, s'.connection? i = some d → d = c' := by
      intro d hd
      rw [after] at hd
      exact (Option.some.inj hd).symm
    refine ⟨inv.inTurn.append turns, ?_, ?_, fun hs => (slot hs).append _⟩
    · intro d hd
      rw [only d hd]
      exact stage
    · intro u d mem hd
      rw [only d hd]
      exact expects_keep (phases u mem) quiet hstep

/-- What a program counts on after a step in which it said nothing, as things were before. -/
theorem Shaken.expects_of_step {setup : Setup} {s s₁ : Session} {course : Nat → Phase}
    {task i : Nat} {h : List Connection.Happening} {c : Connection} {q : Question} {r : q.Reply}
    {acts : Nat → Option Connection.Action} {φ : Phase} (inv : Shaken setup s course i h)
    (setup_eq : s.setup = setup) (conn : s.connection? i = some c)
    (step : Phase.Step s.setup (course task) q r φ) (replies : Replies s task q r acts s₁)
    (silent : speaksTo q ≠ some i) (mem : i ∈ φ.mentions) : φ.Expects setup h c := by
  subst setup_eq
  have old := fun there => inv.expects task c there conn
  generalize course task = ψ at step old
  cases step with
  | idle | advertise | publish | ready | configured | tellReady | answered | finish | notice | claim
  | halt | vacate | report | alarm | bury => exact old mem
  | current slot =>
    rcases List.mem_append.mp mem with new | known
    · obtain ⟨eq, -⟩ := replies_current replies
      exact inv.current (eq ▸ Option.mem_toList.mp new)
    · exact old known
  | take | retake =>
    -- only servers that the client has introduced itself to are in the slot
    obtain ⟨-, eq, -⟩ := replies_takeCurrent replies
    obtain rfl := List.mem_singleton.mp mem
    exact inv.current eq.symm
  | call known =>
    exact old mem
  | launched server =>
    obtain rfl := List.mem_singleton.mp mem
    cases replies with
    | own replied => exact absurd replied (by simp [reply])
    | launched => exact absurd ⟨c, conn⟩ (missing_of_new s)
  | accept good =>
    -- the answer is what the only caller ended with
    obtain rfl := List.mem_singleton.mp mem
    obtain ⟨rfl, opening⟩ := old mem
    obtain ⟨v, rfl, tells⟩ := good
    obtain ⟨⟨d, conn', result⟩, -⟩ := replies_await replies
    rw [conn] at conn'
    obtain rfl := Option.some.inj conn'
    obtain ⟨caller, only, -⟩ := opening.alone
    refine ⟨opening, v, ?_, tells⟩
    simp only [Connection.result?, only, List.getElem?_cons_zero] at result
    split at result
    next result' same =>
      obtain rfl := Option.some.inj result
      rw [only, Option.some.inj same]
    next => exact absurd result (by simp)
  | greet | configure | bid | introduce | leave =>
    obtain rfl := List.mem_singleton.mp mem
    exact absurd rfl silent
  | reject | kill | unheard => trivial
  | _ => exact absurd mem List.not_mem_nil

/-- What a server begins with that comes up. -/
theorem Shaken.unborn {setup : Setup} {s s₁ : Session} {course : Nat → Phase} {task i : Nat}
    {q : Question} {r : q.Reply} {acts : Nat → Option Connection.Action} {φ : Phase}
    (knowing : Knowing s course) (missing : s.connection? i = none)
    (step : Phase.Step s.setup (course task) q r φ) (replies : Replies s task q r acts s₁)
    (other : ∀ server, q ≠ .watch server) :
    Shaken setup s₁ (Function.update course task φ) i [] := by
  have down : ¬ Up s i := by
    rintro ⟨c, conn⟩
    rw [missing] at conn
    exact absurd conn (by simp)
  have acted := acted_of_replies replies i
  rw [missing] at acted
  generalize acts i = act at acted
  have fresh : ∀ c, s₁.connection? i = some c → c = {} := by
    intro c conn
    rw [conn] at acted
    cases acted with
    | born => rfl
  -- who launches it is the only one to know of it
  have launches : ∀ u, i ∈ (Function.update course task φ u).mentions → φ = .up i ∧ u = task := by
    intro u mem
    by_cases same : u = task
    · rw [same, Function.update_self] at mem
      refine ⟨?_, same⟩
      rcases step_mentions step mem with before | new
      · exact absurd (knowing.mentioned task i before) down
      · rcases knowing.brings replies new with there | ⟨⟨handler, rfl⟩, -, -⟩
        · exact absurd there down
        · generalize course task = ψ at step
          cases step with
          | idle idle => exact absurd idle (by simp [isIdle])
          | launched server =>
            obtain rfl := List.mem_singleton.mp mem
            rfl
          | unlaunched fault => exact absurd mem List.not_mem_nil
    · rw [Function.update_of_ne same] at mem
      exact absurd (knowing.mentioned u i mem) down
  refine ⟨EachAfter.nil, ?_, ?_, ?_⟩
  · intro c conn
    rw [fresh c conn]
    exact Or.inl ⟨rfl, rfl, rfl⟩
  · intro u c mem conn
    obtain ⟨rfl, rfl⟩ := launches u mem
    rw [fresh c conn, Function.update_self]
    exact ⟨rfl, rfl, rfl⟩
  · intro there
    rcases slot_of_replies replies other there with before | rfl
    · exact absurd (knowing.current i before) down
    · obtain ⟨stands, -⟩ := step_setCurrent step
      refine absurd (knowing.mentioned task i ?_) down
      rw [stands]
      exact List.mem_singleton_self _

/-! ## When something is said -/

/-- A call is placed behind the callers that the connection has. -/
theorem replies_call {s s₁ : Session} {task i place : Nat} {method : String} {params : Json}
    {acts : Nat → Option Connection.Action} {c : Connection}
    (replies : Replies s task (.call i method params) place acts s₁)
    (conn : s.connection? i = some c) :
    acts i = some (.call method params) ∧ place = c.callers.length := by
  cases replies with
  | own replied =>
    obtain ⟨-, rfl⟩ := Prod.mk.inj (Option.some.inj replied)
    refine ⟨by simp only [conn, Option.bind_some, clientAction, if_true], ?_⟩
    simp only [conn, Option.map_some, Option.getD_some]

/-- A notice is heard or refused, and the history of the connection says which. -/
theorem replies_notify {s s₁ : Session} {task i : Nat} {method : String} {params : Json}
    {r : Except Fault Unit} {acts : Nat → Option Connection.Action} {c : Connection}
    (replies : Replies s task (.notify i method params) r acts s₁)
    (conn : s.connection? i = some c) :
    acts i = some (.notify method params) ∧
      c.happening (.notify method params) =
        (match r with
          | .ok _ => some (.notified (.notification method params))
          | .error _ => none) ∧
      (r = .ok () ∨ s₁ = s) := by
  cases replies with
  | own replied =>
    refine ⟨by simp only [conn, Option.bind_some, clientAction, if_true], ?_⟩
    simp only [reply, conn, Connection.notify, Connection.enqueue] at replied
    simp only [Connection.happening]
    by_cases writing : c.writing = true
    · rw [if_pos writing] at replied ⊢
      obtain ⟨-, rfl⟩ := Prod.mk.inj (Option.some.inj replied)
      exact ⟨rfl, Or.inl rfl⟩
    · rw [if_neg writing] at replied ⊢
      obtain ⟨rfl, rfl⟩ := Prod.mk.inj (Option.some.inj replied)
      exact ⟨rfl, Or.inr rfl⟩

section Speaking

variable {setup : Setup} {s s₁ : Session} {course : Nat → Phase} {task i : Nat}
  {h : List Connection.Happening} {c : Connection} {φ : Phase}

/-- After the client has introduced itself anything may be said. -/
theorem Shaken.speak {act : Option Connection.Action} (inv : Shaken setup s course i h)
    (conn : s.connection? i = some c)
    (introduced : Introduced setup h)
    (goes : ∀ h c, Introduced setup h → φ.Expects setup h c) :
    Shaken setup s₁ (Function.update course task φ) i
      (h ++ (connectionHappening (some c) act).toList) := by
  have now := introduced.append (connectionHappening (some c) act)
  refine ⟨inv.inTurn.append fun x _ => introduced.inTurn x, ?_, ?_, fun _ => now⟩
  · exact fun d _ => Or.inr (Or.inr now)
  · intro u d mem _
    by_cases same : u = task
    · rw [same, Function.update_self]
      exact goes _ d now
    · rw [Function.update_of_ne same] at mem ⊢
      exact expects_of_introduced (inv.expects u c mem conn) introduced now

/-- Who brings a server up goes on with it, which changes what it may count on. -/
theorem Shaken.goOn {h' : List Connection.Happening} {c' : Connection}
    (inv : Shaken setup s course i h) (locking : Locking s course)
    (conn : s.connection? i = some c) (held : (course task).holds = true)
    (early : ¬ Introduced setup h) (after : s₁.connection? i = some c')
    (slot : s₁.slot = s.slot) (inTurn : EachAfter (InTurn setup) h')
    (stage : Stage setup h' c') (goes : φ.Expects setup h' c') :
    Shaken setup s₁ (Function.update course task φ) i h' := by
  have only : ∀ d, s₁.connection? i = some d → d = c' := by
    intro d hd
    rw [after] at hd
    exact (Option.some.inj hd).symm
  refine ⟨inTurn, ?_, ?_, ?_⟩
  · intro d hd
    rw [only d hd]
    exact stage
  · intro u d mem hd
    rw [only d hd]
    by_cases same : u = task
    · rw [same, Function.update_self]
      exact goes
    · rw [Function.update_of_ne same] at mem
      exact absurd mem (inv.sole locking conn held early u same)
  · intro there
    exact absurd (inv.current (slot ▸ there)) early

/-- A call that a phase makes is the next in the order of the handshake. -/
theorem Shaken.call {acts : Nat → Option Connection.Action} {place : Nat} {method : String}
    {params : Json} (inv : Shaken setup s course i h) (locking : Locking s course)
    (same : s.setup = setup) (conn : s.connection? i = some c)
    (there : i ∈ (course task).mentions)
    (step : Phase.Step s.setup (course task) (.call i method params) place φ)
    (replies : Replies s task (.call i method params) place acts s₁) :
    Shaken setup s₁ (Function.update course task φ) i
      (h ++ (connectionHappening (some c) (acts i)).toList) := by
  obtain ⟨act, rfl⟩ := replies_call replies conn
  have acted := acted_of_replies replies i
  rw [conn] at acted
  have slot : s₁.slot = s.slot := ((replies_frame replies (by simp)).2 rfl).slot
  have old := inv.expects task c there conn
  generalize stands : course task = ψ at step old
  -- all but the first request come after the introduction, and change nothing
  cases step with
  | idle idle => exact absurd idle (by simp [isIdle])
  | call | configure | bid => exact inv.speak conn old fun _ _ now => now
  | greet =>
    have unused : Unused h c := old
    have held : (course task).holds = true := by rw [stands]; rfl
    rw [act] at acted ⊢
    generalize after : s₁.connection? i = conn' at acted
    cases acted with
    | step hstep =>
      rw [same] at hstep ⊢
      have opening := Connection.opening_of_call unused hstep
      show Shaken setup s₁ _ i (h ++ [])
      rw [List.append_nil]
      refine inv.goOn locking conn held unused.not_introduced after slot inv.inTurn
        (Or.inr (Or.inl opening)) ⟨?_, opening⟩
      rw [unused.nobody]
      rfl

/-- So is a notice, whether it gets out or not. -/
theorem Shaken.notify {acts : Nat → Option Connection.Action} {r : Except Fault Unit}
    {method : String} {params : Json} (inv : Shaken setup s course i h)
    (locking : Locking s course) (matched : Connection.Matched h c)
    (conn : s.connection? i = some c) (there : i ∈ (course task).mentions)
    (step : Phase.Step s.setup (course task) (.notify i method params) r φ)
    (replies : Replies s task (.notify i method params) r acts s₁) :
    Shaken setup s₁ (Function.update course task φ) i
      (h ++ (connectionHappening (some c) (acts i)).toList) := by
  obtain ⟨act, happens, result⟩ := replies_notify replies conn
  have acted := acted_of_replies replies i
  rw [conn] at acted
  have slot : s₁.slot = s.slot := ((replies_frame replies (by simp)).2 rfl).slot
  have old := inv.expects task c there conn
  generalize stands : course task = ψ at step old
  cases step with
  | idle idle => exact absurd idle (by simp [isIdle])
  | leave => exact inv.speak conn old fun _ _ now => now
  | introduce =>
    have held : (course task).holds = true := by rw [stands]; rfl
    have accepted : Connection.Accepted setup _ h c := old
    obtain ⟨introduced, turn⟩ := Connection.introduced_of_notify accepted matched
    rw [act] at acted
    rw [act, connectionHappening_some, happens]
    generalize after : s₁.connection? i = conn' at acted
    cases acted with
    | step hstep =>
      exact inv.goOn locking conn held accepted.opening.not_introduced after slot
        (inv.inTurn.snoc turn) (Or.inr (Or.inr introduced)) introduced
  | unheard fault =>
    -- the queue is closed: nothing was said, and nothing changes
    have held : (course task).holds = true := by rw [stands]; rfl
    have accepted : Connection.Accepted setup _ h c := old
    rw [act, connectionHappening_some, happens]
    show Shaken setup s₁ _ i (h ++ [])
    rw [List.append_nil]
    obtain rfl := result.resolve_left (by simp)
    exact inv.goOn locking conn held accepted.opening.not_introduced conn slot
      inv.inTurn (inv.stage c conn) trivial

end Speaking

/-! ## What every move keeps -/

/-- A task speaks only to a server that its phase mentions. -/
theorem mem_mentions_of_speaks {setup : Setup} {φ φ' : Phase} {q : Question} {r : q.Reply}
    {i : Nat} (step : Phase.Step setup φ q r φ') (speaks : speaksTo q = some i) :
    i ∈ φ.mentions := by
  cases step with
  | @idle known q r idle =>
    cases q with
    | call | notify => exact absurd idle (by simp [isIdle])
    | _ => exact absurd speaks (by simp [speaksTo])
  | call mem =>
    obtain rfl := Option.some.inj speaks
    exact mem
  | greet | introduce | unheard | configure | bid | leave =>
    obtain rfl := Option.some.inj speaks
    exact List.mem_singleton_self _
  | _ => exact absurd speaks (by simp [speaksTo])

/-- What a session is set up with stays. -/
theorem Move.setup {s s' : Session} {course course' : Nat → Phase} {e : Option Happening}
    {acts : Nat → Option Connection.Action} (move : Move s course e acts s' course') :
    s'.setup = s.setup := by
  cases move with
  | @asks task t q next r acts s₁ φ here question step replies other =>
    show s₁.setup = s.setup
    cases replies with
    | own replied => exact (reply_frame replied).setup
    | _ => rfl
  | watches here question stands => rfl
  | wants here question new => rfl
  | @acts server c c' act events conn spontaneous hstep => exact (core_acts s server c' events).setup
  | quiet same servers queued => exact same.setup

/-- Any reply to any question keeps the order of the handshake. -/
theorem shaken_reply {setup : Setup} {s s₁ : Session} {course : Nat → Phase} {task i : Nat}
    {h : List Connection.Happening} {q : Question} {r : q.Reply}
    {acts : Nat → Option Connection.Action} {φ : Phase} (inv : Shaken setup s course i h)
    (standing : Standing s course) (same : s.setup = setup)
    (absent : s.connection? i = none → h = [])
    (matched : ∀ c, s.connection? i = some c → Connection.Matched h c)
    (step : Phase.Step s.setup (course task) q r φ) (replies : Replies s task q r acts s₁)
    (other : ∀ server, q ≠ .watch server) :
    Shaken setup s₁ (Function.update course task φ) i
      (h ++ (connectionHappening (s.connection? i) (acts i)).toList) := by
  -- a server that is not there has no connection to shake hands on
  cases conn : s.connection? i with
  | none =>
    rw [absent conn]
    exact .unborn standing.knowing conn step replies other
  | some c =>
    -- the task speaks to this server, or the client says nothing to it
    by_cases speaks : speaksTo q = some i
    · have there := mem_mentions_of_speaks step speaks
      cases q with
      | call server method params =>
        obtain rfl := Option.some.inj speaks
        exact inv.call standing.locking same conn there step replies
      | notify server method params =>
        obtain rfl := Option.some.inj speaks
        exact inv.notify standing.locking (matched c conn) conn there step replies
      | _ => exact absurd speaks (by simp [speaksTo])
    · rw [← conn]
      refine inv.calm conn (acted_of_replies replies i) (reticent_of_replies replies speaks) ?_ ?_
      · intro u mem
        by_cases here : u = task
        · rw [here, Function.update_self] at mem ⊢
          exact inv.expects_of_step same conn step replies speaks mem
        · rw [Function.update_of_ne here] at mem ⊢
          exact inv.expects u c mem conn
      · intro there
        rcases slot_of_replies replies other there with before | rfl
        · exact inv.current before
        · -- it is put there by who has brought it up
          obtain ⟨stands, -⟩ := step_setCurrent step
          exact inv.expects_of conn stands (List.mem_singleton_self _)

/-- No server comes up or is put into the slot, and nothing is said to this one. -/
theorem Shaken.rest {setup : Setup} {s s' : Session} {course course' : Nat → Phase} {i : Nat}
    {h : List Connection.Happening} {act : Option Connection.Action}
    (inv : Shaken setup s course i h) (knowing : Knowing s course)
    (absent : s.connection? i = none → h = [])
    (acted : Acted (s.connection? i) act (s'.connection? i))
    (unborn : s.connection? i = none → s'.connection? i = none) (slot : s'.slot = s.slot)
    (reticent : ∀ c a, s.connection? i = some c → act = some a → isReticent a = true)
    (phases : ∀ c u, s.connection? i = some c → i ∈ (course' u).mentions →
      (course' u).Expects setup h c) :
    Shaken setup s' course' i (h ++ (connectionHappening (s.connection? i) act).toList) := by
  cases conn : s.connection? i with
  | some c =>
    rw [← conn]
    refine inv.calm conn acted (fun a ha => reticent c a conn ha) (fun u => phases c u conn) ?_
    exact fun there => inv.current (slot ▸ there)
  -- a server that is not there does not come up here
  | none =>
    have missing : ∀ c, s'.connection? i ≠ some c := by
      intro c conn'
      rw [unborn conn] at conn'
      exact absurd conn' (by simp)
    rw [absent conn]
    refine ⟨EachAfter.nil, fun c conn' => absurd conn' (missing c),
      fun u c _ conn' => absurd conn' (missing c), ?_⟩
    intro there
    obtain ⟨c, conn'⟩ := knowing.current i (slot ▸ there)
    rw [conn] at conn'
    exact absurd conn' (by simp)

/-- Every move of the system keeps the order of the handshake for each server. -/
theorem shaken_keep {setup : Setup} {s s' : Session} {course course' : Nat → Phase} {i : Nat}
    {h : List Connection.Happening} {e : Option Happening}
    {acts : Nat → Option Connection.Action} (inv : Shaken setup s course i h)
    (standing : Standing s course) (same : s.setup = setup)
    (absent : s.connection? i = none → h = [])
    (matched : ∀ c, s.connection? i = some c → Connection.Matched h c)
    (move : Move s course e acts s' course') :
    Shaken setup s' course' i
      (h ++ (connectionHappening (s.connection? i) (acts i)).toList) := by
  have acted := move.acted i
  have old := fun c u conn mem => inv.expects u c mem conn
  cases move with
  | @asks task t q next r acts s₁ φ here question step replies other =>
    have told := shaken_reply inv standing same absent matched step replies other
    exact ⟨told.inTurn, told.stage, told.expects, told.current⟩
  | @watches task t server next here question stands =>
    refine inv.rest standing.knowing absent acted id rfl (by simp) ?_
    intro c u conn mem
    rcases watches_cases course s.tasks.length server task u with
      ⟨-, now⟩ | ⟨-, -, now⟩ | ⟨-, -, now⟩
    · rw [now] at mem
      exact absurd mem List.not_mem_nil
    · -- the new watcher counts on what the task did that starts it
      rw [now] at mem ⊢
      obtain rfl := List.mem_singleton.mp mem
      have shown := inv.expects_of conn stands (List.mem_singleton_self _)
      exact shown
    · rw [now] at mem ⊢
      exact old c u conn mem
  | @wants task t next here question new =>
    exact inv.rest standing.knowing absent acted id rfl (by simp) old
  | @acts server d d' act events conn' spontaneous hstep =>
    refine inv.rest standing.knowing absent acted ?_ (core_acts s server d' events).slot ?_ old
    · intro missing
      rw [connection?_of_servers (servers_takes server events _), connection?_editConnection,
        missing]
      rfl
    · intro c a conn ha
      simp only [conn, Option.bind_some, Option.ite_none_right_eq_some] at ha
      obtain rfl := Option.some.inj ha.2
      exact reticent_of_spontaneous spontaneous
  | quiet same' servers queued =>
    refine inv.rest standing.knowing absent acted ?_ same'.slot (by simp) old
    exact fun missing => (connection?_of_servers servers i).trans missing

/-! ## The settings -/

/-- A call by which a transition runs a command on a server; the place of the call. -/
def settingsCall? (i : Nat) : Happening → Option Nat
  | .called _ server place method _ inTransition =>
    if server = i ∧ method = Connection.executeMethod ∧ inTransition = true then some place else none
  | _ => none

/-- The places of such calls, in order. -/
def settingsCalls (i : Nat) (h : List Happening) : List Nat := h.filterMap (settingsCall? i)

/-- What happens next adds at most one call with settings. -/
theorem settingsCalls_append (i : Nat) (h : List Happening) (e : Option Happening) :
    settingsCalls i (h ++ e.toList) = settingsCalls i h ++ (e.bind (settingsCall? i)).toList :=
  filterMap_append_toList (settingsCall? i) h e

/-- What the server is told when it gets its settings. -/
def settingsParams (setup : Setup) : Json :=
  Connection.executeParams Command.setConfig [setup.settings.toJson]

/-- The server that is brought up and does not have its settings yet. -/
def Phase.unconfigured : Phase → Option Nat
  | .up i | .greeting i _ | .greeted i _ | .introduced i _ | .advertised i | .published i
  | .serving i => some i
  | _ => none

/-- A server that waits for its settings is in the hands of the holder of the lock. -/
theorem holds_of_unconfigured {φ : Phase} {i : Nat} (h : φ.unconfigured = some i) :
    φ.holds = true := by
  cases φ <;> simp_all [Phase.unconfigured, Phase.holds]

/-- The settings are sent to a server at most once, as the last thing before its start is
over but for the status. -/
structure Configured (setup : Setup) (s : Session) (course : Nat → Phase) (i : Nat)
    (calls : List Nat) (h : List Connection.Happening) : Prop where
  absent : s.connection? i = none → calls = []
  before : ∀ task, (course task).unconfigured = some i → calls = []
  once : calls.length ≤ 1
  carried : ∀ place ∈ calls, ∀ c, s.connection? i = some c →
    Connection.Carries h c place Connection.executeMethod (settingsParams setup)

/-- Only a launch brings a server that waits for its settings. -/
theorem step_unconfigured {setup : Setup} {φ φ' : Phase} {q : Question} {r : q.Reply} {i : Nat}
    (step : Phase.Step setup φ q r φ') (h : φ'.unconfigured = some i) :
    φ.unconfigured = some i ∨ ((∃ handler, q = .launch handler) ∧ brings q r = some i) := by
  cases step with
  | launched server => exact Or.inr ⟨⟨_, rfl⟩, h⟩
  | reject | unheard | configure => exact absurd h (by simp [Phase.unconfigured])
  | _ => exact Or.inl h

/-- A call with settings that was placed stays carried, whatever the connection does next. -/
theorem Configured.carried_of_acted {setup : Setup} {s s' : Session} {course : Nat → Phase}
    {i : Nat} {calls : List Nat} {h : List Connection.Happening}
    {act : Option Connection.Action} (inv : Configured setup s course i calls h)
    (acted : Acted (s.connection? i) act (s'.connection? i)) (place : Nat) (mem : place ∈ calls)
    (d : Connection) (conn' : s'.connection? i = some d) :
    Connection.Carries (h ++ (connectionHappening (s.connection? i) act).toList) d place
      Connection.executeMethod (settingsParams setup) := by
  rw [conn'] at acted
  generalize before : s.connection? i = conn at acted
  cases acted with
  | same =>
    show Connection.Carries (h ++ []) d place _ _
    rw [List.append_nil]
    exact inv.carried place mem d before
  | born =>
    rw [inv.absent before] at mem
    exact absurd mem List.not_mem_nil
  | step hstep => exact (inv.carried place mem _ before).keep (Connection.move_of_step hstep)

/-- No settings are sent. -/
theorem Configured.goOn {setup : Setup} {s s' : Session} {course course' : Nat → Phase} {i : Nat}
    {calls : List Nat} {h : List Connection.Happening} {act : Option Connection.Action}
    (inv : Configured setup s course i calls h)
    (acted : Acted (s.connection? i) act (s'.connection? i))
    (phases : ∀ u, (course' u).unconfigured = some i →
      (course u).unconfigured = some i ∨ s.connection? i = none) :
    Configured setup s' course' i calls
      (h ++ (connectionHappening (s.connection? i) act).toList) := by
  refine ⟨?_, ?_, inv.once, inv.carried_of_acted acted⟩
  · intro missing
    rw [missing] at acted
    generalize before : s.connection? i = conn at acted
    cases acted with
    | same => exact inv.absent before
  · intro u hu
    rcases phases u hu with old | missing
    · exact inv.before u old
    · exact inv.absent missing

/-- A call that a transition makes to run a command is the one for the settings. -/
theorem step_settings {s : Session} {course : Nat → Phase} {task i place : Nat} {t : Task}
    {params : Json} {next : Nat → Prog Result} {φ : Phase} (locking : Locking s course)
    (here : s.tasks[task]? = some t)
    (question : t.program = .ask (.call i Connection.executeMethod params) next)
    (step : Phase.Step s.setup (course task) (.call i Connection.executeMethod params) place φ)
    (first : s.lock.head? = some task) :
    course task = .serving i ∧ φ = .configuring i place ∧ params = settingsParams s.setup := by
  have held : (course task).holds = true := by
    rcases locking.queued task (List.mem_of_head? first) with held | queued
    · exact held
    · exact absurd queued (not_queued here question (by simp))
  generalize course task = ψ at step held
  generalize method : Connection.executeMethod = m at step
  cases step with
  | idle idle => exact absurd idle (by simp [isIdle])
  | call => exact absurd held (by simp [Phase.holds])
  | greet | bid => exact absurd method (by decide)
  | configure => exact ⟨rfl, rfl, rfl⟩

/-- A server that a reply leaves without its settings had none before, or is new. -/
theorem unconfigured_of_reply {s s₁ : Session} {course : Nat → Phase} {task i : Nat}
    {q : Question} {r : q.Reply} {acts : Nat → Option Connection.Action} {φ : Phase}
    (step : Phase.Step s.setup (course task) q r φ) (replies : Replies s task q r acts s₁) (u : Nat)
    (hu : (Function.update course task φ u).unconfigured = some i) :
    (course u).unconfigured = some i ∨ s.connection? i = none := by
  by_cases mine : u = task
  · subst mine
    rw [Function.update_self] at hu
    rcases step_unconfigured step hu with old | ⟨⟨handler, rfl⟩, new⟩
    · exact Or.inl old
    · -- only a launch brings a server that has no settings yet
      refine Or.inr (Option.eq_none_iff_forall_ne_some.mpr fun c conn => ?_)
      exact missing_of_brings replies new ⟨c, conn⟩
  · rw [Function.update_of_ne mine] at hu
    exact Or.inl hu

/-- The call for the settings is the first of its kind, and carries them. -/
theorem configured_settings {setup : Setup} {s s₁ : Session} {course : Nat → Phase}
    {task i place : Nat} {calls : List Nat} {h : List Connection.Happening}
    {acts : Nat → Option Connection.Action} (inv : Configured setup s course i calls h)
    (standing : Standing s course) (same : s.setup = setup)
    (unrequested : ∀ c m, s.connection? i = some c → .requested c.callers.length m ∉ h)
    (stands : course task = .serving i) (first : s.lock.head? = some task)
    (replies : Replies s task (.call i Connection.executeMethod (settingsParams s.setup)) place acts
      s₁) :
    Configured setup s₁ (Function.update course task (.configuring i place)) i
      (calls ++ ((s.noted task (.call i Connection.executeMethod (settingsParams s.setup))).bind
        (settingsCall? i)).toList)
      (h ++ (connectionHappening (s.connection? i) (acts i)).toList) := by
  have acted := acted_of_replies replies i
  -- whoever serves has not sent its settings, so there was no such call
  have none_before := inv.before task (by rw [stands]; rfl)
  have up : Up s i :=
    standing.knowing.mentioned task i (by rw [stands]; exact List.mem_singleton_self _)
  obtain ⟨c, conn⟩ := up
  obtain ⟨act, rfl⟩ := replies_call replies conn
  have noted : (s.noted task (.call i Connection.executeMethod (settingsParams s.setup))).bind
      (settingsCall? i) = some c.callers.length := by
    simp only [Session.noted, Option.bind_some, settingsCall?, first, decide_true, and_self,
      if_true, nextPlace, conn, Option.map_some, Option.getD_some]
  rw [conn, act] at acted
  rw [noted, none_before, conn, act]
  generalize after : s₁.connection? i = conn' at acted
  cases acted with
  | @step _ c' _ events hstep =>
    refine ⟨fun missing => absurd (missing.symm.trans after) (by simp), ?_, Nat.le_refl 1, ?_⟩
    · -- only one task is in a transition, and this one has sent the settings now
      intro u hu
      have apart : u ≠ task := by
        rintro rfl
        rw [Function.update_self] at hu
        exact absurd hu (by simp [Phase.unconfigured])
      rw [Function.update_of_ne apart] at hu
      have held : (course task).holds = true := by rw [stands]; rfl
      exact absurd (standing.locking.unique (holds_of_unconfigured hu) held) apart
    · intro place mem d conn'
      rw [after] at conn'
      obtain rfl := Option.some.inj conn'
      obtain rfl := List.mem_singleton.mp mem
      rw [← same]
      show Connection.Carries (h ++ []) _ _ _ _
      rw [List.append_nil]
      exact Connection.carries_of_call (unrequested c · conn) hstep

/-- Any reply to any question keeps the settings to at most one call for each server. -/
theorem configured_reply {setup : Setup} {s s₁ : Session} {course : Nat → Phase} {task i : Nat}
    {t : Task} {calls : List Nat} {h : List Connection.Happening} {q : Question} {r : q.Reply}
    {next : q.Reply → Prog Result} {acts : Nat → Option Connection.Action} {φ : Phase}
    (inv : Configured setup s course i calls h) (standing : Standing s course)
    (same : s.setup = setup)
    (unrequested : ∀ c m, s.connection? i = some c → .requested c.callers.length m ∉ h)
    (here : s.tasks[task]? = some t) (question : t.program = .ask q next)
    (step : Phase.Step s.setup (course task) q r φ) (replies : Replies s task q r acts s₁) :
    Configured setup s₁ (Function.update course task φ) i
      (calls ++ ((s.noted task q).bind (settingsCall? i)).toList)
      (h ++ (connectionHappening (s.connection? i) (acts i)).toList) := by
  have silent : (s.noted task q).bind (settingsCall? i) = none →
      Configured setup s₁ (Function.update course task φ) i
        (calls ++ ((s.noted task q).bind (settingsCall? i)).toList)
        (h ++ (connectionHappening (s.connection? i) (acts i)).toList) := by
    intro nothing
    rw [nothing, Option.toList_none, List.append_nil]
    exact inv.goOn (acted_of_replies replies i) (unconfigured_of_reply step replies)
  cases q with
  | call server method params =>
    by_cases mine : server = i ∧ method = Connection.executeMethod ∧ s.lock.head? = some task
    · obtain ⟨rfl, rfl, first⟩ := mine
      obtain ⟨stands, rfl, rfl⟩ := step_settings standing.locking here question step first
      exact configured_settings inv standing same unrequested stands first replies
    · refine silent ?_
      simp only [noted, Option.bind_some, settingsCall?, decide_eq_true_eq, if_neg mine]
  | setCurrent | takeCurrent | vacate | terminate =>
    refine silent ?_
    simp only [noted]
    cases s.slot <;> rfl
  | _ => exact silent rfl

/-- So does every move of the system. -/
theorem configured_keep {setup : Setup} {s s' : Session} {course course' : Nat → Phase} {i : Nat}
    {calls : List Nat} {h : List Connection.Happening} {e : Option Happening}
    {acts : Nat → Option Connection.Action} (inv : Configured setup s course i calls h)
    (standing : Standing s course) (same : s.setup = setup)
    (unrequested : ∀ c m, s.connection? i = some c → .requested c.callers.length m ∉ h)
    (move : Move s course e acts s' course') :
    Configured setup s' course' i (calls ++ (e.bind (settingsCall? i)).toList)
      (h ++ (connectionHappening (s.connection? i) (acts i)).toList) := by
  have acted := move.acted i
  have nothing : calls ++ ((none : Option Happening).bind (settingsCall? i)).toList = calls :=
    List.append_nil _
  cases move with
  | @asks task t q next r acts s₁ φ here question step replies other =>
    have told := configured_reply inv standing same unrequested here question step replies
    exact ⟨told.absent, told.before, told.once, told.carried⟩
  | @watches task t server next here question stands =>
    rw [nothing]
    refine inv.goOn acted ?_
    intro u hu
    rcases watches_cases course s.tasks.length server task u with
      ⟨-, now⟩ | ⟨-, -, now⟩ | ⟨-, -, now⟩
    · exact absurd hu (by simp [now, Phase.unconfigured])
    · exact absurd hu (by simp [now, Phase.unconfigured])
    · exact Or.inl (now ▸ hu)
  | wants here question new =>
    rw [nothing]
    exact inv.goOn acted fun u hu => Or.inl hu
  | acts conn spontaneous hstep =>
    rw [nothing]
    exact inv.goOn acted fun u hu => Or.inl hu
  | quiet same' servers queued =>
    rw [nothing]
    exact inv.goOn acted fun u hu => Or.inl hu

/-! ## After every run -/

/-- A place that no caller has yet has no request. -/
theorem unrequested_of_recorded {on : Nat → List Connection.Happening} {s : Session} {i : Nat}
    (recorded : Recorded on s) (c : Connection) (m : Message) (conn : s.connection? i = some c) :
    .requested c.callers.length m ∉ on i := by
  obtain ⟨actions, hrun, eq⟩ := (recorded i).2 c conn
  intro mem
  rw [eq] at mem
  obtain ⟨caller, stands, -⟩ := (Connection.looks_of_run hrun).requested _ m mem
  exact absurd (length_of_getElem? stands) (Nat.lt_irrefl _)

/-- A recorded history fits the connection that it is of. -/
theorem matched_of_recorded {on : Nat → List Connection.Happening} {s : Session} {i : Nat}
    (recorded : Recorded on s) (c : Connection) (conn : s.connection? i = some c) :
    Connection.Matched (on i) c := by
  obtain ⟨actions, hrun, eq⟩ := (recorded i).2 c conn
  rw [eq]
  exact Connection.matched_of_run hrun

/-- What is kept about all servers together. -/
structure Handshaking (setup : Setup) (h : List Happening)
    (on : Nat → List Connection.Happening) (s : Session) (course : Nat → Phase) : Prop where
  standing : Standing s course
  setup_eq : s.setup = setup
  shaken : ∀ i, Shaken setup s course i (on i)
  configured : ∀ i, Configured setup s course i (settingsCalls i h) (on i)

/-- At the beginning no server has been spoken to. -/
theorem handshaking_start (setup : Setup) (files : FileSystem) (view : EditorView) :
    Handshaking setup [] (fun _ => []) { setup, files, view } fun _ => .free [] := by
  refine ⟨standing_start setup files view, rfl, fun i => ⟨EachAfter.nil, ?_, ?_, ?_⟩, ?_⟩
  · exact fun c conn => absurd conn (by simp [connection?])
  · exact fun task c mem => absurd mem List.not_mem_nil
  · exact fun there => absurd there (by simp)
  · intro i
    exact ⟨fun _ => rfl, fun _ _ => rfl, Nat.zero_le 1, fun place mem => absurd mem List.not_mem_nil⟩

/-- Every move keeps the order of the handshake and the settings together. -/
theorem handshaking_keep {setup : Setup} {h : List Happening}
    {on : Nat → List Connection.Happening} {s s' : Session} {course course' : Nat → Phase}
    {e : Option Happening} {acts : Nat → Option Connection.Action}
    (inv : Handshaking setup h on s course) (onCourse : OnCourse s course)
    (recorded : Recorded on s) (move : Move s course e acts s' course') :
    Handshaking setup (h ++ e.toList)
      (fun i => on i ++ (connectionHappening (s.connection? i) (acts i)).toList) s' course' := by
  refine ⟨standing_keep inv.standing onCourse move, move.setup.trans inv.setup_eq, ?_, ?_⟩
  · intro i
    exact shaken_keep (inv.shaken i) inv.standing inv.setup_eq (recorded i).1
      (matched_of_recorded recorded) move
  · intro i
    rw [settingsCalls_append]
    exact configured_keep (inv.configured i) inv.standing inv.setup_eq
      (unrequested_of_recorded recorded) move

/-- **The client shakes hands with each server before it says anything else.** In every run
of a session, on the connection to each server:

* what the client says of its own accord it says in turn: first the first request, with id
  1; after a good answer to it that it introduces itself; only then anything else;
* if there is a fault, or an answer that cannot be read, it says nothing but the first request;
* the settings are sent at most once when the server is brought up, after the client has
  introduced itself;
* what the server is sent is what was said and answered, in this order. -/
theorem handshake_order {setup : Setup} {files : FileSystem} {view : EditorView}
    {actions : List Action} {s : Session} (hrun : run actions { setup, files, view } = some s)
    (i : Nat) :
    let h := connectionHistory i actions { setup, files, view }
    let calls := settingsCalls i (history actions { setup, files, view })
    EachAfter (InTurn setup) h ∧
      (∀ outcome, .resolved 0 outcome ∈ h →
        (∀ v, outcome = .ok v → setup.reader.read v = none) →
          Connection.said h <+: [Connection.opening setup]) ∧
      calls.length ≤ 1 ∧
      (∀ place ∈ calls, EachAfter (fun past e => ∀ m, e = .requested place m →
        (∃ id, m = .request id Connection.executeMethod (settingsParams setup)) ∧
          Introduced setup past) h) ∧
      ∀ c, s.connection? i = some c → c.written <+: Connection.sent h := by
  intro h calls
  obtain ⟨course, -, traced, inv⟩ :=
    run_induct (P := Handshaking setup) (handshaking_start setup files view) handshaking_keep hrun
  have shaken := inv.shaken i
  have configured := inv.configured i
  refine ⟨shaken.inTurn, ?_, configured.once, ?_, ?_⟩
  · -- more would be said only after a good answer, and a caller is done once
    intro outcome resolved bad
    rcases Connection.said_of_inTurn shaken.inTurn with few | ⟨v, result, reads, good⟩
    · exact few
    · cases conn : s.connection? i with
      | none =>
        have empty : h = [] := (traced.recorded i).1 conn
        rw [empty] at resolved
        exact absurd resolved List.not_mem_nil
      | some c =>
        have matched := Connection.matched_of_run (connection_run hrun conn)
        obtain rfl := matched.result_eq good resolved
        rw [bad v rfl] at reads
        contradiction
  · intro place mem past e future eq m he
    subst he
    cases conn : s.connection? i with
    | none =>
      have none_called : calls = [] := configured.absent conn
      rw [none_called] at mem
      exact absurd mem List.not_mem_nil
    | some c =>
      have requested : .requested place m ∈ h := by
        rw [eq]
        exact List.mem_append_right _ (List.mem_cons_self ..)
      obtain ⟨id, rfl⟩ := (configured.carried place mem c conn).requested m requested
      refine ⟨⟨id, rfl⟩, ?_⟩
      -- the settings are neither the first request nor the introduction, so they come after it
      rcases shaken.inTurn past _ future eq _ rfl with ⟨-, same⟩ | ⟨-, same, -⟩ | introduced
      · have methods := congrArg Message.method (Connection.Happening.requested.inj same).2
        exact absurd (Option.some.inj methods) (by decide)
      · exact absurd same (by simp)
      · exact introduced
  · intro c conn
    exact Connection.written_of_run (connection_run hrun conn)

/-- A server is brought up and gets its settings. -/
def servedAndTold : List Action :=
  served ++ List.replicate 6 (.advance 0) ++ List.replicate 4 (.connection 0 (.advance 1))

/-- `handshake_order` where a server gets its settings: the call for them is the second, and
its request is queued after the client has introduced itself. -/
theorem handshake_order_told :
    ∃ past m future,
      connectionHistory 0 servedAndTold { setup := bareSetup } = past ++ .requested 1 m :: future ∧
        (∃ id, m = .request id Connection.executeMethod (settingsParams bareSetup)) ∧
        Introduced bareSetup past := by
  have runs : (run servedAndTold { setup := bareSetup }).isSome = true := by decide +kernel
  have called : settingsCalls 0 (history servedAndTold { setup := bareSetup }) = [1] := by
    decide +kernel
  have requested : ((connectionHistory 0 servedAndTold { setup := bareSetup }).any fun
      | .requested 1 _ => true
      | _ => false) = true := by decide +kernel
  obtain ⟨s, hrun⟩ := Option.isSome_iff_exists.mp runs
  obtain ⟨x, mem, isRequest⟩ := List.any_eq_true.mp requested
  obtain ⟨-, -, -, settings, -⟩ := handshake_order hrun 0
  split at isRequest
  next m =>
    obtain ⟨past, future, eq⟩ := List.append_of_mem mem
    have told := settings 1 (by rw [called]; exact List.mem_singleton_self _) past _ future eq m rfl
    exact ⟨past, m, future, eq, told⟩
  next => exact absurd isRequest (by simp)

end EmberClient.Session
