import EmberClient.Proofs.Session.Exits
import EmberClient.Proofs.Session.Handlers
import EmberClient.Proofs.Session.Inside
import EmberClient.Proofs.Session.Transitions

/-!
# What a start and a restart leave behind

A start and a restart end in one of three ways: they are refused and have changed nothing; they
fail, and there is no server, none in the slot and none that a handshake failed with; or they
succeed, and the new server is in the slot with what it advertised. `Transitions` says by which
dialogues. What the session is like then follows from what a transition is told at its last
steps and from `Inside`: nobody else could have changed it in between.

> `start_and_restart_settle`: in every run, whoever starts or restarts, whatever the launcher
> and the servers do, and whatever else is under way.
-/

namespace EmberClient.Session

variable {setup : Setup} {files : FileSystem} {view : EditorView} {actions : List Action}
  {s d d' : Session} {task : Nat} {past said rest future : List Exchange}
  {outcome : Except Fault Unit}

/-! ## What is left alone and what is left behind -/

/-- Nothing that a transition is about has changed. -/
structure Untouched (d d' : Session) : Prop where
  state : d'.state = d.state
  slot : d'.slot = d.slot
  servers : d'.servers = d.servers
  handlers : d'.handlers = d.handlers
  shown : d'.shown = d.shown

/-- There is no server. A watcher that has claimed the slot is about to empty it, and nobody else
gets at it until then. -/
structure IsDown (s : Session) : Prop where
  state : s.state = .stopped
  empty : s.claimant = none → s.slot = none

/-- Looking at a state that permits no start touches nothing. -/
theorem untouched_of_visit {state : ServerState} {e : Exchange}
    (hears : Hears actions { setup, files, view } task past e d d') (mem : e ∈ visit state) :
    Untouched d d' := by
  simp only [visit, List.mem_cons, List.not_mem_nil, or_false] at mem
  rcases mem with rfl | rfl | rfl
  · obtain ⟨s₁, program, replied, rfl⟩ := hears.reply rfl (by simp)
    obtain ⟨-, rfl⟩ := replies_lock (.own replied)
    exact ⟨rfl, rfl, rfl, rfl, rfl⟩
  · obtain ⟨s₁, program, replied, rfl⟩ := hears.reply rfl (by simp)
    obtain ⟨-, rfl⟩ := replies_state (.own replied)
    exact ⟨rfl, rfl, rfl, rfl, rfl⟩
  · obtain ⟨s₁, program, replied, rfl⟩ := hears.reply rfl (by simp)
    obtain rfl := replies_unlock (.own replied)
    exact ⟨rfl, rfl, rfl, rfl, rfl⟩

/-! ## Moments of a transition -/

/-- Whoever has the lock keeps it through what does not give it back. -/
theorem inside_of_append (inside : (stanceOf past).inside = true)
    (kept : ∀ x ∈ said, x.question ≠ .unlock) : (stanceOf (past ++ said)).inside = true := by
  induction said using List.reverseRecOn with
  | nil => rwa [List.append_nil]
  | append_singleton said x ih =>
    rw [← List.append_assoc, stanceOf_snoc]
    refine inside_after (ih fun y mem => kept y (List.mem_append_left _ mem)) ?_
    exact kept x (List.mem_append_right _ (List.mem_singleton_self _))

/-- Who has come in and not left is inside. -/
theorem inside_of_entered (past said : List Exchange) (kept : ∀ x ∈ said, x.question ≠ .unlock) :
    (stanceOf (past ++ ⟨.lock, ()⟩ :: said)).inside = true := by
  have entered : (stanceOf (past ++ [⟨.lock, ()⟩])).inside = true := by
    rw [stanceOf_snoc]
    rfl
  have whole := inside_of_append entered kept
  rwa [List.append_assoc] at whole

/-- The state that a task is told is the one at that moment. -/
theorem Hears.sees {state : ServerState}
    (hears : Hears actions { setup, files, view } task past ⟨.state, state⟩ d d') :
    d.state = state := by
  obtain ⟨s₁, program, replied, -⟩ := hears.reply rfl (by simp)
  exact (replies_state (.own replied)).1.symm

/-- The state that a task sets is the one right after. -/
theorem Hears.sets {state : ServerState}
    (hears : Hears actions { setup, files, view } task past ⟨.setState state, ()⟩ d d') :
    d'.state = state := by
  obtain ⟨s₁, program, replied, rfl⟩ := hears.reply rfl (by simp)
  obtain rfl := replies_setState (.own replied)
  rfl

/-- A task in a transition is in one of its phases, and state and slot fit that. -/
theorem Hears.holds {q : Question} {r : q.Reply}
    (hears : Hears actions { setup, files, view } task past ⟨q, r⟩ d d')
    (inside : (stanceOf past).inside = true) (other : q ≠ .lock) :
    ∃ course φ, Standing d course ∧ Phase.Step d.setup (course task) q r φ ∧
      (course task).stretch.Fits (claimOf d course) d.state d.slot := by
  obtain ⟨before, a, after, rfl, hrun, hstep, heard, rfl⟩ := hears
  obtain ⟨course, on, standing, -⟩ := told_of_run hrun
  obtain ⟨t, next, here, question⟩ := task_of_question? (asked_of_told hstep heard)
  -- who is first but does not hold the lock yet would still be at asking for it
  have held : (course task).holds = true := by
    rcases standing.locking.queued task (List.mem_of_head? (holder_of_inside hrun inside)) with
      held | queued
    · exact held
    · exact absurd queued (not_queued here question other)
  have follows := on.follows task t here
  rw [question] at follows
  obtain ⟨φ, step, -⟩ := follows r
  have fits := standing.fits
  rw [stretchOf_holder standing.locking held] at fits
  exact ⟨course, φ, standing, step, fits⟩

/-- What is stopped is down, but where a restart is about to empty the slot. -/
theorem Hears.isDown {q : Question} {r : q.Reply}
    (hears : Hears actions { setup, files, view } task past ⟨q, r⟩ d d')
    (inside : (stanceOf past).inside = true) (lock : q ≠ .lock) (take : q ≠ .takeCurrent)
    (stopped : d.state = .stopped) : IsDown d := by
  obtain ⟨course, φ, standing, step, fits⟩ := hears.holds inside lock
  refine ⟨stopped, fun free => ?_⟩
  rw [stopped, claimOf_free free] at fits
  have settled : Settled none .stopped d.slot → d.slot = none := by
    rintro (⟨-, empty⟩ | ⟨ready, -⟩)
    · exact empty
    · contradiction
  generalize stretch : (course task).stretch = S at fits
  match S, fits with
  | .settled, fits => exact settled fits
  | .looking false _, fits => exact settled fits.1
  | .looking true _, fits => exact fits.2.1
  | .rising, fits => exact absurd fits.1 (by simp)
  | .published _, fits => exact absurd fits.1 (by simp)
  | .unwatched _, fits => exact absurd fits.1 (by simp)
  | .restarting, _ =>
    -- a restart that has not emptied the slot yet is at just that question
    generalize course task = ψ at step stretch
    cases step with
    | retake | retakeNone => contradiction
    | _ => simp [Phase.stretch] at stretch
  | .down _, fits => exact fits.1

/-- The server that is ready is in the slot when a transition sees it. -/
theorem Hears.ready (hears : Hears actions { setup, files, view } task past ⟨.state, .ready⟩ d d')
    (inside : (stanceOf past).inside = true) : ∃ i, d.slot = some i := by
  obtain ⟨course, φ, standing, step, fits⟩ := hears.holds inside (by simp)
  rw [hears.sees] at fits
  generalize course task = ψ at step fits
  cases step with
  | idle h => exact absurd h (by simp [isIdle])
  | lookAgain => exact absurd fits.2.2 (by simp)
  | look =>
    cases claim : claimOf d course with
    | none =>
      rw [claim] at fits
      obtain ⟨stopped, -⟩ | ⟨-, filled⟩ := fits
      · contradiction
      · exact Option.isSome_iff_exists.mp filled
    | some w =>
      obtain ⟨u, -, claims⟩ := Option.bind_eq_some_iff.mp claim
      exact ⟨w.1, standing.claiming.inSlot u w.1 w.2 claims⟩

/-- What a server advertised is noted. -/
theorem Hears.noted {i : Nat} {commands : List String}
    (hears : Hears actions { setup, files, view } task past ⟨.advertise i commands, ()⟩ d d')
    (inside : (stanceOf past).inside = true) : d'.advertised i = commands := by
  obtain ⟨course, φ, standing, step, -⟩ := hears.holds inside (by simp)
  have up : Up d i := by
    refine standing.knowing.mentioned task i ?_
    generalize course task = ψ at step
    cases step with
    | idle h => exact absurd h (by simp [isIdle])
    | advertise => exact List.mem_singleton_self _
  obtain ⟨s₁, program, replied, rfl⟩ := hears.reply rfl (by simp)
  have noted := advertised_of_note up (.own replied)
  exact noted

/-- What a task finds that has just come in: the state is stopped or ready. -/
theorem Hears.entered (hears : Hears actions { setup, files, view } task past ⟨.lock, ()⟩ d d') :
    d'.state = .stopped ∨ d'.state = .ready := by
  obtain ⟨s₁, program, replied, rfl⟩ := hears.reply rfl (by simp)
  obtain ⟨first, rfl⟩ := replies_lock (.own replied)
  obtain ⟨before, a, after, rfl, hrun, hstep, heard, rfl⟩ := hears
  obtain ⟨course, on, standing, -⟩ := told_of_run hrun
  obtain ⟨t, next, here, question⟩ := task_of_question? (asked_of_told hstep heard)
  have outside := on.not_holds_of_lock here question
  have fits := standing.fits
  rw [stretchOf_free fun u hu => by
    obtain rfl := Option.some.inj (first.symm.trans hu)
    exact outside] at fits
  show s₁.state = _ ∨ s₁.state = _
  match claimOf s₁ course, fits with
  | none, .inl ⟨stopped, _⟩ => exact .inl stopped
  | none, .inr ⟨ready, _⟩ => exact .inr ready
  | some (_, false), ready => exact .inr ready
  | some (_, true), stopped => exact .inl stopped

/-! ## Bringing a server up -/

/-- The handlers that are built. -/
def builds (said : List Exchange) : List Nat :=
  said.filterMap fun
    | ⟨.buildHandler, handler⟩ => some handler
    | _ => none

/-- The attempts to bring a server up, each with the handler that the server would get and with
what came of it. -/
def launches (said : List Exchange) : List (Nat × Except Fault Nat) :=
  said.filterMap fun
    | ⟨.launch handler, launched⟩ => some (handler, launched)
    | _ => none

/-- There is one attempt, with the one handler that is built. -/
structure TriesOnce (said : List Exchange) (handler : Nat) (launched : Except Fault Nat) :
    Prop where
  built : builds said = [handler]
  tried : launches said = [(handler, launched)]

/-- A handler that is built is none of those before, and no server has it. -/
structure FreshHandler (handler : Nat) (d d' : Session) : Prop where
  next : handler = d.handlers
  spare : handler ∉ d.staff
  counted : d'.handlers = d.handlers + 1
  servers : d'.servers = d.servers

/-- A server that comes up is a new one, with a handler that no server has, and nothing has been
said to it. -/
def Fresh (handler : Nat) (launched : Except Fault Nat) (d d' : Session) : Prop :=
  handler ∉ d.staff ∧
    match launched with
    | .ok server => server = d.servers.length ∧ d'.servers = d.servers ++ [{ handler }]
    | .error _ => d'.servers = d.servers

/-- What is left behind by a transition that has found that it may start. -/
inductive Lands (actions : List Action) (start : Session) (task : Nat) (past : List Exchange) :
    List Exchange → Except Fault Unit → Prop where
  /-- There is no server, and the main item reads so. -/
  | failed {tried : List Exchange} {fault : Fault}
      (brings : BringsUp start.setup tried (.error fault))
      (tells : ∃ d d', Hears actions start task
        (past ++ onset ++ tried ++ [⟨.setState .stopped, ()⟩])
        ⟨.status StatusItem.main goneText, ()⟩ d d' ∧ IsDown d' ∧ d'.mainText? = some goneText)
      (leaves : ∃ d d', Hears actions start task (past ++ onset ++ tried ++ retreat)
        ⟨.unlock, ()⟩ d d' ∧ IsDown d')
      (ends : ∀ server, ⟨.terminate server, ()⟩ ∈ tried →
        .ended task server ∈ history actions start) :
    Lands actions start task past (onset ++ tried ++ retreat) (.error fault)
  /-- The new server is in the slot, with what it advertised. -/
  | up {tried : List Exchange} {server : Nat} {commands : List String}
      (brings : BringsUp start.setup tried (.ok (server, commands))) (place : Nat)
      (answer : Except Fault Json)
      (serves : ∃ d d', Hears actions start task
        (past ++ onset ++ tried ++ (installing start.setup server place answer).dropLast)
        ⟨.watch server, ()⟩ d d' ∧
          d.state = .ready ∧ d.slot = some server ∧ d.advertised server = commands) :
    Lands actions start task past (onset ++ tried ++ installing start.setup server place answer)
      (.ok ())

/-- A handshake builds and launches nothing, and keeps the lock. -/
theorem ShakesHands.quiet {server : Nat} {result : Except Fault (List String)}
    (shakes : ShakesHands setup server said result) :
    builds said = [] ∧ launches said = [] ∧ ∀ x ∈ said, x.question ≠ .unlock := by
  cases shakes <;> simp [builds, launches, greeting, introducing]

/-- Bringing a server up does not give the lock back on the way. -/
theorem BringsUp.kept {result : Except Fault (Nat × List String)}
    (brings : BringsUp setup said result) : ∀ x ∈ said, x.question ≠ .unlock := by
  cases brings with
  | unlaunched handler fault => simp
  | launched handler shakes => simpa using shakes.quiet.2.2

/-- One handler is built for it, and one launch tried with that handler. -/
theorem BringsUp.once {result : Except Fault (Nat × List String)}
    (brings : BringsUp setup said result) : ∃ handler launched, TriesOnce said handler launched := by
  cases brings with
  | unlaunched handler fault => exact ⟨handler, .error fault, rfl, rfl⟩
  | @launched handler server said result shakes =>
    obtain ⟨unbuilt, unlaunched, -⟩ := shakes.quiet
    refine ⟨handler, .ok server, ?_, ?_⟩
    · exact congrArg (handler :: ·) unbuilt
    · exact congrArg ((handler, .ok server) :: ·) unlaunched

/-- What is done before and after adds no attempt. -/
theorem TriesOnce.around {handler : Nat} {launched : Except Fault Nat}
    (once : TriesOnce said handler launched) {front back : List Exchange}
    (before : builds front = [] ∧ launches front = [])
    (after : builds back = [] ∧ launches back = []) :
    TriesOnce (front ++ said ++ back) handler launched := by
  have built : builds (front ++ said ++ back) = builds front ++ builds said ++ builds back := by
    simp only [builds, List.filterMap_append]
  have tried : launches (front ++ said ++ back) =
      launches front ++ launches said ++ launches back := by
    simp only [launches, List.filterMap_append]
  constructor
  · rw [built, before.1, once.built, after.1]
    rfl
  · rw [tried, before.2, once.tried, after.2]
    rfl

/-- There is one attempt. -/
theorem Rises.once (rises : Rises setup rest outcome) :
    ∃ handler launched, TriesOnce rest handler launched := by
  cases rises with
  | failed brings =>
    obtain ⟨handler, launched, once⟩ := brings.once
    exact ⟨handler, launched, once.around ⟨rfl, rfl⟩ ⟨rfl, rfl⟩⟩
  | up brings place answer =>
    obtain ⟨handler, launched, once⟩ := brings.once
    exact ⟨handler, launched, once.around ⟨rfl, rfl⟩ ⟨rfl, rfl⟩⟩

/-- What a server advertised is noted last. -/
theorem BringsUp.advertises {server : Nat} {commands : List String}
    (brings : BringsUp setup said (.ok (server, commands))) :
    ∃ front, said = front ++ [⟨.advertise server commands, ()⟩] := by
  generalize same : Except.ok (server, commands) = result at brings
  cases brings with
  | unlaunched => contradiction
  | @launched handler server' said result shakes =>
    cases shakes with
    | @welcome place v report reads =>
      obtain ⟨rfl, rfl⟩ := Prod.mk.inj (Except.ok.inj same)
      exact ⟨⟨.buildHandler, handler⟩ :: ⟨.launch handler, .ok server⟩ ::
        (greeting setup server place (.ok v) ++ [introducing server (.ok ())]), by simp⟩
    | _ => contradiction

/-- A failed attempt leaves no server behind. -/
theorem lands_of_failed {tried : List Exchange} {fault : Fault}
    (hrun : run actions { setup, files, view } = some s)
    (split : dialogue task actions { setup, files, view } =
      past ++ (onset ++ tried ++ retreat ++ ⟨.unlock, ()⟩ :: future))
    (inside : (stanceOf past).inside = true) (brings : BringsUp setup tried (.error fault)) :
    Lands actions { setup, files, view } task past (onset ++ tried ++ retreat) (.error fault) := by
  have kept : (stanceOf (past ++ onset ++ tried)).inside = true :=
    inside_of_append (inside_of_append inside (by simp [onset])) brings.kept
  have after : (stanceOf (past ++ onset ++ tried ++ [⟨.setState .stopped, ()⟩])).inside = true :=
    inside_of_append kept (by simp)
  -- the last things that it is told: it sets the state, writes the text and gives the lock back
  obtain ⟨b, b', stops⟩ : ∃ b b', Hears actions { setup, files, view } task
      (past ++ onset ++ tried) ⟨.setState .stopped, ()⟩ b b' :=
    hears_of_dialogue hrun (by rw [split]; simp [retreat]; rfl)
  obtain ⟨c, c', tells⟩ : ∃ c c', Hears actions { setup, files, view } task
      (past ++ onset ++ tried ++ [⟨.setState .stopped, ()⟩])
      ⟨.status StatusItem.main goneText, ()⟩ c c' :=
    hears_of_dialogue hrun (by rw [split]; simp [retreat, goneText]; rfl)
  obtain ⟨d, d', leaves⟩ : ∃ d d', Hears actions { setup, files, view } task
      (past ++ onset ++ tried ++ retreat) ⟨.unlock, ()⟩ d d' :=
    hears_of_dialogue hrun (by rw [split]; simp; rfl)
  -- it holds the lock all the while, and nobody else sets the state
  have told : c.state = .stopped := by
    simpa [stops.sets] using state_of_inside stops tells after (by simp)
  have left : d.state = .stopped := by
    simpa [stops.sets] using state_of_inside stops leaves after (by simp [Question.newState?])
  have down := tells.isDown after (by simp) (by simp) told
  have down' := leaves.isDown (inside_of_append kept (by simp [retreat])) (by simp) (by simp) left
  refine .failed brings ⟨c, c', tells, ?_⟩ ⟨d, d', leaves, ?_⟩ fun server mem => ?_
  · obtain ⟨s₁, program, replied, rfl⟩ := tells.reply rfl (by simp)
    obtain ⟨rfl, -⟩ := Prod.mk.inj (Option.some.inj replied)
    refine ⟨⟨down.state, down.empty⟩, ?_⟩
    show (c.tell _).mainTexts.getLast? = _
    rw [mainTexts_tell]
    simp [EditorEvent.mainText?]
  · obtain ⟨s₁, program, replied, rfl⟩ := leaves.reply rfl (by simp)
    obtain rfl := replies_unlock (.own replied)
    exact ⟨down'.state, down'.empty⟩
  · refine ended_of_told hrun ?_
    rw [split]
    simp [mem]

/-- A server that has come up is in the slot. -/
theorem lands_of_up {tried : List Exchange} {server : Nat} {commands : List String} {place : Nat}
    {answer : Except Fault Json} (hrun : run actions { setup, files, view } = some s)
    (split : dialogue task actions { setup, files, view } =
      past ++ (onset ++ tried ++ installing setup server place answer ++ ⟨.unlock, ()⟩ :: future))
    (inside : (stanceOf past).inside = true)
    (brings : BringsUp setup tried (.ok (server, commands))) :
    Lands actions { setup, files, view } task past
      (onset ++ tried ++ installing setup server place answer) (.ok ()) := by
  have kept : (stanceOf (past ++ onset ++ tried)).inside = true :=
    inside_of_append (inside_of_append inside (by simp [onset])) brings.kept
  obtain ⟨front, advertises⟩ := brings.advertises
  obtain ⟨b, b', notes⟩ : ∃ b b', Hears actions { setup, files, view } task
      (past ++ onset ++ front) ⟨.advertise server commands, ()⟩ b b' :=
    hears_of_dialogue hrun (by rw [split, advertises]; simp; rfl)
  obtain ⟨d, d', watches⟩ : ∃ d d', Hears actions { setup, files, view } task
      (past ++ onset ++ tried ++ (installing setup server place answer).dropLast)
      ⟨.watch server, ()⟩ d d' :=
    hears_of_dialogue hrun (by rw [split]; simp [installing]; rfl)
  refine .up brings place answer ⟨d, d', watches, ?_⟩
  have before : (stanceOf (past ++ onset ++ front)).inside = true := by
    refine inside_of_append (inside_of_append inside (by simp [onset])) fun x mem => ?_
    exact brings.kept x (advertises ▸ List.mem_append_left _ mem)
  have later : Hears actions { setup, files, view } task
      (past ++ onset ++ front ++
        ⟨.advertise server commands, ()⟩ :: (installing setup server place answer).dropLast)
      ⟨.watch server, ()⟩ d d' := by
    simpa [advertises] using watches
  -- nobody notes commands for this server between the handshake and the watch
  have same : d.advertised server = b'.advertised server :=
    advertised_of_inside notes later (inside_of_append before (by simp)) (by simp [installing])
  obtain ⟨course, φ, standing, step, fits⟩ :=
    watches.holds (inside_of_append kept (by simp [installing])) (by simp)
  generalize course task = ψ at step fits
  cases step with
  | idle h => exact absurd h (by simp [isIdle])
  | watch => exact ⟨fits.1, fits.2.1, same.trans (notes.noted before)⟩

/-- A start that got as far as `.starting` lands up or down, with the state set to match. -/
theorem lands_of_rises (hrun : run actions { setup, files, view } = some s)
    (split : dialogue task actions { setup, files, view } =
      past ++ (rest ++ ⟨.unlock, ()⟩ :: future))
    (inside : (stanceOf past).inside = true) (rises : Rises setup rest outcome) :
    Lands actions { setup, files, view } task past rest outcome := by
  cases rises with
  | failed brings => exact lands_of_failed hrun split inside brings
  | up brings place answer => exact lands_of_up hrun split inside brings

/-- A handler that is built is a new one. -/
theorem freshHandler_of_hears {handler : Nat}
    (hears : Hears actions { setup, files, view } task past ⟨.buildHandler, handler⟩ d d') :
    FreshHandler handler d d' := by
  obtain ⟨s₁, program, replied, rfl⟩ := hears.reply rfl (by simp)
  obtain ⟨rfl, rfl⟩ := Prod.mk.inj (Option.some.inj replied)
  obtain ⟨before, a, after, rfl, hrun, -⟩ := hears
  obtain ⟨course, -, manned⟩ := manned_of_run hrun
  exact ⟨rfl, fun mem => Nat.lt_irrefl _ (manned.known _ mem), rfl, rfl⟩

/-- A server that comes up has nothing in common with those before. -/
theorem fresh_of_hears {handler : Nat} {launched : Except Fault Nat}
    (hears : Hears actions { setup, files, view } task past ⟨.launch handler, launched⟩ d d') :
    Fresh handler launched d d' := by
  obtain ⟨before, a, after, rfl, hrun, hstep, heard, rfl⟩ := hears
  obtain ⟨course, on, manned⟩ := manned_of_run hrun
  obtain ⟨t, next, here, question⟩ := task_of_question? (asked_of_told hstep heard)
  -- whoever launches has been at this handler since it was built
  have stands : course task = .launching handler := by
    have follows := on.follows task t here
    rw [question] at follows
    obtain ⟨φ, step, -⟩ := follows (.error .connectionClosed)
    generalize course task = ψ at step
    cases step with
    | idle h => exact absurd h (by simp [isIdle])
    | unlaunched => rfl
  refine ⟨(manned.spare task handler stands).2, ?_⟩
  cases turn_of_step hstep with
  | untold silent =>
    rw [silent] at heard
    contradiction
  | told heard' replies goes =>
    simp only [heard', Option.some.injEq, Prod.mk.injEq, Exchange.mk.injEq] at heard
    obtain ⟨rfl, rfl, same⟩ := heard
    obtain rfl := eq_of_heq same
    cases replies with
    | own replied => contradiction
    | launched => exact ⟨rfl, goes ▸ rfl⟩
    | unlaunched => exact goes ▸ rfl

/-! ## Looking at the state -/

/-- A transition that is turned away has seen why, and has changed nothing. -/
structure TurnedAway (actions : List Action) (start : Session) (task : Nat) (past : List Exchange)
    (state : ServerState) : Prop where
  sees : ∃ d d', Hears actions start task (past ++ [⟨.lock, ()⟩]) ⟨.state, state⟩ d d' ∧
    d.state = state
  still : ∀ before, ∀ e ∈ visit state, ∀ d d', Hears actions start task before e d d' →
    Untouched d d'

/-- What a transition sees when it has come in. -/
theorem looks_of_dialogue {state : ServerState} {more : List Exchange}
    (hrun : run actions { setup, files, view } = some s)
    (split : dialogue task actions { setup, files, view } =
      past ++ ⟨.lock, ()⟩ :: ⟨.state, state⟩ :: more) :
    ∃ d d', Hears actions { setup, files, view } task (past ++ [⟨.lock, ()⟩]) ⟨.state, state⟩ d d' ∧
      d.state = state ∧ (state = .stopped ∨ state = .ready) := by
  obtain ⟨c, c', enters⟩ := hears_of_dialogue hrun split
  obtain ⟨d, d', looks⟩ : ∃ d d', Hears actions { setup, files, view } task
      (past ++ [⟨.lock, ()⟩]) ⟨.state, state⟩ d d' :=
    hears_of_dialogue hrun (by rw [split]; simp; rfl)
  refine ⟨d, d', looks, looks.sees, ?_⟩
  rcases state_of_inside enters looks (inside_of_entered past [] (by simp)) (by simp) with
    same | stopped
  · rw [← looks.sees, same]
    exact enters.entered
  · exact .inl (looks.sees.symm.trans stopped)

/-- A transition that looks at the state sees what it is, and the visit touches nothing. -/
theorem turnedAway_of_dialogue {state : ServerState} {more : List Exchange}
    (hrun : run actions { setup, files, view } = some s)
    (split : dialogue task actions { setup, files, view } =
      past ++ ⟨.lock, ()⟩ :: ⟨.state, state⟩ :: more) :
    TurnedAway actions { setup, files, view } task past state := by
  obtain ⟨d, d', looks, sees, -⟩ := looks_of_dialogue hrun split
  exact ⟨⟨d, d', looks, sees⟩, fun _ _ mem _ _ hears => untouched_of_visit hears mem⟩

/-! ## Starts -/

/-- What a start leaves behind. -/
inductive Started (actions : List Action) (start : Session) (task : Nat) (past : List Exchange) :
    List Exchange → Except Fault Unit → Prop where
  /-- There is a server. -/
  | refused {state : ServerState} (wrong : state ≠ .stopped)
      (away : TurnedAway actions start task past state) :
    Started actions start task past (visit state) (.error (.invalidState state "start"))
  | went {rest : List Exchange} {outcome : Except Fault Unit}
      (once : ∃ handler launched, TriesOnce rest handler launched)
      (lands : Lands actions start task (past ++ [⟨.lock, ()⟩, ⟨.state, .stopped⟩]) rest outcome) :
    Started actions start task past
      ([⟨.lock, ()⟩, ⟨.state, .stopped⟩] ++ rest ++ [⟨.unlock, ()⟩]) outcome

/-- Whatever a start says, it settled as `Started` describes. -/
theorem started_of_gives (hrun : run actions { setup, files, view } = some s)
    (split : dialogue task actions { setup, files, view } = past ++ (said ++ future))
    (gives : Gives setup (Lifecycle.start setup) said outcome) :
    Started actions { setup, files, view } task past said outcome := by
  obtain ⟨state, rest, rfl, starts⟩ := gives_start_iff.mp gives
  simp only [List.cons_append] at split
  cases starts with
  | refused wrong => exact .refused wrong.1 (turnedAway_of_dialogue hrun split)
  | allowed right rises =>
    obtain ⟨-, -, -, -, settled⟩ := looks_of_dialogue hrun split
    obtain rfl : state = .stopped := by
      rcases settled with stopped | ready
      · exact stopped
      · exact absurd right (by simp [ready])
    have inside := inside_of_entered past [⟨.state, .stopped⟩] (by simp)
    have lands := lands_of_rises hrun
      (show _ = _ ++ (rest ++ ⟨.unlock, ()⟩ :: future) by rw [split]; simp) inside rises
    exact .went rises.once lands

/-! ## Restarts -/

/-- What a restart leaves behind. -/
inductive Restarted (actions : List Action) (start : Session) (task : Nat)
    (past : List Exchange) : List Exchange → Except Fault Unit → Prop where
  /-- There is no server. -/
  | refused {state : ServerState} (wrong : state ≠ .ready)
      (away : TurnedAway actions start task past state) :
    Restarted actions start task past (visit state) (.error (.invalidState state "restart"))
  /-- The previous server is shut down, or its watcher has found it exited; then it is as for
  a start. -/
  | went {previous : Nat} {slot : Option Nat} {down rest : List Exchange} {again : ServerState}
      {outcome : Except Fault Unit}
      (was : ∃ d d', Hears actions start task (past ++ [⟨.lock, ()⟩]) ⟨.state, .ready⟩ d d' ∧
        d.slot = some previous)
      (takes : TakesDown slot down)
      (taken : slot = some previous ∧ .ended task previous ∈ history actions start ∨
        slot = none ∧ ∃ watcher, .removed watcher previous .vacated ∈ history actions start)
      (once : ∃ handler launched, TriesOnce rest handler launched)
      (lands : Lands actions start task
        (past ++ ([⟨.lock, ()⟩, ⟨.state, .ready⟩, ⟨.setState .restarting, ()⟩] ++ down ++
          [⟨.state, again⟩])) rest outcome) :
    Restarted actions start task past
      ([⟨.lock, ()⟩, ⟨.state, .ready⟩, ⟨.setState .restarting, ()⟩] ++ down ++
        [⟨.state, again⟩] ++ rest ++ [⟨.unlock, ()⟩]) outcome

/-- Taking a server down sets no state and keeps the lock. -/
theorem TakesDown.quiet {slot : Option Nat} {down : List Exchange} (takes : TakesDown slot down) :
    ∀ x ∈ down, x.question ≠ .unlock ∧ x.question.newState? = none := by
  cases takes <;> simp [Question.newState?]

/-- It starts by emptying the slot. -/
theorem TakesDown.starts {slot : Option Nat} {down : List Exchange} (takes : TakesDown slot down) :
    ∃ more, down = ⟨.takeCurrent, slot⟩ :: more := by
  cases takes with
  | nobody => exact ⟨_, rfl⟩
  | server => exact ⟨_, rfl⟩

/-- A restart takes the server out of the slot that it has seen ready, and sees it end. -/
theorem taken_of_restarting {slot : Option Nat} {down : List Exchange} {previous : Nat}
    (hrun : run actions { setup, files, view } = some s)
    (split : dialogue task actions { setup, files, view } =
      past ++ ⟨.lock, ()⟩ :: ⟨.state, .ready⟩ :: ⟨.setState .restarting, ()⟩ :: (down ++ future))
    (takes : TakesDown slot down)
    (looks : Hears actions { setup, files, view } task (past ++ [⟨.lock, ()⟩]) ⟨.state, .ready⟩
      d d')
    (was : d.slot = some previous) :
    slot = some previous ∧ .ended task previous ∈ history actions { setup, files, view } ∨
      slot = none ∧
        ∃ watcher, .removed watcher previous .vacated ∈ history actions { setup, files, view } := by
  obtain ⟨more, first⟩ := takes.starts
  obtain ⟨c, c', empties⟩ : ∃ c c', Hears actions { setup, files, view } task
      (past ++ [⟨.lock, ()⟩] ++ ⟨.state, .ready⟩ :: [⟨.setState .restarting, ()⟩])
      ⟨.takeCurrent, slot⟩ c c' :=
    hears_of_dialogue hrun (by rw [split, first]; simp; rfl)
  have found : slot = c.slot := by
    obtain ⟨s₁, program, replied, -⟩ := empties.reply rfl (by simp)
    exact (replies_takeCurrent (.own replied)).2.1
  have among : ⟨.state, .ready⟩ ∈ visit .ready := by simp [visit]
  have kept : d'.slot = some previous := (untouched_of_visit looks among).slot.trans was
  have inside := inside_of_entered past [⟨.state, .ready⟩] (by simp)
  rw [List.append_cons] at inside
  -- the lock keeps everybody from the slot but the watcher of the server in it
  rcases slot_of_inside looks empties inside (by simp [Question.movesSlot]) kept with
    there | ⟨empty, watcher, removed⟩
  · obtain rfl := found.trans there
    refine .inl ⟨rfl, ended_of_told hrun ?_⟩
    cases takes with
    | server => simp [split]
  · exact .inr ⟨found.trans empty, watcher, removed⟩

/-- While a restart takes the server down, nothing changes the state but an exit. -/
theorem sees_of_restarting {down : List Exchange} {again : ServerState}
    (hrun : run actions { setup, files, view } = some s)
    (split : dialogue task actions { setup, files, view } =
      past ++ ⟨.lock, ()⟩ :: ⟨.state, .ready⟩ :: ⟨.setState .restarting, ()⟩ ::
        (down ++ ⟨.state, again⟩ :: future))
    (quiet : ∀ x ∈ down, x.question ≠ .unlock ∧ x.question.newState? = none) :
    again = .restarting ∨ again = .stopped := by
  obtain ⟨b, b', marks⟩ : ∃ b b', Hears actions { setup, files, view } task
      (past ++ [⟨.lock, ()⟩, ⟨.state, .ready⟩]) ⟨.setState .restarting, ()⟩ b b' :=
    hears_of_dialogue hrun (by rw [split]; simp; rfl)
  obtain ⟨c, c', looks⟩ : ∃ c c', Hears actions { setup, files, view } task
      (past ++ [⟨.lock, ()⟩, ⟨.state, .ready⟩] ++ ⟨.setState .restarting, ()⟩ :: down)
      ⟨.state, again⟩ c c' :=
    hears_of_dialogue hrun (by rw [split]; simp; rfl)
  have inside := inside_of_entered past [⟨.state, .ready⟩, ⟨.setState .restarting, ()⟩] (by simp)
  rw [← looks.sees, ← marks.sets]
  exact state_of_inside marks looks (by simpa using inside) quiet

/-- Whatever a restart says, it settled as `Restarted` describes. -/
theorem restarted_of_gives (hrun : run actions { setup, files, view } = some s)
    (split : dialogue task actions { setup, files, view } = past ++ (said ++ future))
    (gives : Gives setup (Lifecycle.restart setup) said outcome) :
    Restarted actions { setup, files, view } task past said outcome := by
  obtain ⟨state, rest, rfl, restarts⟩ := gives_restart_iff.mp gives
  simp only [List.cons_append] at split
  cases restarts with
  | refused wrong => exact .refused wrong (turnedAway_of_dialogue hrun split)
  | @allowed right slot down rest again _ takes starts =>
    subst right
    obtain ⟨d, d', looks, -, -⟩ := looks_of_dialogue hrun split
    obtain ⟨previous, was⟩ := looks.ready (inside_of_entered past [] (by simp))
    have split' : dialogue task actions { setup, files, view } =
        past ++ ⟨.lock, ()⟩ :: ⟨.state, .ready⟩ :: ⟨.setState .restarting, ()⟩ ::
          (down ++ ⟨.state, again⟩ :: (rest ++ ⟨.unlock, ()⟩ :: future)) := by
      rw [split]
      simp
    have taken := taken_of_restarting hrun split' takes looks was
    -- while it holds the lock nobody but a watcher touches the state
    have may := sees_of_restarting hrun split' takes.quiet
    cases starts with
    | refused wrong => rcases may with rfl | rfl <;> simp at wrong
    | allowed right rises =>
      have inside := inside_of_entered past
        (⟨.state, .ready⟩ :: ⟨.setState .restarting, ()⟩ :: (down ++ [⟨.state, again⟩]))
        (by simpa [or_imp, forall_and] using fun x mem => (takes.quiet x mem).1)
      have lands := lands_of_rises hrun
        (show _ = _ ++ (rest ++ ⟨.unlock, ()⟩ :: future) by rw [split']; simp) inside rises
      have whole := Restarted.went ⟨d, d', looks, was⟩ takes taken rises.once lands
      simpa using whole

/-! ## Nothing keeps a transition from going on -/

/-- How a transition can go on, or what it waits for. -/
inductive Proceeds (s : Session) (task : Nat) : Prop where
  | next (may : (s.step (.advance task)).isSome = true)
  /-- The launcher may bring a server up, or fail to. -/
  | launching (may : ∀ came, (s.step (.launched task came)).isSome = true)
  /-- The process has been told to end, and may. -/
  | ending (may : (s.step (.terminated task)).isSome = true)
  /-- A server has not answered. -/
  | unanswered {server place : Nat} {c : Connection}
      (asked : s.question? task = some (.await server place) ∨
        s.question? task = some (.awaitBriefly server place))
      (conn : s.connection? server = some c) (waits : c.result? place = none)
  /-- A watcher has the slot, and can go on itself. -/
  | behind {watcher : Nat} (claimant : s.claimant = some watcher)
      (may : (s.step (.advance watcher)).isSome = true)

/-- A question about the slot is answered once nobody has claimed it. -/
theorem proceeds_of_slot {t : Task} {q : Question} {next : q.Reply → Prog Result}
    (hrun : run actions { setup, files, view } = some s) (here : s.tasks[task]? = some t)
    (question : t.program = .ask q next)
    (free : s.claimant = none → (s.reply task q).isSome = true) : Proceeds s task := by
  cases claimant : s.claimant with
  | none => exact .next (step_of_ready here question (.inr (free claimant)))
  | some watcher => exact .behind claimant (step_of_claimant hrun claimant)

/-- A question about the answer to a call is answered once there is one. -/
theorem proceeds_of_call {t : Task} {q : Question} {next : q.Reply → Prog Result}
    {server place : Nat} (here : s.tasks[task]? = some t) (question : t.program = .ask q next)
    (awaits : q = .await server place ∨ q = .awaitBriefly server place) (up : Up s server) :
    Proceeds s task := by
  obtain ⟨c, conn⟩ := up
  cases result : c.result? place with
  | none =>
    refine .unanswered ?_ conn result
    rwa [question?_of here question, Option.some.injEq, Option.some.injEq]
  | some r =>
    refine .next (step_of_ready here question (.inr ?_))
    rcases awaits with rfl | rfl <;> simp [reply, conn, result]

/-- Who waits for the launcher has yet to be put, or the launcher may come back. -/
theorem proceeds_of_launch {t : Task} {handler : Nat} {next : Except Fault Nat → Prog Result}
    (here : s.tasks[task]? = some t) (question : t.program = .ask (.launch handler) next) :
    Proceeds s task := by
  cases isPut : t.isPut with
  | false => exact .next (step_of_ready here question (.inl ⟨rfl, isPut⟩))
  | true =>
    refine .launching fun came => ?_
    cases came with
    | ok => exact isSome_of_stepped (.brought here question (fun _ => isPut) .launched)
    | error fault =>
      exact isSome_of_stepped (.brought here question (fun _ => isPut) (.unlaunched fault))

/-- A process that has been told to end may end. -/
theorem proceeds_of_terminate {t : Task} {server : Nat} {next : Unit → Prog Result}
    (here : s.tasks[task]? = some t) (question : t.program = .ask (.terminate server) next) :
    Proceeds s task := by
  cases isPut : t.isPut with
  | false => exact .next (step_of_ready here question (.inl ⟨rfl, isPut⟩))
  | true => exact .ending (isSome_of_stepped (.brought here question (fun _ => isPut) .terminated))

/-- Who holds the lock goes on, or waits for the launcher, for a process to end, for an answer or
for a watcher. -/
theorem proceeds_of_holder {t : Task} {q : Question} {next : q.Reply → Prog Result} {φ : Phase}
    (hrun : run actions { setup, files, view } = some s) (here : s.tasks[task]? = some t)
    (question : t.program = .ask q next) (held : φ.holds = true)
    (mentioned : ∀ server ∈ φ.mentions, Up s server)
    (follows : Follows s.setup AtEase φ (.ask q next)) : Proceeds s task := by
  cases q with
  | lock =>
    obtain ⟨φ', step, -⟩ := follows ()
    obtain ⟨⟨known, rfl⟩, -⟩ := step_lock step
    contradiction
  | current | setCurrent | takeCurrent =>
    exact proceeds_of_slot hrun here question fun free => by simp [reply, free]
  | claim server =>
    refine proceeds_of_slot hrun here question fun free => ?_
    by_cases there : s.slot = some server <;> simp [reply, free, there]
  | launch handler => exact proceeds_of_launch here question
  | terminate server => exact proceeds_of_terminate here question
  | await server place =>
    obtain ⟨φ', step, -⟩ := follows (.error .connectionClosed)
    refine proceeds_of_call here question (.inl rfl) (mentioned server ?_)
    cases step with
    | idle => contradiction
    | accept | reject | configured => simp [Phase.mentions]
  | awaitBriefly server place =>
    obtain ⟨φ', step, -⟩ := follows none
    refine proceeds_of_call here question (.inr rfl) (mentioned server ?_)
    cases step with
    | idle => contradiction
    | answered => simp [Phase.mentions]
  | notify server method params =>
    refine .next (step_of_ready here question (.inr ?_))
    simp only [reply]
    split
    · rfl
    · split <;> rfl
  -- no transition asks these
  | closed =>
    obtain ⟨φ', step, -⟩ := follows ()
    cases step with
    | idle | notice => contradiction
  | prompt | openFile | editorCommand =>
    obtain ⟨φ', step, -⟩ := follows (.error .connectionClosed)
    cases step with
    | idle => contradiction
  | run => exact .next (isSome_of_stepped (.runs here question))
  | _ => exact .next (step_of_ready here question (.inr rfl))

/-- A task in a transition can go on, or waits for one of the things listed. -/
theorem proceeds_of_inside (hrun : run actions { setup, files, view } = some s)
    (inside : (stance task actions { setup, files, view }).inside = true) : Proceeds s task := by
  obtain ⟨course, on, standing, -⟩ := told_of_run hrun
  have first := holder_of_inside hrun inside
  -- the first in the queue for the lock holds it, or has yet to learn that it does
  rcases standing.locking.queued task (List.mem_of_head? first) with held | queued
  · cases here : s.tasks[task]? with
    | none =>
      rw [on.beyond task (List.getElem?_eq_none_iff.mp here)] at held
      contradiction
    | some t =>
      have follows := on.follows task t here
      cases question : t.program with
      | done r =>
        rw [question] at follows
        obtain ⟨known, free⟩ := follows
        rw [free] at held
        contradiction
      | ask q next =>
        rw [question] at follows
        exact proceeds_of_holder hrun here question held (standing.knowing.mentioned task) follows
  · obtain ⟨t, next, here, question, -⟩ := queued
    exact .next (step_of_ready here question (.inr (by simp [reply, first])))

/-! ## What starts and restarts come to -/

/-- How starts and restarts go in a session. -/
structure Settles (actions : List Action) (start s : Session) : Prop where
  starts : ∀ task past said future outcome,
    dialogue task actions start = past ++ (said ++ future) →
    Gives start.setup (Lifecycle.start start.setup) said outcome →
      Started actions start task past said outcome
  restarts : ∀ task past said future outcome,
    dialogue task actions start = past ++ (said ++ future) →
    Gives start.setup (Lifecycle.restart start.setup) said outcome →
      Restarted actions start task past said outcome
  /-- What the job for a start came to is what the start came to. -/
  startJobs : ∀ task r, (origins actions start)[task]? = some (.job .start) →
    s.result? task = some r → ∃ outcome, r = .ofUnit outcome ∧
      Started actions start task [] (dialogue task actions start) outcome
  restartJobs : ∀ task r, (origins actions start)[task]? = some (.job .restart) →
    s.result? task = some r → ∃ outcome, r = .ofUnit outcome ∧
      Restarted actions start task [] (dialogue task actions start) outcome
  /-- Every handler that is built is new. -/
  builds : ∀ task past handler d d',
    Hears actions start task past ⟨.buildHandler, handler⟩ d d' → FreshHandler handler d d'
  /-- Whatever a launch comes to, what it brings up is new. -/
  fresh : ∀ task past handler launched d d',
    Hears actions start task past ⟨.launch handler, launched⟩ d d' → Fresh handler launched d d'
  /-- No two servers have a handler in common. -/
  apart : s.staff.Nodup
  /-- What an answer advertises is what it tells about commands. -/
  reports : ∀ answer capabilities result, start.setup.reader.read (.obj answer) = some result →
    .obj capabilities ∈ Json.valuesAt "capabilities" answer → ∃ provider,
      CommandProvider.Told capabilities provider ∧
        result.commands = (provider.map CommandProvider.commands).getD []
  /-- What the main item reads while there is no server. -/
  label : goneText = "$(telescope) no PID"
  /-- Whatever is replied, a start goes in one of the ways listed, and in each of them. -/
  startWays : ∀ said outcome,
    Gives start.setup (Lifecycle.start start.setup) said outcome ↔ ∃ state rest,
      said = ⟨.lock, ()⟩ :: ⟨.state, state⟩ :: (rest ++ [⟨.unlock, ()⟩]) ∧
        StartsFrom start.setup state rest outcome
  restartWays : ∀ said outcome,
    Gives start.setup (Lifecycle.restart start.setup) said outcome ↔ ∃ state rest,
      said = ⟨.lock, ()⟩ :: ⟨.state, state⟩ :: (rest ++ [⟨.unlock, ()⟩]) ∧
        RestartsFrom start.setup state rest outcome
  /-- Who is in a transition gets to its end. -/
  proceeds : ∀ task, (stance task actions start).inside = true → Proceeds s task

/-- A job that comes to what a program comes to. -/
theorem gives_of_unit_job {work : Job} {p : Prog (Except Fault Unit)} {r : Result}
    (hrun : run actions { setup, files, view } = some s)
    (program : work.program setup = p >>= fun outcome => .done (.ofUnit outcome))
    (begun : (origins actions { setup, files, view })[task]? = some (.job work))
    (result : s.result? task = some r) :
    ∃ outcome, r = .ofUnit outcome ∧
      Gives setup p (dialogue task actions { setup, files, view }) outcome := by
  have comes := gives_of_result rfl hrun begun result
  rw [Origin.program, program] at comes
  obtain ⟨outcome, first, second, split, came, rest⟩ := Gives.of_bind comes
  obtain ⟨rfl, rfl⟩ := rest.of_done
  refine ⟨outcome, rfl, ?_⟩
  rwa [split, List.append_nil]

/-- All that a task was told. -/
theorem whole (said : List Exchange) : said = [] ++ (said ++ []) := by simp

/-- After every run, whatever servers and the launcher did and whatever else was under way:

* a start that finds a state other than stopped, and a restart that finds one other than ready,
  are refused with this state and have changed nothing;
* any other attempts just one launch, of a new server with a handler that has just been built for
  it, and so no two servers ever have a handler in common;
* it fails with the fault of the launch, of the first request, of its answer or of the note that
  follows, and then there is no server: the state is stopped, the slot is empty or about to be
  emptied, the main item reads `no PID`, and a server that gave no useful answer has ended;
* or it succeeds, and the new server is in the slot with the commands it advertised, which are
  those that its first answer told of, whatever it answered to its settings;
* a restart has ended the previous server by then, if it has not exited itself;
* what is in a transition can go on, unless it waits for the launcher, for a process to end, for
  a server to answer or for a watcher that can go on. -/
theorem start_and_restart_settle (hrun : run actions { setup, files, view } = some s) :
    Settles actions { setup, files, view } s where
  starts _ _ _ _ _ split gives := started_of_gives hrun split gives
  restarts _ _ _ _ _ split gives := restarted_of_gives hrun split gives
  startJobs task r begun result := by
    obtain ⟨outcome, rfl, gives⟩ := gives_of_unit_job hrun rfl begun result
    exact ⟨outcome, rfl, started_of_gives hrun (whole _) gives⟩
  restartJobs task r begun result := by
    obtain ⟨outcome, rfl, gives⟩ := gives_of_unit_job hrun rfl begun result
    exact ⟨outcome, rfl, restarted_of_gives hrun (whole _) gives⟩
  builds _ _ _ _ _ hears := freshHandler_of_hears hears
  fresh _ _ _ _ _ _ hears := fresh_of_hears hears
  apart := by
    obtain ⟨course, -, manned⟩ := manned_of_run hrun
    exact manned.own
  reports _ _ _ reads mem := told_of_read reads mem
  label := by decide
  startWays _ _ := gives_start_iff
  restartWays _ _ := gives_restart_iff
  proceeds _ inside := proceeds_of_inside hrun inside

/-- A server is restarted. It does not answer in time and is ended; the next one gives an answer
of no use to the first request. -/
def restartedInVain : List Action :=
  List.flatten [served, List.replicate 6 (.advance 0),
    List.replicate 4 (.connection 0 (.advance 1)),
    [.connection 0 (.receive (Frame.encode (.response (.ofNat 2) (.ok .null)))),
      .connection 0 .read, .connection 0 (.advance 1)],
    List.replicate 4 (.advance 0), [.begin .restart], List.replicate 6 (.advance 2),
    List.replicate 4 (.connection 0 (.advance 2)),
    [.elapse 2, .advance 2, .advance 2, .terminated 2], List.replicate 6 (.advance 2),
    [.launched 2 (.ok ()), .advance 2], List.replicate 4 (.connection 1 (.advance 0)),
    [.connection 1 (.receive (Frame.encode (.response (.ofNat 1) (.ok .null)))),
      .connection 1 .read, .connection 1 (.advance 0), .advance 2, .advance 2, .terminated 2],
    List.replicate 4 (.advance 2)]

/-- Came to the fault of a server whose first answer makes no sense. -/
def Result.isSenseless : Result → Bool
  | .outcome (.error (.malformed what)) => what = "the answer to initialize"
  | _ => false

/-- An answer without sense is reported in one way only. -/
theorem eq_of_isSenseless (senseless : (Result.ofUnit outcome).isSenseless = true) :
    outcome = .error (.malformed "the answer to initialize") := by
  cases outcome with
  | ok => contradiction
  | error fault =>
    cases fault with
    | malformed what => rw [of_decide_eq_true senseless]
    | _ => contradiction

/-- Was begun to restart. -/
def Origin.isRestart : Origin → Bool
  | .job .restart => true
  | _ => false

/-- `start_and_restart_settle` where a restart fails after the previous server is gone: both
servers have ended, and there is none. -/
theorem start_and_restart_settle_in_vain :
    ∃ s, run restartedInVain { setup := bareSetup } = some s ∧ s.state = .stopped ∧ s.slot = none ∧
      Restarted restartedInVain { setup := bareSetup } 2 []
        (dialogue 2 restartedInVain { setup := bareSetup })
        (.error (.malformed "the answer to initialize")) ∧
      story 0 (history restartedInVain { setup := bareSetup }) =
        [.filled none, .removed 2 .taken, .asked 2, .ended 2] ∧
      story 1 (history restartedInVain { setup := bareSetup }) = [.ended 2] := by
  -- one evaluation of the run for all that is read off it
  have facts : ((run restartedInVain { setup := bareSetup }).any fun s =>
        s.state = .stopped ∧ s.slot = none ∧ (s.result? 2).any Result.isSenseless = true) = true ∧
      (origins restartedInVain { setup := bareSetup })[2]?.any Origin.isRestart = true ∧
      story 0 (history restartedInVain { setup := bareSetup }) =
        [.filled none, .removed 2 .taken, .asked 2, .ended 2] ∧
      story 1 (history restartedInVain { setup := bareSetup }) = [.ended 2] := by
    decide +kernel
  obtain ⟨ends, begun, told⟩ := facts
  obtain ⟨s, hrun, ends⟩ := (Option.any_eq_true _ _).mp ends
  obtain ⟨stopped, empty, senseless⟩ := of_decide_eq_true ends
  obtain ⟨r, result, senseless⟩ := (Option.any_eq_true _ _).mp senseless
  have isJob : (origins restartedInVain { setup := bareSetup })[2]? = some (.job .restart) := by
    obtain ⟨o, here, restarts⟩ := (Option.any_eq_true _ _).mp begun
    unfold Origin.isRestart at restarts
    split at restarts
    · exact here
    · contradiction
  obtain ⟨outcome, rfl, restarted⟩ := (start_and_restart_settle hrun).restartJobs 2 r isJob result
  have fails := eq_of_isSenseless senseless
  exact ⟨s, hrun, stopped, empty, fails ▸ restarted, told⟩

end EmberClient.Session
