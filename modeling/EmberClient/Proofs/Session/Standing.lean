import EmberClient.Proofs.Session.Slot

/-!
# How state and slot fit together

Seven stretches make up a transition, as far as state and slot go. `Stretch.Fits` says
what holds of the two in each, whether or not a watcher has claimed the slot. One lemma
for each step that changes one of the four says how the fit goes on; `standing_keep`
puts them together.

`Settled` is the fit outside of transitions: with nobody at the slot, the state is
stopped and the slot empty, or the state is ready and a server in the slot.
-/

namespace EmberClient.Session

/-- The parts of a transition, by what holds of the state and the slot. -/
inductive Stretch where
  /-- As outside of transitions. -/
  | settled
  /-- The state was looked at, perhaps for the second time. -/
  | looking (again : Bool) (state : ServerState)
  /-- A server is being brought up. -/
  | rising
  /-- It has been put into the slot. -/
  | published (server : Nat)
  /-- And the state has been set. -/
  | unwatched (server : Nat)
  /-- A restart has set the state. -/
  | restarting
  /-- The slot has been emptied, in a restart (`again`) or a stop. -/
  | down (again : Bool)

def Phase.stretch : Phase → Stretch
  | .looked again state => .looking again state
  | .starting | .building | .launching _ | .up _ | .greeting _ _ | .greeted _ _ | .rejected _ | .ended _
  | .introduced _ _ | .advertised _ | .failing => .rising
  | .published i => .published i
  | .serving i | .configuring i _ | .configured i | .shown i => .unwatched i
  | .restarting => .restarting
  | .shutting again _ | .bidding again _ _ | .leaving again _ | .left again _ | .gone again _
  | .vacant again => .down again
  | _ => .settled

/-- The fit outside of transitions. A watcher that has claimed the slot sets the state
first and empties the slot then. -/
def Settled (claim : Option (Nat × Bool)) (state : ServerState) (slot : Option Nat) : Prop :=
  match claim with
  | none => (state = .stopped ∧ slot = none) ∨ (state = .ready ∧ slot.isSome = true)
  | some (_, false) => state = .ready
  | some (_, true) => state = .stopped

/-- What holds of the state and the slot, by the stretch that the holder of the lock is
in and by the claim on the slot. -/
def Stretch.Fits (claim : Option (Nat × Bool)) (state : ServerState) (slot : Option Nat) :
    Stretch → Prop
  | .settled => Settled claim state slot
  | .looking false seen =>
    Settled claim state slot ∧ (seen = .ready ∨ (seen = .stopped ∧ state = .stopped))
  | .looking true seen =>
    state = seen ∧ slot = none ∧ claim = none ∧ (seen = .stopped ∨ seen = .restarting)
  | .rising => state = .starting ∧ (claim = none → slot = none) ∧ ∀ i, claim ≠ some (i, false)
  | .published i => state = .starting ∧ slot = some i ∧ claim = none
  | .unwatched i => state = .ready ∧ slot = some i ∧ claim = none
  | .restarting => state = .restarting ∨ state = .stopped
  | .down again =>
    slot = none ∧ claim = none ∧ (state = .stopped ∨ state = if again then .restarting else .ready)

/-! ## How the fit goes on -/

section Fits

variable {claim : Option (Nat × Bool)} {state seen : ServerState} {slot : Option Nat} {i : Nat}

/-- Looking at the state asks for nothing that a settled session does not give. -/
theorem fits_look (h : Stretch.settled.Fits claim state slot) :
    (Stretch.looking false state).Fits claim state slot := by
  refine ⟨h, ?_⟩
  match claim, h with
  | none, Or.inl ⟨stopped, _⟩ => exact Or.inr ⟨stopped, stopped⟩
  | none, Or.inr ⟨ready, _⟩ => exact Or.inl ready
  | some (_, false), h => exact Or.inl h
  | some (_, true), h => exact Or.inr ⟨h, h⟩

/-- The second half of a restart looks at what its first half left behind. -/
theorem fits_lookAgain (h : (Stretch.down true).Fits claim state slot) :
    (Stretch.looking true state).Fits claim state slot := by
  obtain ⟨empty, free, stands⟩ := h
  exact ⟨rfl, empty, free, stands⟩

/-- A transition that is refused leaves the session as settled as it found it. -/
theorem fits_refuse {again : Bool} (h : (Stretch.looking again seen).Fits claim state slot)
    (wrong : again = true → seen ≠ .stopped ∧ seen ≠ .restarting) :
    Stretch.settled.Fits claim state slot := by
  cases again with
  | false => exact h.1
  | true =>
    obtain ⟨-, -, -, stopped | restarting⟩ := h
    · exact absurd stopped (wrong rfl).1
    · exact absurd restarting (wrong rfl).2

/-- From either state that permits a start, the session may go to `.starting`. -/
theorem fits_start {again : Bool} (h : (Stretch.looking again seen).Fits claim state slot)
    (right : seen = .stopped ∨ seen = .restarting) :
    Stretch.rising.Fits claim .starting slot := by
  refine ⟨rfl, ?_⟩
  cases again with
  | true =>
    obtain ⟨-, empty, rfl, -⟩ := h
    exact ⟨fun _ => empty, by simp⟩
  | false =>
    obtain ⟨settled, ready | ⟨-, stopped⟩⟩ := h
    · subst ready
      exact absurd right (by simp)
    · subst stopped
      match claim, settled with
      | none, Or.inl ⟨_, empty⟩ => exact ⟨fun _ => empty, by simp⟩
      | some (_, true), _ => exact ⟨by simp, by simp⟩

/-- A start that fails on the way up falls back to `.stopped` with the slot as it is. -/
theorem fits_fail (h : Stretch.rising.Fits claim state slot) :
    Stretch.settled.Fits claim .stopped slot := by
  obtain ⟨-, empty, claimed⟩ := h
  match claim with
  | none => exact Or.inl ⟨rfl, empty rfl⟩
  | some (j, false) => exact absurd rfl (claimed j)
  | some (_, true) => exact rfl

/-- The slot is empty when a server is put into it, and holds that server from then on. -/
theorem fits_publish (h : Stretch.rising.Fits none state slot) :
    slot = none ∧ (Stretch.published i).Fits none state (some i) := by
  obtain ⟨starting, empty, -⟩ := h
  exact ⟨empty rfl, starting, rfl, rfl⟩

theorem fits_ready (h : (Stretch.published i).Fits claim state slot) :
    (Stretch.unwatched i).Fits claim .ready slot :=
  ⟨rfl, h.2⟩

theorem fits_watch (h : (Stretch.unwatched i).Fits claim state slot) :
    Stretch.settled.Fits claim state slot := by
  obtain ⟨ready, filled, rfl⟩ := h
  exact Or.inr ⟨ready, by rw [filled]; rfl⟩

/-- Emptying the slot of a settled session is the beginning of going down. -/
theorem fits_take (h : Stretch.settled.Fits none state slot) :
    (Stretch.down false).Fits none state none := by
  refine ⟨rfl, rfl, ?_⟩
  rcases h with ⟨stopped, -⟩ | ⟨ready, -⟩
  · exact Or.inl stopped
  · exact Or.inr ready

theorem fits_retake (h : Stretch.restarting.Fits claim state slot) :
    (Stretch.down true).Fits none state none :=
  ⟨rfl, rfl, h.symm⟩

/-- With the slot empty, `.stopped` settles the session. -/
theorem fits_stop (h : (Stretch.down false).Fits claim state slot) :
    Stretch.settled.Fits claim .stopped slot := by
  obtain ⟨empty, rfl, -⟩ := h
  exact Or.inl ⟨rfl, empty⟩

/-- A watcher may claim the slot in every stretch in which its server is there. -/
theorem fits_claim {S : Stretch} (h : S.Fits none state slot) (mine : slot = some i)
    (published : S ≠ .published i) (unwatched : S ≠ .unwatched i) :
    S.Fits (some (i, false)) state slot := by
  subst mine
  have ready : Settled none state (some i) → state = .ready := by
    rintro (⟨-, empty⟩ | ⟨ready, -⟩)
    · exact absurd empty (by simp)
    · exact ready
  match S, h with
  | .settled, h => exact ready h
  | .looking false seen, ⟨settled, saw⟩ => exact ⟨ready settled, saw⟩
  | .looking true seen, ⟨_, empty, _⟩ => exact absurd empty (by simp)
  | .rising, ⟨_, empty, _⟩ => exact absurd (empty rfl) (by simp)
  | .published j, ⟨_, filled, _⟩ =>
    obtain rfl := Option.some.inj filled
    exact absurd rfl published
  | .unwatched j, ⟨_, filled, _⟩ =>
    obtain rfl := Option.some.inj filled
    exact absurd rfl unwatched
  | .restarting, h => exact h
  | .down again, ⟨empty, _⟩ => exact absurd empty (by simp)

/-- It sets the state. -/
theorem fits_halt {S : Stretch} (h : S.Fits (some (i, false)) state slot) :
    S.Fits (some (i, true)) .stopped slot := by
  match S, h with
  | .settled, _ => exact rfl
  | .looking false seen, ⟨_, saw⟩ => exact ⟨rfl, saw.imp_right fun h => ⟨h.1, rfl⟩⟩
  | .looking true seen, ⟨_, _, free, _⟩ => exact absurd free (by simp)
  | .rising, ⟨_, _, claimed⟩ => exact absurd rfl (claimed i)
  | .published j, ⟨_, _, free⟩ => exact absurd free (by simp)
  | .unwatched j, ⟨_, _, free⟩ => exact absurd free (by simp)
  | .restarting, _ => exact Or.inr rfl
  | .down again, ⟨_, free, _⟩ => exact absurd free (by simp)

/-- And it empties the slot. -/
theorem fits_vacate {S : Stretch} (h : S.Fits (some (i, true)) state slot) :
    S.Fits none state none := by
  match S, h with
  | .settled, h => exact Or.inl ⟨h, rfl⟩
  | .looking false seen, ⟨stopped, saw⟩ => exact ⟨Or.inl ⟨stopped, rfl⟩, saw⟩
  | .looking true seen, ⟨_, _, free, _⟩ => exact absurd free (by simp)
  | .rising, ⟨starting, _, _⟩ => exact ⟨starting, fun _ => rfl, by simp⟩
  | .published j, ⟨_, _, free⟩ => exact absurd free (by simp)
  | .unwatched j, ⟨_, _, free⟩ => exact absurd free (by simp)
  | .restarting, h => exact h
  | .down again, ⟨_, free, _⟩ => exact absurd free (by simp)

end Fits

/-! ## The stretch and the claim of a session -/

/-- The stretch that the holder of the lock is in. -/
def stretchOf (s : Session) (course : Nat → Phase) : Stretch :=
  match s.lock.head? with
  | some task => (course task).stretch
  | none => .settled

/-- The claim on the slot. -/
def claimOf (s : Session) (course : Nat → Phase) : Option (Nat × Bool) :=
  s.claimant.bind fun task => (course task).claim

/-- A task without the lifecycle lock is in no stretch of its own. -/
theorem stretch_of_not_holds {φ : Phase} (h : φ.holds = false) : φ.stretch = .settled := by
  cases φ <;> first | rfl | exact absurd h (by simp [Phase.holds])

/-- The task that holds the lifecycle lock has claimed no exit. -/
theorem claim_of_holds {φ : Phase} (h : φ.holds = true) : φ.claim = none := by
  cases φ <;> first | rfl | exact absurd h (by simp [Phase.holds])

/-- Only one task holds the lock, so its stretch is the session's. -/
theorem stretchOf_holder {s : Session} {course : Nat → Phase} (inv : Locking s course) {task : Nat}
    (held : (course task).holds = true) : stretchOf s course = (course task).stretch := by
  simp only [stretchOf, inv.holder task held]

/-- Outside of transitions state and slot are settled. -/
theorem stretchOf_free {s : Session} {course : Nat → Phase}
    (free : ∀ task, s.lock.head? = some task → (course task).holds = false) :
    stretchOf s course = .settled := by
  unfold stretchOf
  split
  next task first => exact stretch_of_not_holds (free task first)
  next => rfl

/-- One that is in no transition before or after leaves the stretch as it is. -/
theorem stretchOf_bystander {s s' : Session} {course : Nat → Phase} {task : Nat} {φ : Phase}
    (lock : s'.lock = s.lock) (stretch : φ.stretch = (course task).stretch) :
    stretchOf s' (Function.update course task φ) = stretchOf s course := by
  unfold stretchOf
  rw [lock]
  cases s.lock.head? with
  | none => rfl
  | some u => exact view_update (fun _ ψ => ψ.stretch) stretch u

/-- Only one task has a claim, so its claim is the session's. -/
theorem claimOf_claimant {s : Session} {course : Nat → Phase} (inv : Claiming s course)
    {task : Nat} {w : Nat × Bool} (claim : (course task).claim = some w) :
    claimOf s course = some w := by
  have mine := (inv.claimed task).mp (by rw [claim]; rfl)
  simp only [claimOf, mine, Option.bind_some, claim]

theorem claimOf_free {s : Session} {course : Nat → Phase} (free : s.claimant = none) :
    claimOf s course = none := by
  simp only [claimOf, free, Option.bind_none]

/-- A step of a task that neither takes nor gives up a claim leaves the session's claim alone. -/
theorem claimOf_bystander {s s' : Session} {course : Nat → Phase} {task : Nat} {φ : Phase}
    (claimant : s'.claimant = s.claimant) (claim : φ.claim = (course task).claim) :
    claimOf s' (Function.update course task φ) = claimOf s course := by
  unfold claimOf
  rw [claimant]
  cases s.claimant with
  | none => rfl
  | some u => exact view_update (fun _ ψ => ψ.claim) claim u

/-- A server that is in the slot and not watched is one whose start is under way. -/
theorem rears_of_stretchOf {s : Session} {course : Nat → Phase} {i : Nat}
    (h : stretchOf s course = .published i ∨ stretchOf s course = .unwatched i) :
    ∃ task, (course task).rears = some i := by
  unfold stretchOf at h
  split at h
  next task first =>
    refine ⟨task, ?_⟩
    generalize course task = φ at h
    cases φ <;> simp_all [Phase.stretch, Phase.rears]
  next => exact absurd h (by simp)

/-! ## What every move keeps -/

/-- State and slot stand as the holder of the lock and the claimant have left them. -/
structure Standing (s : Session) (course : Nat → Phase) : Prop where
  locking : Locking s course
  knowing : Knowing s course
  apart : Apart course
  claiming : Claiming s course
  fits : (stretchOf s course).Fits (claimOf s course) s.state s.slot

/-- Questions after which the fit has to be looked at. -/
def bearsOnFit : Question → Bool
  | .lock | .state => true
  | q => changesCore q

/-- No other step moves a transition on to its next stretch. -/
theorem step_stretch {setup : Setup} {φ φ' : Phase} {q : Question} {r : q.Reply}
    (step : Phase.Step setup φ q r φ') (other : ∀ server, q ≠ .watch server)
    (bears : bearsOnFit q = false) : φ'.stretch = φ.stretch ∧ φ'.claim = φ.claim := by
  cases step with
  | watch => exact absurd rfl (other _)
  | lock | look | refuse | start | fail | publish | ready | restart | take | takeNone | retake
  | retakeNone | lookAgain | stop | unlock | claim | unclaimed | halt | vacate =>
    exact absurd bears (by simp [bearsOnFit, changesCore])
  | _ => exact ⟨rfl, rfl⟩

/-- The fit goes on when the holder of the lock takes a step that keeps the claim. -/
theorem Standing.holder {s s₁ : Session} {course : Nat → Phase} {task : Nat} {φ : Phase}
    (inv : Standing s course) (held : (course task).holds = true)
    (lock : s₁.lock = s.lock) (claimant : s₁.claimant = s.claimant) (holds : φ.holds = true)
    (fits : (course task).stretch.Fits (claimOf s course) s.state s.slot →
      φ.stretch.Fits (claimOf s course) s₁.state s₁.slot) :
    (stretchOf s₁ (Function.update course task φ)).Fits
      (claimOf s₁ (Function.update course task φ)) s₁.state s₁.slot := by
  have first := inv.locking.holder task held
  have claim : φ.claim = (course task).claim := by rw [claim_of_holds holds, claim_of_holds held]
  rw [claimOf_bystander claimant claim]
  have now : stretchOf s₁ (Function.update course task φ) = φ.stretch := by
    simp only [stretchOf, lock, first, Function.update_self]
  rw [now]
  refine fits ?_
  rw [← stretchOf_holder inv.locking held]
  exact inv.fits

/-! ### One lemma for each question that bears on the fit -/

section Bearing

variable {setup : Setup} {φ φ' : Phase}

/-- The state is written in two ways: by the task that reports an exit it claimed, or by the holder
of the lifecycle lock as part of its stretch. -/
theorem step_setState {state : ServerState} {r : Unit}
    (step : Phase.Step setup φ (.setState state) r φ') :
    (∃ i, φ = .holding i ∧ φ' = .stopping i ∧ state = .stopped) ∨
      (φ.holds = true ∧ φ'.holds = true ∧
        ∀ claim old slot, φ.stretch.Fits claim old slot → φ'.stretch.Fits claim state slot) := by
  cases step with
  | idle h => exact absurd h (by simp [isIdle])
  | start right => exact Or.inr ⟨rfl, rfl, fun _ _ _ h => fits_start h right⟩
  | fail => exact Or.inr ⟨rfl, rfl, fun _ _ _ h => fits_fail h⟩
  | ready => exact Or.inr ⟨rfl, rfl, fun _ _ _ h => fits_ready h⟩
  | restart => exact Or.inr ⟨rfl, rfl, fun _ _ _ _ => Or.inl rfl⟩
  | stop => exact Or.inr ⟨rfl, rfl, fun _ _ _ h => fits_stop h⟩
  | halt => exact Or.inl ⟨_, rfl, rfl, rfl⟩

/-- Only the holder of the lifecycle lock looks at the state. -/
theorem step_state {state : ServerState} (step : Phase.Step setup φ .state state φ') :
    φ.holds = true ∧ φ'.holds = true ∧
      ∀ claim slot, φ.stretch.Fits claim state slot → φ'.stretch.Fits claim state slot := by
  cases step with
  | idle h => exact absurd h (by simp [isIdle])
  | look => exact ⟨rfl, rfl, fun _ _ h => fits_look h⟩
  | lookAgain => exact ⟨rfl, rfl, fun _ _ h => fits_lookAgain h⟩

theorem step_setCurrent {i : Nat} {r : Unit} (step : Phase.Step setup φ (.setCurrent i) r φ') :
    φ = .advertised i ∧ φ' = .published i := by
  cases step with
  | idle h => exact absurd h (by simp [isIdle])
  | publish => exact ⟨rfl, rfl⟩

/-- The slot is emptied at the two places where a server is taken down: in a stop and in the first
half of a restart. -/
theorem step_takeCurrent {slot : Option Nat} (step : Phase.Step setup φ .takeCurrent slot φ') :
    ∃ again, φ = (if again then .restarting else .locked) ∧
      φ' = (match slot with
        | some i => .shutting again i
        | none => .vacant again) := by
  cases step with
  | idle h => exact absurd h (by simp [isIdle])
  | take => exact ⟨false, rfl, rfl⟩
  | takeNone => exact ⟨false, rfl, rfl⟩
  | retake => exact ⟨true, rfl, rfl⟩
  | retakeNone => exact ⟨true, rfl, rfl⟩

theorem fits_of_step_takeCurrent {slot : Option Nat} {state : ServerState}
    (step : Phase.Step setup φ .takeCurrent slot φ') (h : φ.stretch.Fits none state slot) :
    φ.holds = true ∧ φ'.holds = true ∧ φ'.stretch.Fits none state none := by
  cases step with
  | idle h => exact absurd h (by simp [isIdle])
  | take | takeNone => exact ⟨rfl, rfl, fits_take h⟩
  | retake | retakeNone => exact ⟨rfl, rfl, fits_retake h⟩

/-- Every place where the lifecycle lock is given back leaves the session settled. -/
theorem fits_of_step_unlock {r : Unit} {claim : Option (Nat × Bool)} {state : ServerState}
    {slot : Option Nat} (step : Phase.Step setup φ .unlock r φ')
    (h : φ.stretch.Fits claim state slot) : Stretch.settled.Fits claim state slot := by
  cases step with
  | idle h => exact absurd h (by simp [isIdle])
  | refuse wrong => exact fits_refuse h wrong
  | unlock => exact h

end Bearing

/-- A watcher's step leaves the stretch as it is. -/
theorem stretchOf_watcher {s s₁ : Session} {course : Nat → Phase} {task : Nat} {φ : Phase}
    (lock : s₁.lock = s.lock) (before : (course task).holds = false) (after : φ.holds = false) :
    stretchOf s₁ (Function.update course task φ) = stretchOf s course :=
  stretchOf_bystander lock ((stretch_of_not_holds after).trans (stretch_of_not_holds before).symm)

section Answered

variable {s : Session} {course : Nat → Phase} {task i : Nat}

/-- Whoever gives the lock back leaves state and slot settled. -/
theorem Standing.fits_of_unlock {s₁ : Session} {r : Unit} {φ : Phase}
    {acts : Nat → Option Connection.Action} (inv : Standing s course)
    (step : Phase.Step s.setup (course task) .unlock r φ) (replies : Replies s task .unlock r acts s₁) :
    (stretchOf s₁ (Function.update course task φ)).Fits
      (claimOf s₁ (Function.update course task φ)) s₁.state s₁.slot := by
  obtain ⟨held, rfl⟩ := step_unlock step
  have eq := replies_unlock replies
  -- whoever is next in the queue has not come in yet
  have free : ∀ u, (Function.update course task (.free []) u).holds = false := by
    intro u
    by_cases same : u = task
    · rw [same, Function.update_self]
      rfl
    · rw [Function.update_of_ne same]
      exact Bool.eq_false_iff.mpr fun h => same (inv.locking.unique h held)
  have claimant : s₁.claimant = s.claimant := by rw [eq]
  have claim : (Phase.free []).claim = (course task).claim := (claim_of_holds held).symm
  rw [stretchOf_free fun u _ => free u, claimOf_bystander claimant claim]
  have fits := inv.fits
  rw [stretchOf_holder inv.locking held] at fits
  rw [eq]
  exact fits_of_step_unlock step fits

/-- A watcher claims the slot that its server is in. -/
theorem Standing.fits_of_claim (inv : Standing s course) (stands : course task = .noticed i)
    (free : s.claimant = none) (mine : s.slot = some i) :
    (stretchOf { s with claimant := some task } (Function.update course task (.holding i))).Fits
      (claimOf { s with claimant := some task } (Function.update course task (.holding i)))
      s.state s.slot := by
  have now : claimOf { s with claimant := some task } (Function.update course task (.holding i)) =
      some (i, false) := by
    simp only [claimOf, Option.bind_some, Function.update_self, Phase.claim]
  rw [stretchOf_watcher rfl (by rw [stands]; rfl) rfl, now]
  have fits := inv.fits
  rw [claimOf_free free] at fits
  have watches : (course task).watches = some i := by rw [stands]; rfl
  -- a server that is being brought up has no watcher yet
  refine fits_claim fits mine ?_ ?_
  · intro same
    obtain ⟨u, rears⟩ := rears_of_stretchOf (Or.inl same)
    exact inv.apart u task i rears watches
  · intro same
    obtain ⟨u, rears⟩ := rears_of_stretchOf (Or.inr same)
    exact inv.apart u task i rears watches

/-- A watcher that has claimed the slot stops. -/
theorem Standing.fits_of_halt (inv : Standing s course) (stands : course task = .holding i) :
    (stretchOf { s with state := .stopped } (Function.update course task (.stopping i))).Fits
      (claimOf { s with state := .stopped } (Function.update course task (.stopping i)))
      .stopped s.slot := by
  have claim : (course task).claim = some (i, false) := by rw [stands]; rfl
  have mine := (inv.claiming.claimed task).mp (by rw [claim]; rfl)
  have now : claimOf { s with state := .stopped } (Function.update course task (.stopping i)) =
      some (i, true) := by
    simp only [claimOf, mine, Option.bind_some, Function.update_self, Phase.claim]
  rw [stretchOf_watcher rfl (by rw [stands]; rfl) rfl, now]
  have fits := inv.fits
  rw [claimOf_claimant inv.claiming claim] at fits
  exact fits_halt fits

/-- A watcher that has stopped empties the slot. -/
theorem Standing.fits_of_vacate (inv : Standing s course) (stands : course task = .stopping i) :
    (stretchOf { s with slot := none, claimant := none }
        (Function.update course task (.reporting i))).Fits
      (claimOf { s with slot := none, claimant := none } (Function.update course task (.reporting i)))
      s.state none := by
  have claim : (course task).claim = some (i, true) := by rw [stands]; rfl
  rw [stretchOf_watcher rfl (by rw [stands]; rfl) rfl, claimOf_free rfl]
  have fits := inv.fits
  rw [claimOf_claimant inv.claiming claim] at fits
  exact fits_vacate fits

end Answered

/-- The fit goes on when a question is answered that bears on it. -/
theorem Standing.fits_of_reply {s s₁ : Session} {course : Nat → Phase} {task : Nat} {q : Question}
    {r : q.Reply} {acts : Nat → Option Connection.Action} {φ : Phase} (inv : Standing s course)
    (step : Phase.Step s.setup (course task) q r φ) (replies : Replies s task q r acts s₁)
    (bears : bearsOnFit q = true) :
    (stretchOf s₁ (Function.update course task φ)).Fits
      (claimOf s₁ (Function.update course task φ)) s₁.state s₁.slot := by
  cases q with
  | lock =>
    obtain ⟨⟨known, free⟩, rfl⟩ := step_lock step
    obtain ⟨-, rfl⟩ := replies_lock replies
    rw [stretchOf_bystander rfl (by rw [free]; rfl), claimOf_bystander rfl (by rw [free]; rfl)]
    exact inv.fits
  | unlock =>
    exact inv.fits_of_unlock step replies
  | state =>
    obtain ⟨rfl, rfl⟩ := replies_state replies
    obtain ⟨held, holds, fits⟩ := step_state step
    exact inv.holder held rfl rfl holds fun h => fits _ _ h
  | setState state =>
    have eq := replies_setState replies
    rcases step_setState step with ⟨i, stands, rfl, rfl⟩ | ⟨held, holds, fits⟩
    · rw [eq]
      exact inv.fits_of_halt stands
    · obtain rfl := eq
      exact inv.holder held rfl rfl holds fun h => fits _ _ _ h
  | setCurrent i =>
    obtain ⟨stands, rfl⟩ := step_setCurrent step
    obtain ⟨free, rfl⟩ := replies_setCurrent replies
    have held : (course task).holds = true := by rw [stands]; rfl
    refine inv.holder held rfl rfl rfl fun h => ?_
    rw [claimOf_free free] at h ⊢
    rw [stands] at h
    exact (fits_publish h).2
  | takeCurrent =>
    -- a watcher that had claimed the slot would have kept it shut
    obtain ⟨free, rfl, rfl⟩ := replies_takeCurrent replies
    obtain ⟨again, stands, -⟩ := step_takeCurrent step
    have held : (course task).holds = true := by rw [stands]; cases again <;> rfl
    have fits := inv.fits
    rw [stretchOf_holder inv.locking held, claimOf_free free] at fits
    obtain ⟨-, holds, now⟩ := fits_of_step_takeCurrent step fits
    refine inv.holder held rfl rfl holds fun _ => ?_
    rw [claimOf_free free]
    exact now
  | claim i =>
    obtain ⟨stands, goes⟩ := step_claimed step
    obtain ⟨free, ⟨rfl, mine, eq⟩ | ⟨rfl, -, rfl⟩⟩ := replies_claim replies
    · obtain rfl : φ = .holding i := goes
      rw [eq]
      exact inv.fits_of_claim stands free mine
    · obtain rfl : φ = .free [] := goes
      have watcher : (course task).holds = false := by rw [stands]; rfl
      rw [stretchOf_watcher rfl watcher rfl, claimOf_bystander rfl (by rw [stands]; rfl)]
      exact inv.fits
  | vacate =>
    obtain ⟨i, stands, rfl⟩ := step_vacate step
    rw [replies_vacate replies]
    exact inv.fits_of_vacate stands
  | _ => exact absurd bears (by simp [bearsOnFit, changesCore])

/-- Where state, slot and claimant stay, so does what stands. -/
theorem fits_of_sameCore {s s' : Session} {course : Nat → Phase}
    (fits : (stretchOf s course).Fits (claimOf s course) s.state s.slot) (same : SameCore s s') :
    (stretchOf s' course).Fits (claimOf s' course) s'.state s'.slot := by
  rw [stretchOf, claimOf, same.lock, same.claimant, same.state, same.slot]
  exact fits

/-- A start that begins the watcher of its server leaves state and slot settled. -/
theorem Standing.fits_of_watch {s : Session} {course : Nat → Phase} {task server : Nat} {t : Task}
    {p : Prog Result} (inv : Standing s course) (on : OnCourse s course)
    (here : s.tasks[task]? = some t) (stands : course task = .shown server) :
    let s' := (s.spawn (Lifecycle.watchExit server)).setProgram task p
    let course' := Function.update (Function.update course s.tasks.length (.watching server)) task
      .finishing
    (stretchOf s' course').Fits (claimOf s' course') s'.state s'.slot := by
  intro s' course'
  have inside := length_of_getElem? here
  have held : (course task).holds = true := by rw [stands]; rfl
  have beyond := on.beyond _ (Nat.le_refl _)
  have first := inv.locking.holder task held
  have stretch : stretchOf s' course' = .settled := by
    show (match s.lock.head? with | some _ => _ | none => _) = _
    simp only [first, course', Function.update_self]
    rfl
  -- the new watcher is in no transition and claims nothing
  have grown : claimOf s (Function.update course s.tasks.length (.watching server)) =
      claimOf s course := claimOf_bystander rfl (by rw [beyond]; rfl)
  have other : (Function.update course s.tasks.length (.watching server) task).claim = none := by
    rw [Function.update_of_ne (Nat.ne_of_lt inside), stands]
    rfl
  have claim : claimOf s' course' =
      claimOf s (Function.update course s.tasks.length (.watching server)) :=
    claimOf_bystander rfl other.symm
  rw [stretch, claim, grown]
  have fits := inv.fits
  rw [stretchOf_holder inv.locking held, stands] at fits
  exact fits_watch fits

/-- Who lines up for the lock is in no transition yet. -/
theorem stretchOf_lineUp {s : Session} {course : Nat → Phase} {task : Nat}
    (outside : (course task).holds = false) :
    stretchOf ({ s with lock := s.lock ++ [task] }.markPut task) course = stretchOf s course := by
  show (match (s.lock ++ [task]).head? with | some u => (course u).stretch | none => _) = _
  unfold stretchOf
  rw [List.head?_append]
  cases s.lock.head? with
  | none => exact stretch_of_not_holds outside
  | some u => rfl

/-- Every move of the system keeps what stands. -/
theorem standing_keep {s s' : Session} {course course' : Nat → Phase} {e : Option Happening}
    {acts : Nat → Option Connection.Action} (inv : Standing s course) (on : OnCourse s course)
    (move : Move s course e acts s' course') : Standing s' course' := by
  refine ⟨locking_keep inv.locking on move, knowing_keep inv.knowing move,
    apart_keep inv.apart inv.locking inv.knowing move, claiming_keep inv.claiming on move, ?_⟩
  cases move with
  | @asks task t q next r acts s₁ φ here question step replies other =>
    show (stretchOf s₁ (Function.update course task φ)).Fits
      (claimOf s₁ (Function.update course task φ)) s₁.state s₁.slot
    cases bears : bearsOnFit q with
    | true => exact inv.fits_of_reply step replies bears
    | false =>
      obtain ⟨stretch, claim⟩ := step_stretch step other bears
      have spares : changesCore q = false := by cases q <;> first | rfl | exact bears
      have same := (replies_frame replies other).2 spares
      rw [stretchOf_bystander same.lock stretch, claimOf_bystander same.claimant claim, same.state,
        same.slot]
      exact inv.fits
  | watches here question stands => exact inv.fits_of_watch on here stands
  | wants here question new =>
    rw [stretchOf_lineUp (on.not_holds_of_lock here question)]
    exact inv.fits
  | @acts server c c' act events conn spontaneous hstep =>
    exact fits_of_sameCore inv.fits (core_acts s server c' events)
  | quiet same servers queued => exact fits_of_sameCore inv.fits same

theorem standing_start (setup : Setup) (files : FileSystem) (view : EditorView) :
    Standing { setup, files, view } fun _ => .free [] := by
  refine ⟨⟨List.nodup_nil, by simp [Phase.holds], by simp⟩, ⟨?_, by simp⟩, ?_, ⟨?_, ?_⟩, ?_⟩
  · exact fun task i mem => absurd mem List.not_mem_nil
  · exact fun t u i rears => absurd rears (by simp [Phase.rears])
  · simp [Phase.claim]
  · simp [Phase.claim]
  · exact Or.inl ⟨rfl, rfl⟩

end EmberClient.Session
