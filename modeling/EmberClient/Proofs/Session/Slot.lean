import EmberClient.Proofs.Session.Locking

/-!
# The state and the slot

State and slot are two things, each changed on its own, and a watcher changes both
without waiting for the lock. What holds of the two together depends on how far the
transition is that holds the lock, if one does, and on whether a watcher has claimed
the slot: `Fits` says what, for each stretch of a transition.

Three smaller invariants support it: no program speaks of a server that is not up
(`Knowing`), a server is not watched before its start is over (`Apart`), and whoever
has claimed the slot is at the two steps that a claim is for (`Claiming`).
-/

namespace EmberClient.Session

/-! ## What phases tell -/

/-- The servers that a program in this phase speaks of. -/
def Phase.mentions : Phase → List Nat
  | .free known => known
  | .up i | .greeting i _ | .greeted i _ | .rejected i | .ended i | .introduced i _ | .advertised i
  | .published i | .serving i | .configuring i _ | .configured i | .shown i | .shutting _ i
  | .bidding _ i _ | .leaving _ i | .left _ i | .gone _ i | .watching i | .noticed i | .holding i
  | .stopping i | .reporting i | .alarmed i | .burying i | .buried i => [i]
  | .locked | .looked _ _ | .starting | .building | .launching _ | .failing | .failed | .restarting | .vacant _
  | .finishing => []

/-- The server whose start is under way. -/
def Phase.rears : Phase → Option Nat
  | .up i | .greeting i _ | .greeted i _ | .rejected i | .ended i | .introduced i _ | .advertised i
  | .published i | .serving i | .configuring i _ | .configured i | .shown i => some i
  | _ => none

/-- The server that is watched and may still be claimed. -/
def Phase.watches : Phase → Option Nat
  | .watching i | .noticed i | .holding i | .stopping i => some i
  | _ => none

/-- The server for which the slot is claimed, and whether the state has been set. -/
def Phase.claim : Phase → Option (Nat × Bool)
  | .holding i => some (i, false)
  | .stopping i => some (i, true)
  | _ => none

/-- The server that a phase watches is one that it mentions. -/
theorem mem_mentions_of_watches {φ : Phase} {i : Nat} (h : φ.watches = some i) :
    i ∈ φ.mentions := by
  cases φ <;> simp_all [Phase.watches, Phase.mentions]

/-- Only the holder of the lock rears a server. -/
theorem holds_of_rears {φ : Phase} {i : Nat} (h : φ.rears = some i) : φ.holds = true := by
  cases φ <;> simp_all [Phase.rears, Phase.holds]

/-! ## Which servers a program speaks of -/

/-- The server is up. -/
def Up (s : Session) (i : Nat) : Prop := ∃ c, s.connection? i = some c

/-- The server that a reply brings into play. -/
def brings : (q : Question) → q.Reply → Option Nat
  | .launch _, .ok i => some i
  | .current, slot => slot
  | .takeCurrent, slot => slot
  | _, _ => none

/-- A program speaks of servers that replies brought into play. -/
theorem step_mentions {setup : Setup} {φ φ' : Phase} {q : Question} {r : q.Reply} {i : Nat}
    (step : Phase.Step setup φ q r φ') (mem : i ∈ φ'.mentions) :
    i ∈ φ.mentions ∨ brings q r = some i := by
  cases step with
  | current slot =>
    rcases List.mem_append.mp mem with new | old
    · exact Or.inr (Option.mem_toList.mp new)
    · exact Or.inl old
  | launched server | take | retake => exact Or.inr (congrArg some (List.mem_singleton.mp mem).symm)
  | run outcome => exact absurd mem List.not_mem_nil
  | _ => first | exact Or.inl mem | exact absurd mem List.not_mem_nil

/-- All servers that programs speak of are up, and so is the one in the slot. -/
structure Knowing (s : Session) (course : Nat → Phase) : Prop where
  mentioned : ∀ task, ∀ i ∈ (course task).mentions, Up s i
  current : ∀ i, s.slot = some i → Up s i

/-- A server that is up stays up. -/
theorem Move.up {s s' : Session} {course course' : Nat → Phase} {e : Option Happening}
    {acts : Nat → Option Connection.Action} (move : Move s course e acts s' course') {i : Nat}
    (h : Up s i) : Up s' i := by
  obtain ⟨c, conn⟩ := h
  have acted := move.acted i
  rw [conn] at acted
  generalize acts i = act at acted
  generalize after : s'.connection? i = d at acted
  cases acted with
  | same => exact ⟨c, after⟩
  | step hstep => exact ⟨_, after⟩

/-- A server that comes up was not there before. -/
theorem missing_of_new (s : Session) : ¬ Up s s.servers.length := by
  rintro ⟨c, conn⟩
  rw [connection?, List.getElem?_eq_none (Nat.le_refl _)] at conn
  exact absurd conn (by simp)

/-- What the launcher brings was not there before. -/
theorem missing_of_brings {s s₁ : Session} {task i handler : Nat} {came : Except Fault Nat}
    {acts : Nat → Option Connection.Action} (replies : Replies s task (.launch handler) came acts s₁)
    (new : Session.brings (.launch handler) came = some i) : ¬ Up s i := by
  cases replies with
  | own replied => exact absurd replied (by simp [reply])
  | launched =>
    obtain rfl := Option.some.inj new
    exact missing_of_new s
  | unlaunched fault => exact absurd new (by simp [Session.brings])

theorem up_of_new (s : Session) (handler : Nat) :
    Up { s with servers := s.servers ++ [{ handler }] } s.servers.length := by
  refine ⟨{}, ?_⟩
  show ((s.servers ++ [_])[s.servers.length]?).map _ = _
  rw [List.getElem?_append_right (Nat.le_refl _), Nat.sub_self]
  rfl

/-- A reply brings only servers into play that are up. -/
theorem Knowing.brings {s s₁ : Session} {course : Nat → Phase} {task i : Nat} {q : Question}
    {r : q.Reply} {acts : Nat → Option Connection.Action} (inv : Knowing s course)
    (h : Replies s task q r acts s₁) (new : Session.brings q r = some i) :
    Up s i ∨ ((∃ handler, q = .launch handler) ∧ i = s.servers.length ∧ Up s₁ i) := by
  cases q with
  | launch handler =>
    cases h with
    | own h => exact absurd h (by simp [reply])
    | launched =>
      obtain rfl := Option.some.inj new
      exact Or.inr ⟨⟨_, rfl⟩, rfl, up_of_new s handler⟩
    | unlaunched fault => exact absurd new (by simp [Session.brings])
  | current =>
    obtain ⟨rfl, -⟩ := replies_current h
    exact Or.inl (inv.current i new)
  | takeCurrent =>
    obtain ⟨-, rfl, -⟩ := replies_takeCurrent h
    exact Or.inl (inv.current i new)
  | _ => exact absurd new (by simp [Session.brings])

/-- What is in the slot was in it before, or is put in. -/
theorem slot_of_replies {s s₁ : Session} {task i : Nat} {q : Question} {r : q.Reply}
    {acts : Nat → Option Connection.Action} (h : Replies s task q r acts s₁)
    (other : ∀ server, q ≠ .watch server) (mem : s₁.slot = some i) :
    s.slot = some i ∨ q = .setCurrent i := by
  cases q with
  | unlock =>
    obtain rfl := replies_unlock h
    exact Or.inl mem
  | setState state =>
    obtain rfl := replies_setState h
    exact Or.inl mem
  | setCurrent server =>
    obtain ⟨-, rfl⟩ := replies_setCurrent h
    exact Or.inr (congrArg Question.setCurrent (Option.some.inj mem))
  | takeCurrent =>
    obtain ⟨-, -, rfl⟩ := replies_takeCurrent h
    exact absurd mem (by simp)
  | claim server =>
    rcases (replies_claim h).2 with ⟨-, -, rfl⟩ | ⟨-, -, rfl⟩
    · exact Or.inl mem
    · exact Or.inl mem
  | vacate =>
    obtain rfl := replies_vacate h
    exact absurd mem (by simp)
  | _ => exact Or.inl (((replies_frame h other).2 rfl).slot ▸ mem)

/-- No move makes a task mention a server that was never launched. -/
theorem knowing_keep {s s' : Session} {course course' : Nat → Phase} {e : Option Happening}
    {acts : Nat → Option Connection.Action} (inv : Knowing s course)
    (move : Move s course e acts s' course') : Knowing s' course' := by
  have old : (∀ i, s'.slot = some i → s.slot = some i) → course' = course → Knowing s' course' := by
    rintro slot rfl
    refine ⟨?_, ?_⟩
    · exact fun task i mem => move.up (inv.mentioned task i mem)
    · exact fun i hi => move.up (inv.current i (slot i hi))
  cases id move with
  | @asks task t q next r acts s₁ φ here question step replies other =>
    refine ⟨?_, ?_⟩
    · intro u i mem
      by_cases same : u = task
      · subst same
        rw [Function.update_self] at mem
        rcases step_mentions step mem with before | new
        · exact move.up (inv.mentioned u i before)
        · rcases inv.brings replies new with there | ⟨-, -, there⟩
          · exact move.up there
          · exact there
      · rw [Function.update_of_ne same] at mem
        exact move.up (inv.mentioned u i mem)
    · intro i hi
      -- what is in the slot was there before, or is the server that this task has brought up
      rcases slot_of_replies replies other hi with before | rfl
      · exact move.up (inv.current i before)
      · refine move.up (inv.mentioned task i ?_)
        generalize course task = ψ at step
        cases step with
        | idle h => exact absurd h (by simp [isIdle])
        | publish => exact List.mem_singleton_self _
  | @watches task t server next here question stands =>
    refine ⟨?_, fun i hi => move.up (inv.current i hi)⟩
    intro u i mem
    have shown : Up s server := by
      refine inv.mentioned task server ?_
      rw [stands]
      exact List.mem_singleton_self _
    rcases watches_cases course s.tasks.length server task u with
      ⟨-, now⟩ | ⟨-, -, now⟩ | ⟨-, -, now⟩
    · rw [now] at mem
      exact absurd mem List.not_mem_nil
    · rw [now] at mem
      obtain rfl := List.mem_singleton.mp mem
      exact move.up shown
    · rw [now] at mem
      exact move.up (inv.mentioned u i mem)
  | wants here question new => exact old (fun i hi => hi) rfl
  | @acts server c c' act events conn spontaneous hstep =>
    exact old (fun i hi => (core_acts s server c' events).slot ▸ hi) rfl
  | quiet same servers queued => exact old (fun i hi => same.slot ▸ hi) rfl

/-! ## Watchers and starts -/

/-- No server is watched while its start is under way. -/
def Apart (course : Nat → Phase) : Prop :=
  ∀ t u i, (course t).rears = some i → (course u).watches ≠ some i

/-- A start that is under way was so before, or its server has just come up. -/
theorem step_rears {setup : Setup} {φ φ' : Phase} {q : Question} {r : q.Reply} {i : Nat}
    (step : Phase.Step setup φ q r φ') (h : φ'.rears = some i) :
    φ.rears = some i ∨
      ((∃ handler, q = .launch handler) ∧ brings q r = some i ∧ φ'.watches = none) := by
  cases step with
  | launched server => exact Or.inr ⟨⟨_, rfl⟩, h, rfl⟩
  | forget | watch => exact absurd h (by simp [Phase.rears])
  | _ => exact Or.inl h

/-- A program does not begin to watch in its middle. -/
theorem step_watches {setup : Setup} {φ φ' : Phase} {q : Question} {r : q.Reply} {i : Nat}
    (step : Phase.Step setup φ q r φ') (h : φ'.watches = some i) : φ.watches = some i := by
  cases step with
  | unclaimed | vacate => exact absurd h (by simp [Phase.watches])
  | _ => exact h

/-- Every move keeps the server being reared apart from those that are watched. -/
theorem apart_keep {s s' : Session} {course course' : Nat → Phase} {e : Option Happening}
    {acts : Nat → Option Connection.Action} (inv : Apart course) (locking : Locking s course)
    (knowing : Knowing s course) (move : Move s course e acts s' course') : Apart course' := by
  cases move with
  | @asks task t q next r acts s₁ φ here question step replies other =>
    have watched : ∀ u i, (Function.update course task φ u).watches = some i →
        (course u).watches = some i := by
      intro u i h
      by_cases same : u = task
      · subst same
        rw [Function.update_self] at h
        exact step_watches step h
      · rwa [Function.update_of_ne same] at h
    intro v u i rears watches
    by_cases same : v = task
    · subst same
      rw [Function.update_self] at rears
      rcases step_rears step rears with before | ⟨⟨handler, rfl⟩, new, calm⟩
      · exact inv v u i before (watched u i watches)
      · -- a server that has just come up is watched by nobody
        have there : Up s i :=
          knowing.mentioned u i (mem_mentions_of_watches (watched u i watches))
        exact missing_of_brings replies new there
    · rw [Function.update_of_ne same] at rears
      exact inv v u i rears (watched u i watches)
  | @watches task t server next here question stands =>
    intro v u i rears watches
    have before : (course v).rears = some i ∧ v ≠ task := by
      rcases watches_cases course s.tasks.length server task v with
        ⟨-, now⟩ | ⟨-, -, now⟩ | ⟨apart, -, now⟩
      · exact absurd rears (by simp [now, Phase.rears])
      · exact absurd rears (by simp [now, Phase.rears])
      · exact ⟨now ▸ rears, apart⟩
    have held : (course task).holds = true := by rw [stands]; rfl
    -- only the one that starts to watch was in a transition
    exact before.2 (locking.unique (holds_of_rears before.1) held)
  | wants here question new => exact inv
  | acts conn spontaneous hstep => exact inv
  | quiet same servers queued => exact inv

/-! ## Claims -/

/-- The claimant is at the two steps that a claim is for, and its server is in the
slot. -/
structure Claiming (s : Session) (course : Nat → Phase) : Prop where
  claimed : ∀ task, (course task).claim.isSome = true ↔ s.claimant = some task
  inSlot : ∀ task i b, (course task).claim = some (i, b) → s.slot = some i

/-- A claim changes hands only by claiming and by vacating. -/
theorem step_claim {setup : Setup} {φ φ' : Phase} {q : Question} {r : q.Reply}
    (step : Phase.Step setup φ q r φ') (claim : ∀ i, q ≠ .claim i) (vacate : q ≠ .vacate) :
    φ'.claim.map Prod.fst = φ.claim.map Prod.fst := by
  cases step with
  | claim => exact absurd rfl (claim _)
  | unclaimed => exact absurd rfl (claim _)
  | vacate => exact absurd rfl vacate
  | _ => rfl

/-- While the claimant stays the same, and the slot too unless it is free. -/
theorem Claiming.goOn {s s' : Session} {course : Nat → Phase} {task : Nat} {φ : Phase}
    (inv : Claiming s course) (claimant : s'.claimant = s.claimant)
    (claim : φ.claim.map Prod.fst = (course task).claim.map Prod.fst)
    (slot : s'.slot = s.slot ∨ s.claimant = none) :
    Claiming s' (Function.update course task φ) := by
  have same : ∀ u, (Function.update course task φ u).claim.map Prod.fst =
      (course u).claim.map Prod.fst :=
    view_update (fun _ ψ => ψ.claim.map Prod.fst) claim
  refine ⟨?_, ?_⟩
  · intro u
    have isSome := congrArg Option.isSome (same u)
    rw [Option.isSome_map, Option.isSome_map] at isSome
    rw [isSome, claimant]
    exact inv.claimed u
  · intro u i b h
    have before : (course u).claim.map Prod.fst = some i := by
      rw [← same u, h]
      rfl
    obtain ⟨⟨j, b'⟩, old, rfl⟩ := Option.map_eq_some_iff.mp before
    rcases slot with stays | free
    · rw [stays]
      exact inv.inSlot u j b' old
    · have claims := (inv.claimed u).mp (by rw [old]; rfl)
      rw [free] at claims
      exact absurd claims (by simp)

/-- What a question does that claims nothing and gives no claim up. -/
theorem claimant_of_replies {s s₁ : Session} {task : Nat} {q : Question} {r : q.Reply}
    {acts : Nat → Option Connection.Action} (h : Replies s task q r acts s₁)
    (other : ∀ server, q ≠ .watch server) (claim : ∀ i, q ≠ .claim i) (vacate : q ≠ .vacate) :
    s₁.claimant = s.claimant ∧ (s₁.slot = s.slot ∨ s.claimant = none) := by
  cases q with
  | claim i => exact absurd rfl (claim i)
  | vacate => exact absurd rfl vacate
  | unlock =>
    obtain rfl := replies_unlock h
    exact ⟨rfl, Or.inl rfl⟩
  | setState state =>
    obtain rfl := replies_setState h
    exact ⟨rfl, Or.inl rfl⟩
  | setCurrent server =>
    obtain ⟨free, rfl⟩ := replies_setCurrent h
    exact ⟨rfl, Or.inr free⟩
  | takeCurrent =>
    obtain ⟨free, -, rfl⟩ := replies_takeCurrent h
    exact ⟨rfl, Or.inr free⟩
  | _ =>
    have same := (replies_frame h other).2 rfl
    exact ⟨same.claimant, Or.inl same.slot⟩

/-- While the slot is free for all, nobody is at a step that a claim is for. -/
theorem Claiming.nobody {s : Session} {course : Nat → Phase} (inv : Claiming s course)
    (free : s.claimant = none) (task : Nat) : (course task).claim = none := by
  cases h : (course task).claim with
  | none => rfl
  | some w =>
    have claims := (inv.claimed task).mp (by rw [h]; rfl)
    rw [free] at claims
    exact absurd claims (by simp)

/-- Only the claimant is at such a step. -/
theorem Claiming.onlyClaimant {s : Session} {course : Nat → Phase} {task u : Nat}
    (inv : Claiming s course) (mine : s.claimant = some task) (apart : u ≠ task) :
    (course u).claim = none := by
  cases h : (course u).claim with
  | none => rfl
  | some w =>
    have claims := (inv.claimed u).mp (by rw [h]; rfl)
    rw [mine] at claims
    exact absurd (Option.some.inj claims).symm apart

/-- A watcher claims the slot. -/
theorem Claiming.hold {s : Session} {course : Nat → Phase} {task i : Nat}
    (inv : Claiming s course) (free : s.claimant = none) (mine : s.slot = some i) :
    Claiming { s with claimant := some task } (Function.update course task (.holding i)) := by
  refine ⟨?_, ?_⟩
  · intro u
    show _ ↔ some task = some u
    by_cases same : u = task
    · subst same
      rw [Function.update_self]
      exact ⟨fun _ => rfl, fun _ => rfl⟩
    · rw [Function.update_of_ne same, inv.nobody free u]
      exact ⟨fun h => absurd h (by simp), fun h => absurd (Option.some.inj h).symm same⟩
  · intro u j b h
    by_cases same : u = task
    · rw [same, Function.update_self] at h
      obtain ⟨rfl, -⟩ := Prod.mk.inj (Option.some.inj h)
      exact mine
    · rw [Function.update_of_ne same, inv.nobody free u] at h
      exact absurd h (by simp)

/-- It gives the claim up. -/
theorem Claiming.drop {s : Session} {course : Nat → Phase} {task i : Nat}
    (inv : Claiming s course) (mine : s.claimant = some task) :
    Claiming { s with slot := none, claimant := none }
      (Function.update course task (.reporting i)) := by
  have nobody : ∀ u, (Function.update course task (.reporting i) u).claim = none := by
    intro u
    by_cases same : u = task
    · rw [same, Function.update_self]
      rfl
    · rw [Function.update_of_ne same]
      exact inv.onlyClaimant mine same
  refine ⟨?_, ?_⟩
  · intro u
    rw [nobody u]
    show _ ↔ none = some u
    simp
  · intro u j b h
    rw [nobody u] at h
    exact absurd h (by simp)

/-- A watcher that gets its claim holds it, and one that does not is over. -/
theorem step_claimed {setup : Setup} {φ φ' : Phase} {i : Nat} {r : Bool}
    (step : Phase.Step setup φ (.claim i) r φ') :
    φ = .noticed i ∧ φ' = if r then .holding i else .free [] := by
  cases step with
  | idle h => exact absurd h (by simp [isIdle])
  | claim => exact ⟨rfl, rfl⟩
  | unclaimed => exact ⟨rfl, rfl⟩

/-- A claim is given up by emptying the slot. -/
theorem step_vacate {setup : Setup} {φ φ' : Phase} {r : Unit}
    (step : Phase.Step setup φ .vacate r φ') : ∃ i, φ = .stopping i ∧ φ' = .reporting i := by
  cases step with
  | idle h => exact absurd h (by simp [isIdle])
  | vacate => exact ⟨_, rfl, rfl⟩

/-- Every move keeps the claims in order: one at most, and of the server in the slot. -/
theorem claiming_keep {s s' : Session} {course course' : Nat → Phase} {e : Option Happening}
    {acts : Nat → Option Connection.Action} (inv : Claiming s course) (on : OnCourse s course)
    (move : Move s course e acts s' course') : Claiming s' course' := by
  cases move with
  | @asks task t q next r acts s₁ φ here question step replies other =>
    suffices Claiming s₁ (Function.update course task φ) from ⟨this.claimed, this.inSlot⟩
    -- two questions change who has claimed the slot, and nothing else does
    by_cases claim : ∃ i, q = .claim i
    · obtain ⟨i, rfl⟩ := claim
      obtain ⟨stands, goes⟩ := step_claimed step
      obtain ⟨free, ⟨rfl, mine, rfl⟩ | ⟨rfl, -, rfl⟩⟩ := replies_claim replies
      · rw [goes]
        exact inv.hold free mine
      · refine inv.goOn rfl ?_ (Or.inl rfl)
        rw [goes, stands]
        rfl
    · have notClaim : ∀ i, q ≠ .claim i := fun i same => claim ⟨i, same⟩
      by_cases vacate : q = .vacate
      · subst vacate
        obtain ⟨i, stands, rfl⟩ := step_vacate step
        obtain rfl := replies_vacate replies
        exact inv.drop ((inv.claimed task).mp (by rw [stands]; rfl))
      · obtain ⟨claimant, slot⟩ := claimant_of_replies replies other notClaim vacate
        exact inv.goOn claimant (step_claim step notClaim vacate) slot
  | @watches task t server next here question stands =>
    have inside := length_of_getElem? here
    have spawned : Claiming (s.spawn (Lifecycle.watchExit server))
        (Function.update course s.tasks.length (.watching server)) := by
      refine inv.goOn rfl ?_ (Or.inl rfl)
      rw [on.beyond _ (Nat.le_refl _)]
      rfl
    refine spawned.goOn rfl ?_ (Or.inl rfl)
    rw [Function.update_of_ne (Nat.ne_of_lt inside), stands]
    rfl
  | wants here question new => exact ⟨inv.claimed, inv.inSlot⟩
  | @acts server c c' act events conn spontaneous hstep =>
    have core := core_acts s server c' events
    refine ⟨?_, ?_⟩
    · rw [core.claimant]
      exact inv.claimed
    · rw [core.slot]
      exact inv.inSlot
  | quiet same servers queued =>
    refine ⟨?_, ?_⟩
    · rw [same.claimant]
      exact inv.claimed
    · rw [same.slot]
      exact inv.inSlot

end EmberClient.Session
