import EmberClient.Proofs.Session.Standing

/-!
# What becomes of a server

Of what happens in a session, `story` picks out what decides the fate of one server:
that it is put into the slot, that a task removes it, that this task asks it to shut
down, that its process is ended. `Told` ties the story of each server to where the
tasks are that have it in hand, so a story can go on in one way only.

`lifecycle_invariant` is the outcome: outside of transitions state and slot agree, a
server is only ever put into an empty slot, and one that was in the slot is either
still there or in the hands of the one task that removed it, which shuts it down or
ends it.
-/

namespace EmberClient.Session

/-! ## Programs that come to a question -/

/-- Whatever it is replied, the program comes to ask this. -/
def ComesTo (goal : Question) {α : Type} : Prog α → Prop
  | .done _ => False
  | .ask q next => q = goal ∨ ∀ r, ComesTo goal (next r)

/-- The task comes to ask this. -/
def WillAsk (s : Session) (task : Nat) (goal : Question) : Prop :=
  ∃ t, s.tasks[task]? = some t ∧ ComesTo goal t.program

/-- A phase comes to a goal if each of its steps is the goal or leads to a phase that does. -/
theorem comesTo_of_steps {setup : Setup} {α : Type} {φ : Phase} {goal : Question}
    (busy : ∀ known, φ ≠ .free known)
    (steps : ∀ q r φ', Phase.Step setup φ q r φ' →
      q = goal ∨ ∀ p : Prog α, Follows setup AtEase φ' p → ComesTo goal p)
    (p : Prog α) (follows : Follows setup AtEase φ p) : ComesTo goal p := by
  cases p with
  | done a =>
    obtain ⟨known, free⟩ := follows
    exact absurd free (busy known)
  | ask q next =>
    by_cases here : q = goal
    · exact Or.inl here
    · refine Or.inr fun r => ?_
      obtain ⟨φ', step, rest⟩ := follows r
      exact (steps q r φ' step).resolve_left here (next r) rest

section Coming

variable {setup : Setup} {α : Type}

theorem left_comesTo (again : Bool) (i : Nat) (p : Prog α)
    (follows : Follows setup AtEase (.left again i) p) : ComesTo (.terminate i) p := by
  refine comesTo_of_steps (by simp) ?_ p follows
  intro q r φ' step
  cases step with
  | finish => exact Or.inl rfl

theorem leaving_comesTo (again : Bool) (i : Nat) (p : Prog α)
    (follows : Follows setup AtEase (.leaving again i) p) : ComesTo (.terminate i) p := by
  refine comesTo_of_steps (by simp) ?_ p follows
  intro q r φ' step
  cases step with
  | leave sent => exact Or.inr (left_comesTo again i)

theorem bidding_comesTo (again : Bool) (i place : Nat) (p : Prog α)
    (follows : Follows setup AtEase (.bidding again i place) p) : ComesTo (.terminate i) p := by
  refine comesTo_of_steps (by simp) ?_ p follows
  intro q r φ' step
  cases step with
  | answered answer => exact Or.inr (leaving_comesTo again i)

/-- The server being taken down is asked to shut down and then terminated. -/
theorem shutting_comesTo (again : Bool) (i : Nat) (p : Prog α)
    (follows : Follows setup AtEase (.shutting again i) p) :
    ComesTo (.call i "shutdown" .null) p ∧ ComesTo (.terminate i) p := by
  constructor
  · refine comesTo_of_steps (by simp) ?_ p follows
    intro q r φ' step
    cases step with
    | bid place => exact Or.inl rfl
  · refine comesTo_of_steps (by simp) ?_ p follows
    intro q r φ' step
    cases step with
    | bid place => exact Or.inr (bidding_comesTo again i place)

/-- The watcher whose server has gone terminates it. -/
theorem burying_comesTo (i : Nat) (p : Prog α) (follows : Follows setup AtEase (.burying i) p) :
    ComesTo (.terminate i) p := by
  refine comesTo_of_steps (by simp) ?_ p follows
  intro q r φ' step
  cases step with
  | bury => exact Or.inl rfl

theorem alarmed_comesTo (i : Nat) (p : Prog α) (follows : Follows setup AtEase (.alarmed i) p) :
    ComesTo (.terminate i) p := by
  refine comesTo_of_steps (by simp) ?_ p follows
  intro q r φ' step
  cases step with
  | alarm => exact Or.inr (burying_comesTo i)

/-- A watcher that has the exit to report comes to terminate its server. -/
theorem reporting_comesTo (i : Nat) (p : Prog α)
    (follows : Follows setup AtEase (.reporting i) p) : ComesTo (.terminate i) p := by
  refine comesTo_of_steps (by simp) ?_ p follows
  intro q r φ' step
  cases step with
  | report => exact Or.inr (alarmed_comesTo i)

end Coming

/-! ## Stories -/

/-- What decides the fate of a server. -/
inductive Deed where
  /-- It is put into the slot; this was in it before. -/
  | filled (previous : Option Nat)
  /-- A task removes it from the slot. -/
  | removed (task : Nat) (why : Removal)
  /-- A task asks it to shut down. -/
  | asked (task : Nat)
  /-- A task has ended its process. -/
  | ended (task : Nat)
  deriving DecidableEq

/-- What a happening means for a server. -/
def deed (i : Nat) : Happening → Option Deed
  | .filled server previous => if server = i then some (.filled previous) else none
  | .removed task server why => if server = i then some (.removed task why) else none
  | .called task server _ method _ _ =>
    if server = i ∧ method = "shutdown" then some (.asked task) else none
  | .ended task server => if server = i then some (.ended task) else none

/-- The story of a server. -/
def story (i : Nat) (h : List Happening) : List Deed := h.filterMap (deed i)

/-- What happens next adds at most one deed to a server's story. -/
theorem story_append (i : Nat) (h : List Happening) (e : Option Happening) :
    story i (h ++ e.toList) = story i h ++ (e.bind (deed i)).toList :=
  filterMap_append_toList (deed i) h e

/-- A happening that is no deed of a server leaves its story as it is. -/
theorem story_same {i : Nat} {h : List Happening} {e : Option Happening}
    (silent : e.bind (deed i) = none) : story i (h ++ e.toList) = story i h := by
  rw [story_append, silent, Option.toList_none, List.append_nil]

theorem story_deed {i : Nat} {h : List Happening} {e : Option Happening} {d : Deed}
    (done : e.bind (deed i) = some d) : story i (h ++ e.toList) = story i h ++ [d] := by
  rw [story_append, done, Option.toList_some]

/-- How far the story of a server is that a task has in hand. -/
def Phase.story (task : Nat) : Phase → Option (Nat × List Deed)
  | .up i | .greeting i _ | .greeted i _ | .rejected i | .introduced i _ | .advertised i =>
    some (i, [])
  | .shutting _ i => some (i, [.filled none, .removed task .taken])
  | .bidding _ i _ | .leaving _ i | .left _ i =>
    some (i, [.filled none, .removed task .taken, .asked task])
  | .gone _ i => some (i, [.filled none, .removed task .taken, .asked task, .ended task])
  | .reporting i | .alarmed i | .burying i => some (i, [.filled none, .removed task .vacated])
  | .buried i => some (i, [.filled none, .removed task .vacated, .ended task])
  | _ => none

/-- A story that is at its end. -/
def Complete (l : List Deed) : Prop :=
  ∃ task, l = [.filled none, .removed task .taken, .asked task, .ended task] ∨
    l = [.filled none, .removed task .vacated, .ended task]

/-- The story of each server is as far as whoever has it in hand. -/
structure Told (h : List Happening) (s : Session) (course : Nat → Phase) : Prop where
  inHand : ∀ task i l, (course task).story task = some (i, l) → story i h = l
  inSlot : ∀ i, s.slot = some i → story i h = [.filled none]
  removed : ∀ i previous, .filled previous ∈ story i h →
    s.slot = some i ∨ (∃ task l, (course task).story task = some (i, l)) ∨ Complete (story i h)
  fresh : ∀ i, ¬ Up s i → story i h = []

/-- Who has a server in hand whose story has begun is named in it. -/
theorem story_cases {φ : Phase} {task i : Nat} {l : List Deed}
    (h : φ.story task = some (i, l)) :
    (φ.rears = some i ∧ l = []) ∨ ∃ why rest, l = .filled none :: .removed task why :: rest := by
  cases φ with
  | up | greeting | greeted | rejected | introduced | advertised =>
    obtain ⟨rfl, rfl⟩ := Prod.mk.inj (Option.some.inj h)
    exact Or.inl ⟨rfl, rfl⟩
  | shutting | bidding | leaving | left | gone | reporting | alarmed | burying | buried =>
    obtain ⟨rfl, rfl⟩ := Prod.mk.inj (Option.some.inj h)
    exact Or.inr ⟨_, _, rfl⟩
  | _ => exact absurd h (by simp [Phase.story])

/-- The server whose story a phase fixes is one of those that the phase mentions. -/
theorem mem_mentions_of_story {φ : Phase} {task i : Nat} {l : List Deed}
    (h : φ.story task = some (i, l)) : i ∈ φ.mentions := by
  cases φ <;> simp_all [Phase.story, Phase.mentions]

/-- Nobody else has a server in hand that a task has in hand. -/
theorem Told.alone {h : List Happening} {s : Session} {course : Nat → Phase}
    (inv : Told h s course) (locking : Locking s course) {t u i : Nat} {l l' : List Deed}
    (ht : (course t).story t = some (i, l)) (hu : (course u).story u = some (i, l')) : u = t := by
  have same : l = l' := (inv.inHand t i l ht).symm.trans (inv.inHand u i l' hu)
  subst same
  rcases story_cases ht with ⟨rears, rfl⟩ | ⟨why, rest, rfl⟩
  · -- who brings a server up holds the lock; who takes one down is named in its story
    rcases story_cases hu with ⟨rears', -⟩ | ⟨_, _, h⟩
    · exact locking.unique (holds_of_rears rears') (holds_of_rears rears)
    · exact absurd h (by simp)
  · rcases story_cases hu with ⟨-, h⟩ | ⟨_, _, h⟩
    · exact absurd h (by simp)
    · simp only [List.cons.injEq, Deed.removed.injEq, true_and] at h
      exact h.1.1.symm

/-- Nobody has the server in hand that is in the slot. -/
theorem Told.slot_alone {h : List Happening} {s : Session} {course : Nat → Phase}
    (inv : Told h s course) {t i : Nat} {l : List Deed} (slot : s.slot = some i)
    (ht : (course t).story t = some (i, l)) : False := by
  have told := inv.inSlot i slot
  rw [inv.inHand t i l ht] at told
  rcases story_cases ht with ⟨-, rfl⟩ | ⟨why, rest, rfl⟩
  · exact absurd told (by simp)
  · exact absurd told (by simp)

/-! ## How stories go on -/

/-- No story goes on, and every server stays in the hands that it is in. -/
theorem Told.same {h h' : List Happening} {s s' : Session} {course course' : Nat → Phase}
    (inv : Told h s course) (told : ∀ i, story i h' = story i h) (slot : s'.slot = s.slot)
    (stories : ∀ u, (course' u).story u = (course u).story u) (up : ∀ i, Up s i → Up s' i) :
    Told h' s' course' := by
  refine ⟨?_, ?_, ?_, ?_⟩
  · intro u i l hu
    rw [told]
    exact inv.inHand u i l (stories u ▸ hu)
  · intro i hi
    rw [told]
    exact inv.inSlot i (slot ▸ hi)
  · intro i previous mem
    rw [told] at mem ⊢
    rcases inv.removed i previous mem with there | ⟨u, l, hu⟩ | complete
    · exact Or.inl (slot.trans there)
    · exact Or.inr (Or.inl ⟨u, l, (stories u).trans hu⟩)
    · exact Or.inr (Or.inr complete)
  · intro i missing
    rw [told]
    exact inv.fresh i fun there => missing (up i there)

/-- A task goes on, but no story does. -/
theorem Told.still {h h' : List Happening} {s s' : Session} {course : Nat → Phase} {task : Nat}
    {φ : Phase} (inv : Told h s course) (told : ∀ i, story i h' = story i h)
    (slot : s'.slot = s.slot) (hands : φ.story task = (course task).story task)
    (up : ∀ i, Up s i → Up s' i) : Told h' s' (Function.update course task φ) :=
  inv.same told slot (view_update (fun u ψ => ψ.story u) hands) up

/-- One server passes from the hands of a task to the slot, or the other way, or the task
goes on with it, or lets go of it. -/
structure Passes (h' : List Happening) (s' : Session) (task i : Nat) (φ : Phase) : Prop where
  hand : ∀ j l, φ.story task = some (j, l) → j = i ∧ story i h' = l
  inSlot : s'.slot = some i → story i h' = [.filled none]
  kept : ∀ previous, .filled previous ∈ story i h' →
    s'.slot = some i ∨ (∃ l, φ.story task = some (i, l)) ∨ Complete (story i h')
  there : Up s' i

/-- The story of one server goes on, and it is in nobody's hands but those of the task. -/
theorem Told.pass {h h' : List Happening} {s s' : Session} {course : Nat → Phase} {task i : Nat}
    {φ : Phase} (inv : Told h s course)
    (alone : ∀ u l, (course u).story u = some (i, l) → u = task)
    (mine : ∀ j l, (course task).story task = some (j, l) → j = i)
    (others : ∀ j, j ≠ i → story j h' = story j h)
    (slot : ∀ j, j ≠ i → (s'.slot = some j ↔ s.slot = some j)) (up : ∀ j, Up s j → Up s' j)
    (passes : Passes h' s' task i φ) : Told h' s' (Function.update course task φ) := by
  -- nobody else has the server in hand, so the other stories are of other servers
  have elsewhere : ∀ u, u ≠ task → ∀ j l, (course u).story u = some (j, l) → j ≠ i := by
    rintro u apart j l hu rfl
    exact apart (alone u l hu)
  refine ⟨?_, ?_, ?_, ?_⟩
  · intro u j l hu
    by_cases same : u = task
    · subst same
      rw [Function.update_self] at hu
      obtain ⟨rfl, told⟩ := passes.hand j l hu
      exact told
    · rw [Function.update_of_ne same] at hu
      rw [others j (elsewhere u same j l hu)]
      exact inv.inHand u j l hu
  · intro j hj
    by_cases here : j = i
    · subst here
      exact passes.inSlot hj
    · rw [others j here]
      exact inv.inSlot j ((slot j here).mp hj)
  · -- a server that was put into the slot is in it, in hand, or at the end of its story
    intro j previous mem
    by_cases here : j = i
    · subst here
      rcases passes.kept previous mem with there | ⟨l, hl⟩ | complete
      · exact Or.inl there
      · refine Or.inr (Or.inl ⟨task, l, ?_⟩)
        rwa [Function.update_self]
      · exact Or.inr (Or.inr complete)
    · rw [others j here] at mem ⊢
      rcases inv.removed j previous mem with there | ⟨u, l, hu⟩ | complete
      · exact Or.inl ((slot j here).mpr there)
      · refine Or.inr (Or.inl ⟨u, l, ?_⟩)
        have apart : u ≠ task := by
          rintro rfl
          exact here (mine j l hu)
        rwa [Function.update_of_ne apart]
      · exact Or.inr (Or.inr complete)
  · intro j missing
    by_cases here : j = i
    · exact absurd (here ▸ passes.there) missing
    · rw [others j here]
      exact inv.fresh j fun there => missing (up j there)

/-- A task goes on with the server that it has in hand. -/
theorem Told.hand {h h' : List Happening} {s s' : Session} {course : Nat → Phase} {task i : Nat}
    {l l' : List Deed} {φ : Phase} (inv : Told h s course) (locking : Locking s course)
    (knowing : Knowing s course) (mine : (course task).story task = some (i, l))
    (slot : s'.slot = s.slot) (up : ∀ j, Up s j → Up s' j) (told : story i h' = l')
    (others : ∀ j, j ≠ i → story j h' = story j h)
    (goes : φ.story task = some (i, l') ∨
      (φ.story task = none ∧ ((∀ previous, .filled previous ∉ l') ∨ Complete l'))) :
    Told h' s' (Function.update course task φ) := by
  -- a server is not in the slot and in hand at once
  have outside : s'.slot ≠ some i := by
    intro there
    exact inv.slot_alone (slot ▸ there) mine
  have only : ∀ j l, (course task).story task = some (j, l) → j = i := by
    intro j l h
    rw [mine] at h
    exact (Prod.mk.inj (Option.some.inj h)).1.symm
  refine inv.pass (fun u l hu => inv.alone locking mine hu) only others ?_ up ⟨?_, ?_, ?_, ?_⟩
  · intro j _
    rw [slot]
  · intro j l hl
    rcases goes with now | ⟨now, -⟩
    · rw [now] at hl
      obtain ⟨rfl, rfl⟩ := Prod.mk.inj (Option.some.inj hl)
      exact ⟨rfl, told⟩
    · rw [now] at hl
      exact absurd hl (by simp)
  · exact fun there => absurd there outside
  · intro previous mem
    rw [told] at mem ⊢
    rcases goes with now | ⟨-, unfilled | complete⟩
    · exact Or.inr (Or.inl ⟨l', now⟩)
    · exact absurd mem (unfilled previous)
    · exact Or.inr (Or.inr complete)
  · exact up i (knowing.mentioned task i (mem_mentions_of_story mine))

section Turning

variable {setup : Setup} {φ φ' : Phase}

/-- A server is launched at one place in the start. -/
theorem step_launch {handler : Nat} {r : Except Fault Nat}
    (step : Phase.Step setup φ (.launch handler) r φ') :
    φ = .launching handler ∧ φ' = (match r with
      | .ok i => .up i
      | .error _ => .failing) := by
  cases step with
  | idle h => exact absurd h (by simp [isIdle])
  | launched server => exact ⟨rfl, rfl⟩
  | unlaunched fault => exact ⟨rfl, rfl⟩

/-- A server is terminated at one of three places: after a bad answer to the first request, in the
course of being taken down, or by its watcher. -/
theorem step_terminate {i : Nat} {r : Unit} (step : Phase.Step setup φ (.terminate i) r φ') :
    (φ = .rejected i ∧ φ' = .ended i) ∨ (∃ again, φ = .left again i ∧ φ' = .gone again i) ∨
      (φ = .burying i ∧ φ' = .buried i) := by
  cases step with
  | idle h => exact absurd h (by simp [isIdle])
  | kill => exact Or.inl ⟨rfl, rfl⟩
  | finish => exact Or.inr (Or.inl ⟨_, rfl, rfl⟩)
  | bury => exact Or.inr (Or.inr ⟨rfl, rfl⟩)

/-- A server is given up at three places: when it is of no use, when it has been taken down, and by
its watcher. -/
theorem step_discard {i : Nat} {r : Unit} (step : Phase.Step setup φ (.discard i) r φ') :
    (φ = .ended i ∧ φ' = .failing) ∨ (∃ again, φ = .gone again i ∧ φ' = .vacant again) ∨
      (φ = .buried i ∧ φ' = .free []) := by
  cases step with
  | idle h => exact absurd h (by simp [isIdle])
  | forget => exact Or.inl ⟨rfl, rfl⟩
  | letGo => exact Or.inr (Or.inl ⟨_, rfl, rfl⟩)
  | release => exact Or.inr (Or.inr ⟨rfl, rfl⟩)

/-- Only the task that takes a server down asks it to shut down. -/
theorem step_shutdown {i place : Nat} {params : Json}
    (step : Phase.Step setup φ (.call i "shutdown" params) place φ') :
    ∃ again, φ = .shutting again i ∧ φ' = .bidding again i place := by
  generalize method : "shutdown" = m at step
  cases step with
  | idle h => exact absurd h (by simp [isIdle])
  | call mem | greet place | configure place => exact absurd method (by decide)
  | bid place => exact ⟨_, rfl, rfl⟩

/-- The notice `initialized` is sent after the greeting and nowhere else; when it cannot be sent
the server is of no use. -/
theorem step_initialized {i : Nat} {params : Json} {r : Except Fault Unit}
    (step : Phase.Step setup φ (.notify i "initialized" params) r φ') :
    ∃ commands, φ = .greeted i commands ∧ (φ' = .introduced i commands ∨ φ' = .ended i) := by
  generalize method : "initialized" = m at step
  cases step with
  | idle h => exact absurd h (by simp [isIdle])
  | leave sent => exact absurd method (by decide)
  | introduce => exact ⟨_, rfl, Or.inl rfl⟩
  | unheard fault => exact ⟨_, rfl, Or.inr rfl⟩

/-- Questions after which stories have to be looked at. -/
def turns : Question → Bool
  | .setCurrent _ | .takeCurrent | .vacate | .launch _ | .terminate _ | .discard _ => true
  | .call _ method _ => method = "shutdown"
  | .notify _ method _ => method = "initialized"
  | _ => false

/-- No other step goes on with a story. -/
theorem step_story {q : Question} {r : q.Reply} (task : Nat) (step : Phase.Step setup φ q r φ')
    (calm : turns q = false) : φ'.story task = φ.story task := by
  cases step with
  | launched | unlaunched | kill | forget | introduce | unheard | publish | take | takeNone | retake
  | retakeNone | bid | finish | letGo | vacate | bury | release =>
    exact absurd calm (by simp [turns])
  | _ => rfl

end Turning

/-- The history keeps nothing of a question that turns nothing. -/
theorem noted_silent {s : Session} {task : Nat} {q : Question} (calm : turns q = false) (i : Nat) :
    (s.noted task q).bind (deed i) = none := by
  cases q with
  | call server method params =>
    have other : method ≠ "shutdown" := of_decide_eq_false calm
    simp only [noted, Option.bind_some, deed, other, and_false, if_false]
  | setCurrent | takeCurrent | vacate | terminate => exact absurd calm (by simp [turns])
  | _ => rfl

/-- Only a question that turns something, or a watch, touches the slot. -/
theorem slot_of_calm {s s₁ : Session} {task : Nat} {q : Question} {r : q.Reply}
    {acts : Nat → Option Connection.Action} (replies : Replies s task q r acts s₁)
    (other : ∀ server, q ≠ .watch server) (calm : turns q = false) : s₁.slot = s.slot := by
  cases q with
  | setCurrent | takeCurrent | vacate => exact absurd calm (by simp [turns])
  | unlock => rw [replies_unlock replies]
  | setState state => rw [replies_setState replies]
  | claim i =>
    rcases (replies_claim replies).2 with ⟨-, -, eq⟩ | ⟨-, -, eq⟩
    · rw [eq]
    · rw [eq]
  | _ => exact ((replies_frame replies other).2 rfl).slot

/-! ### One lemma for each question that turns a story -/

section Telling

variable {h : List Happening} {s s₁ : Session} {course : Nat → Phase} {task : Nat}
  {acts : Nat → Option Connection.Action} {φ : Phase}

/-- Putting a server into the slot writes its filling to its story. -/
theorem told_setCurrent {i : Nat} {r : Unit} (inv : Told h s course) (standing : Standing s course)
    (step : Phase.Step s.setup (course task) (.setCurrent i) r φ)
    (replies : Replies s task (.setCurrent i) r acts s₁) (up : ∀ j, Up s j → Up s₁ j) :
    Told (h ++ (s.noted task (.setCurrent i)).toList) s₁ (Function.update course task φ) := by
  obtain ⟨stands, rfl⟩ := step_setCurrent step
  obtain ⟨free, eq⟩ := replies_setCurrent replies
  have mine : (course task).story task = some (i, []) := by rw [stands]; rfl
  have slot : s₁.slot = some i := by rw [eq]
  -- who publishes a server has found the slot empty, and nobody has filled it since
  have empty : s.slot = none := by
    have fits := standing.fits
    rw [stretchOf_holder standing.locking (by rw [stands]; rfl), claimOf_free free, stands] at fits
    exact (fits_publish (i := i) fits).1
  have told : story i (h ++ (s.noted task (.setCurrent i)).toList) = [.filled none] := by
    rw [story_deed (d := .filled s.slot) (by simp [noted, deed]), inv.inHand task i [] mine, empty]
    rfl
  refine inv.pass (fun u l hu => inv.alone standing.locking mine hu) ?_ ?_ ?_ up ⟨?_, ?_, ?_, ?_⟩
  · intro j l hl
    rw [mine] at hl
    exact (Prod.mk.inj (Option.some.inj hl)).1.symm
  · intro j apart
    exact story_same (by simp [noted, deed, apart.symm])
  · intro j apart
    rw [slot, empty]
    simp [apart.symm]
  · exact fun j l hl => absurd hl (by simp [Phase.story])
  · exact fun _ => told
  · exact fun _ _ => Or.inl slot
  · exact up i (standing.knowing.mentioned task i (mem_mentions_of_story mine))

/-- What is in the slot goes into the hands of the task that empties it. -/
theorem told_remove {i : Nat} {why : Removal} {e : Option Happening} (inv : Told h s course)
    (standing : Standing s course) (filled : s.slot = some i)
    (happens : e = some (.removed task i why)) (empty : s₁.slot = none)
    (before : (course task).story task = none)
    (after : φ.story task = some (i, [.filled none, .removed task why]))
    (up : ∀ j, Up s j → Up s₁ j) :
    Told (h ++ e.toList) s₁ (Function.update course task φ) := by
  -- the story of a server in the slot is that it was put there
  have told : story i (h ++ e.toList) = [.filled none, .removed task why] := by
    rw [story_deed (d := .removed task why) (by simp [happens, deed]), inv.inSlot i filled]
    rfl
  refine inv.pass (i := i) ?_ ?_ ?_ ?_ up ⟨?_, ?_, ?_, ?_⟩
  · exact fun u l hu => (inv.slot_alone filled hu).elim
  · intro j l hl
    rw [before] at hl
    exact absurd hl (by simp)
  · intro j apart
    exact story_same (by simp [happens, deed, apart.symm])
  · intro j apart
    rw [empty, filled]
    simp [apart.symm]
  · intro j l hl
    rw [after] at hl
    obtain ⟨rfl, rfl⟩ := Prod.mk.inj (Option.some.inj hl)
    exact ⟨rfl, told⟩
  · intro there
    rw [empty] at there
    exact absurd there (by simp)
  · exact fun _ _ => Or.inr (Or.inl ⟨_, after⟩)
  · exact up i (standing.knowing.current i filled)

/-- Emptying the slot is written to the story of the server that was in it. -/
theorem told_takeCurrent {slot : Option Nat} (inv : Told h s course) (standing : Standing s course)
    (step : Phase.Step s.setup (course task) .takeCurrent slot φ)
    (replies : Replies s task .takeCurrent slot acts s₁) (up : ∀ j, Up s j → Up s₁ j) :
    Told (h ++ (s.noted task .takeCurrent).toList) s₁ (Function.update course task φ) := by
  obtain ⟨-, rfl, eq⟩ := replies_takeCurrent replies
  obtain ⟨again, stands, goes⟩ := step_takeCurrent step
  have before : (course task).story task = none := by rw [stands]; cases again <;> rfl
  have empty : s₁.slot = none := by rw [eq]
  cases filled : s.slot with
  | none =>
    rw [filled] at goes
    refine inv.still ?_ (empty.trans filled.symm) (by rw [before, goes]; rfl) up
    exact fun i => story_same (by rw [noted, filled]; rfl)
  | some i =>
    rw [filled] at goes
    have happens : s.noted task .takeCurrent = some (.removed task i .taken) := by
      rw [noted, filled]
      rfl
    exact told_remove inv standing filled happens empty before (by rw [goes]; rfl) up

/-- A watcher that empties the slot writes that to the story of its own server. -/
theorem told_vacate {r : Unit} (inv : Told h s course) (standing : Standing s course)
    (step : Phase.Step s.setup (course task) .vacate r φ)
    (replies : Replies s task .vacate r acts s₁) (up : ∀ j, Up s j → Up s₁ j) :
    Told (h ++ (s.noted task .vacate).toList) s₁ (Function.update course task φ) := by
  obtain ⟨i, stands, goes⟩ := step_vacate step
  have eq := replies_vacate replies
  have filled : s.slot = some i :=
    standing.claiming.inSlot task i true (by rw [stands]; rfl)
  have happens : s.noted task .vacate = some (.removed task i .vacated) := by
    rw [noted, filled]
    rfl
  exact told_remove inv standing filled happens (by rw [eq]) (by rw [stands]; rfl)
    (by rw [goes]; rfl) up

/-- A launched server starts with an empty story. -/
theorem told_launch {handler : Nat} {r : Except Fault Nat} (inv : Told h s course)
    (standing : Standing s course) (step : Phase.Step s.setup (course task) (.launch handler) r φ)
    (replies : Replies s task (.launch handler) r acts s₁) (up : ∀ j, Up s j → Up s₁ j) :
    Told (h ++ (s.noted task (.launch handler)).toList) s₁ (Function.update course task φ) := by
  obtain ⟨stands, goes⟩ := step_launch step
  have before : (course task).story task = none := by rw [stands]; rfl
  have silent : ∀ j, story j (h ++ (s.noted task (.launch handler)).toList) = story j h :=
    fun j => story_same rfl
  cases replies with
  | own replied => exact absurd replied (by simp [reply])
  | unlaunched fault => exact inv.still silent rfl (by rw [before, goes]; rfl) up
  | launched =>
    have new := missing_of_new s
    have told : story s.servers.length (h ++ (s.noted task (.launch handler)).toList) = [] :=
      (silent _).trans (inv.fresh _ new)
    -- nobody has named the server before: it has no story
    refine inv.pass (i := s.servers.length) ?_ ?_ (fun j _ => silent j) (fun j _ => Iff.rfl) up
      ⟨?_, ?_, ?_, up_of_new s handler⟩
    · intro u l hu
      exact absurd (standing.knowing.mentioned u _ (mem_mentions_of_story hu)) new
    · intro j l hl
      rw [before] at hl
      exact absurd hl (by simp)
    · intro j l hl
      rw [goes] at hl
      obtain ⟨rfl, rfl⟩ := Prod.mk.inj (Option.some.inj hl)
      exact ⟨rfl, told⟩
    · exact fun there => absurd (standing.knowing.current _ there) new
    · intro previous mem
      rw [told] at mem
      exact absurd mem (by simp)

/-- Terminating a server is written to its own story and to no other. -/
theorem told_terminate {i : Nat} {r : Unit} (inv : Told h s course) (standing : Standing s course)
    (step : Phase.Step s.setup (course task) (.terminate i) r φ)
    (replies : Replies s task (.terminate i) r acts s₁) (up : ∀ j, Up s j → Up s₁ j) :
    Told (h ++ (s.noted task (.terminate i)).toList) s₁ (Function.update course task φ) := by
  have slot : s₁.slot = s.slot := ((replies_frame replies (by simp)).2 rfl).slot
  have others : ∀ j, j ≠ i → story j (h ++ (s.noted task (.terminate i)).toList) = story j h :=
    fun j apart => story_same (by simp [noted, deed, apart.symm])
  have told : story i (h ++ (s.noted task (.terminate i)).toList) = story i h ++ [.ended task] :=
    story_deed (by simp [noted, deed])
  have goOn : ∀ l, (course task).story task = some (i, l) →
      (φ.story task = some (i, l ++ [.ended task]) ∨
        (φ.story task = none ∧ ∀ previous, .filled previous ∉ l)) →
      Told (h ++ (s.noted task (.terminate i)).toList) s₁ (Function.update course task φ) := by
    intro l mine goes
    rw [inv.inHand task i l mine] at told
    refine inv.hand standing.locking standing.knowing mine slot up told others ?_
    rcases goes with now | ⟨gone, unfilled⟩
    · exact Or.inl now
    · refine Or.inr ⟨gone, Or.inl fun previous mem => ?_⟩
      simp only [List.mem_append, List.mem_singleton, reduceCtorEq, or_false] at mem
      exact unfilled previous mem
  -- a server that was never published, one that is shut down, one that went away
  rcases step_terminate step with ⟨stands, rfl⟩ | ⟨again, stands, rfl⟩ | ⟨stands, rfl⟩
  · exact goOn [] (by rw [stands]; rfl) (Or.inr ⟨rfl, by simp⟩)
  · exact goOn _ (by rw [stands]; rfl) (Or.inl rfl)
  · exact goOn _ (by rw [stands]; rfl) (Or.inl rfl)

/-- Giving a server up is the end of the stretch that took it down. -/
theorem told_discard {i : Nat} {r : Unit} (inv : Told h s course) (standing : Standing s course)
    (step : Phase.Step s.setup (course task) (.discard i) r φ)
    (replies : Replies s task (.discard i) r acts s₁) (up : ∀ j, Up s j → Up s₁ j) :
    Told (h ++ (s.noted task (.discard i)).toList) s₁ (Function.update course task φ) := by
  have slot : s₁.slot = s.slot := ((replies_frame replies (by simp)).2 rfl).slot
  have silent : ∀ j, story j (h ++ (s.noted task (.discard i)).toList) = story j h :=
    fun j => story_same rfl
  have letGo : ∀ l, (course task).story task = some (i, l) → φ.story task = none → Complete l →
      Told (h ++ (s.noted task (.discard i)).toList) s₁ (Function.update course task φ) := by
    intro l mine gone complete
    have told := (silent i).trans (inv.inHand task i l mine)
    exact inv.hand standing.locking standing.knowing mine slot up told (fun j _ => silent j)
      (Or.inr ⟨gone, Or.inr complete⟩)
  rcases step_discard step with ⟨stands, rfl⟩ | ⟨again, stands, rfl⟩ | ⟨stands, rfl⟩
  · exact inv.still silent slot (by rw [stands]; rfl) up
  · exact letGo _ (by rw [stands]; rfl) rfl ⟨task, Or.inl rfl⟩
  · exact letGo _ (by rw [stands]; rfl) rfl ⟨task, Or.inr rfl⟩

/-- The request to shut down is written to the story of the server it goes to. -/
theorem told_shutdown {i place : Nat} {params : Json} (inv : Told h s course)
    (standing : Standing s course)
    (step : Phase.Step s.setup (course task) (.call i "shutdown" params) place φ)
    (replies : Replies s task (.call i "shutdown" params) place acts s₁)
    (up : ∀ j, Up s j → Up s₁ j) :
    Told (h ++ (s.noted task (.call i "shutdown" params)).toList) s₁
      (Function.update course task φ) := by
  have slot : s₁.slot = s.slot := ((replies_frame replies (by simp)).2 rfl).slot
  obtain ⟨again, stands, rfl⟩ := step_shutdown step
  have mine : (course task).story task = some (i, [.filled none, .removed task .taken]) := by
    rw [stands]
    rfl
  refine inv.hand standing.locking standing.knowing mine slot up ?_ ?_ (Or.inl rfl)
  · rw [story_deed (d := .asked task) (by simp [noted, deed]), inv.inHand task i _ mine]
    rfl
  · exact fun j apart => story_same (by simp [noted, deed, apart.symm])

/-- A server that is told `initialized` has been greeted and has no other deed. -/
theorem told_initialized {i : Nat} {params : Json} {r : Except Fault Unit} (inv : Told h s course)
    (standing : Standing s course)
    (step : Phase.Step s.setup (course task) (.notify i "initialized" params) r φ)
    (replies : Replies s task (.notify i "initialized" params) r acts s₁)
    (up : ∀ j, Up s j → Up s₁ j) :
    Told (h ++ (s.noted task (.notify i "initialized" params)).toList) s₁
      (Function.update course task φ) := by
  have slot : s₁.slot = s.slot := ((replies_frame replies (by simp)).2 rfl).slot
  have silent : ∀ j,
      story j (h ++ (s.noted task (.notify i "initialized" params)).toList) = story j h :=
    fun j => story_same rfl
  obtain ⟨commands, stands, goes⟩ := step_initialized step
  have mine : (course task).story task = some (i, []) := by rw [stands]; rfl
  have told := (silent i).trans (inv.inHand task i [] mine)
  refine inv.hand standing.locking standing.knowing mine slot up told (fun j _ => silent j) ?_
  rcases goes with rfl | rfl
  · exact Or.inl rfl
  · exact Or.inr ⟨rfl, Or.inl (by simp)⟩

/-- Whatever a task is replied to, the stories and the phases stay in agreement. -/
theorem told_reply {q : Question} {r : q.Reply} (inv : Told h s course)
    (standing : Standing s course) (step : Phase.Step s.setup (course task) q r φ)
    (replies : Replies s task q r acts s₁) (other : ∀ server, q ≠ .watch server)
    (up : ∀ j, Up s j → Up s₁ j) :
    Told (h ++ (s.noted task q).toList) s₁ (Function.update course task φ) := by
  by_cases calm : turns q = false
  · have silent : ∀ i, story i (h ++ (s.noted task q).toList) = story i h :=
      fun i => story_same (noted_silent calm i)
    exact inv.still silent (slot_of_calm replies other calm) (step_story task step calm) up
  · cases q with
    | setCurrent i => exact told_setCurrent inv standing step replies up
    | takeCurrent => exact told_takeCurrent inv standing step replies up
    | vacate => exact told_vacate inv standing step replies up
    | launch => exact told_launch inv standing step replies up
    | terminate i => exact told_terminate inv standing step replies up
    | discard i => exact told_discard inv standing step replies up
    | call i method params =>
      by_cases shutdown : method = "shutdown"
      · subst shutdown
        exact told_shutdown inv standing step replies up
      · exact absurd (decide_eq_false shutdown) calm
    | notify i method params =>
      by_cases initialized : method = "initialized"
      · subst initialized
        exact told_initialized inv standing step replies up
      · exact absurd (decide_eq_false initialized) calm
    | _ => exact absurd rfl calm

end Telling

/-- Every move of the system keeps stories and phases in agreement. -/
theorem told_keep {h : List Happening} {s s' : Session} {course course' : Nat → Phase}
    {e : Option Happening} {acts : Nat → Option Connection.Action} (inv : Told h s course)
    (standing : Standing s course) (on : OnCourse s course) (move : Move s course e acts s' course') :
    Told (h ++ e.toList) s' course' := by
  have up : ∀ i, Up s i → Up s' i := fun i there => move.up there
  have silent : ∀ i, story i (h ++ (none : Option Happening).toList) = story i h :=
    fun i => story_same rfl
  cases move with
  | @asks task t q next r acts s₁ φ here question step replies other =>
    have told : Told (h ++ (s.noted task q).toList) s₁ (Function.update course task φ) :=
      told_reply inv standing step replies other up
    exact ⟨told.inHand, told.inSlot, told.removed, told.fresh⟩
  | @watches task t server next here question stands =>
    refine inv.same silent rfl ?_ up
    intro u
    rcases watches_cases course s.tasks.length server task u with
      ⟨rfl, now⟩ | ⟨-, rfl, now⟩ | ⟨-, -, now⟩
    · rw [now, stands]
      rfl
    · rw [now, on.beyond _ (Nat.le_refl _)]
      rfl
    · rw [now]
  | wants here question new => exact inv.same silent rfl (fun _ => rfl) up
  | @acts server c c' act events conn spontaneous hstep =>
    exact inv.same silent (core_acts s server c' events).slot (fun _ => rfl) up
  | quiet same servers queued => exact inv.same silent same.slot (fun _ => rfl) up

/-! ## After every run -/

theorem told_start (setup : Setup) (files : FileSystem) (view : EditorView) :
    Told [] { setup, files, view } fun _ => .free [] := by
  refine ⟨?_, by simp, ?_, fun _ _ => rfl⟩
  · exact fun task i l hl => absurd hl (by simp [Phase.story])
  · exact fun i previous mem => absurd mem List.not_mem_nil

/-- In every run there is a course on which each story agrees with the phases. -/
theorem told_of_run {setup : Setup} {files : FileSystem} {view : EditorView}
    {actions : List Action} {s : Session} (hrun : run actions { setup, files, view } = some s) :
    ∃ course, OnCourse s course ∧ Standing s course ∧
      Told (history actions { setup, files, view }) s course := by
  obtain ⟨course, on, -, standing, told⟩ :=
    run_induct (P := fun h _ s course => Standing s course ∧ Told h s course)
      ⟨standing_start setup files view, told_start setup files view⟩
      (fun inv on _ move =>
        ⟨standing_keep inv.1 on move, told_keep inv.2 inv.1 on move⟩)
      hrun
  exact ⟨course, on, standing, told⟩

/-- A task that is in the middle of something comes to ask what its phase leads to. -/
theorem willAsk_of_phase {s : Session} {course : Nat → Phase} {task : Nat} {goal : Question}
    (on : OnCourse s course) (busy : course task ≠ .free [])
    (comes : ∀ p : Prog Result, Follows s.setup AtEase (course task) p → ComesTo goal p) :
    WillAsk s task goal := by
  have inside : task < s.tasks.length := by
    by_contra outside
    exact busy (on.beyond task (by omega))
  have here : s.tasks[task]? = some s.tasks[task] := List.getElem?_eq_getElem inside
  exact ⟨_, here, comes _ (on.follows task _ here)⟩

/-- What has become of a server that was put into the slot, by its story. -/
inductive Fate (s : Session) (i : Nat) : List Deed → Prop where
  /-- It is in the slot. -/
  | current (there : s.slot = some i) : Fate s i [.filled none]
  /-- A transition has taken it out, and is going to shut it down. -/
  | taken {task : Nat} (out : s.slot ≠ some i) (asks : WillAsk s task (.call i "shutdown" .null))
    (ends : WillAsk s task (.terminate i)) : Fate s i [.filled none, .removed task .taken]
  /-- It is being shut down. -/
  | asked {task : Nat} (out : s.slot ≠ some i) (ends : WillAsk s task (.terminate i)) :
    Fate s i [.filled none, .removed task .taken, .asked task]
  /-- It has been shut down. -/
  | shutDown {task : Nat} (out : s.slot ≠ some i) :
    Fate s i [.filled none, .removed task .taken, .asked task, .ended task]
  /-- Its watcher has emptied the slot, and is going to end it. -/
  | vacated {task : Nat} (out : s.slot ≠ some i) (ends : WillAsk s task (.terminate i)) :
    Fate s i [.filled none, .removed task .vacated]
  /-- Its watcher has ended it. -/
  | buried {task : Nat} (out : s.slot ≠ some i) :
    Fate s i [.filled none, .removed task .vacated, .ended task]

/-- In the hands of a task, a server that was in the slot is shut down or ended. -/
theorem Told.fate_of_hand {h : List Happening} {s : Session} {course : Nat → Phase}
    (inv : Told h s course) (on : OnCourse s course) {task i : Nat} {l : List Deed}
    (mine : (course task).story task = some (i, l)) {previous : Option Nat}
    (filled : .filled previous ∈ l) : Fate s i l := by
  have out : s.slot ≠ some i := fun there => inv.slot_alone there mine
  have will : ∀ goal, (∀ p : Prog Result, Follows s.setup AtEase (course task) p → ComesTo goal p) →
      WillAsk s task goal := by
    refine fun goal comes => willAsk_of_phase on ?_ comes
    intro free
    rw [free] at mine
    exact absurd mine (by simp [Phase.story])
  -- where the task stands tells how the story has to go on
  generalize course task = φ at mine will
  cases φ with
  | up | greeting | greeted | rejected | introduced | advertised =>
    obtain ⟨rfl, rfl⟩ := Prod.mk.inj (Option.some.inj mine)
    exact absurd filled List.not_mem_nil
  | shutting again j =>
    obtain ⟨rfl, rfl⟩ := Prod.mk.inj (Option.some.inj mine)
    exact .taken out (will _ fun p follows => (shutting_comesTo again j p follows).1)
      (will _ fun p follows => (shutting_comesTo again j p follows).2)
  | bidding again j place =>
    obtain ⟨rfl, rfl⟩ := Prod.mk.inj (Option.some.inj mine)
    exact .asked out (will _ (bidding_comesTo again j place))
  | leaving again j =>
    obtain ⟨rfl, rfl⟩ := Prod.mk.inj (Option.some.inj mine)
    exact .asked out (will _ (leaving_comesTo again j))
  | left again j =>
    obtain ⟨rfl, rfl⟩ := Prod.mk.inj (Option.some.inj mine)
    exact .asked out (will _ (left_comesTo again j))
  | gone again j =>
    obtain ⟨rfl, rfl⟩ := Prod.mk.inj (Option.some.inj mine)
    exact .shutDown out
  | reporting j =>
    obtain ⟨rfl, rfl⟩ := Prod.mk.inj (Option.some.inj mine)
    exact .vacated out (will _ (reporting_comesTo j))
  | alarmed j =>
    obtain ⟨rfl, rfl⟩ := Prod.mk.inj (Option.some.inj mine)
    exact .vacated out (will _ (alarmed_comesTo j))
  | burying j =>
    obtain ⟨rfl, rfl⟩ := Prod.mk.inj (Option.some.inj mine)
    exact .vacated out (will _ (burying_comesTo j))
  | buried j =>
    obtain ⟨rfl, rfl⟩ := Prod.mk.inj (Option.some.inj mine)
    exact .buried out
  | _ => exact absurd mine (by simp [Phase.story])

/-- A server that got into the slot has one of the fates, and which one is read off its story. -/
theorem Told.fate {h : List Happening} {s : Session} {course : Nat → Phase} (inv : Told h s course)
    (on : OnCourse s course) {i : Nat} {previous : Option Nat}
    (filled : .filled previous ∈ story i h) : Fate s i (story i h) := by
  rcases inv.removed i previous filled with there | ⟨task, l, mine⟩ | ⟨task, complete⟩
  · rw [inv.inSlot i there]
    exact .current there
  · rw [inv.inHand task i l mine] at filled ⊢
    exact inv.fate_of_hand on mine filled
  · have out : s.slot ≠ some i := by
      intro there
      rw [inv.inSlot i there] at complete
      exact absurd complete (by simp)
    rcases complete with eq | eq
    · rw [eq]
      exact .shutDown out
    · rw [eq]
      exact .buried out

/-- No story tells that a server is put into a slot that is not empty. -/
theorem Fate.filled {s : Session} {i : Nat} {l : List Deed} (fate : Fate s i l)
    {previous : Option Nat} (mem : .filled previous ∈ l) : previous = none := by
  cases fate <;> simpa using mem

/-- The filling of the slot stands in a server's story exactly when it happened. -/
theorem mem_story_filled {i : Nat} {previous : Option Nat} {h : List Happening} :
    .filled previous ∈ story i h ↔ .filled i previous ∈ h := by
  constructor
  · intro mem
    obtain ⟨x, hx, told⟩ := List.mem_filterMap.mp mem
    cases x with
    | filled server before =>
      obtain ⟨rfl, same⟩ := (Option.ite_none_right_eq_some ..).mp told
      obtain rfl := Deed.filled.inj (Option.some.inj same)
      exact hx
    | removed | called | ended => exact absurd told (by simp [deed])
  · exact fun mem => List.mem_filterMap.mpr ⟨_, mem, if_pos rfl⟩

/-- Nobody is in a transition, and nobody has claimed the slot. Who is first in the queue
for the lock may not have it yet. -/
structure AtRest (s : Session) : Prop where
  unlocked : ∀ task, s.lock.head? = some task → s.question? task = some .lock
  unclaimed : s.claimant = none

theorem AtRest.settled {s : Session} {course : Nat → Phase} (rest : AtRest s)
    (on : OnCourse s course) (standing : Standing s course) : Settled none s.state s.slot := by
  have free : ∀ task, s.lock.head? = some task → (course task).holds = false := by
    intro task first
    obtain ⟨t, next, here, question⟩ := task_of_question? (rest.unlocked task first)
    exact on.not_holds_of_lock here question
  have fits := standing.fits
  rwa [stretchOf_free free, claimOf_free rest.unclaimed] at fits

/-- **State and slot agree outside of transitions, and no server is lost.** Whatever starts,
restarts and stops there were, and whenever servers exited: with nobody in a transition and
nobody at the slot, the state is stopped or ready, and a server is in the slot just if it is
ready; a server was only ever put into an empty slot; and each that was is still there, or
was taken out by one task, which shuts it down, or ends it if it is its watcher. -/
theorem lifecycle_invariant {setup : Setup} {files : FileSystem} {view : EditorView}
    {actions : List Action} {s : Session} (hrun : run actions { setup, files, view } = some s) :
    (AtRest s → (s.state = .stopped ∨ s.state = .ready) ∧ (s.slot.isSome = true ↔ s.state = .ready)) ∧
      ∀ server previous, .filled server previous ∈ history actions { setup, files, view } →
        previous = none ∧ Fate s server (story server (history actions { setup, files, view })) := by
  obtain ⟨course, on, standing, told⟩ := told_of_run hrun
  constructor
  · intro rest
    rcases rest.settled on standing with ⟨stopped, empty⟩ | ⟨ready, filled⟩
    · rw [stopped, empty]
      exact ⟨Or.inl rfl, by simp⟩
    · exact ⟨Or.inr ready, fun _ => ready, fun _ => filled⟩
  · intro server previous mem
    have filled := mem_story_filled.mpr mem
    have fate := told.fate on filled
    exact ⟨fate.filled filled, fate⟩

/-- It is put into the slot, exits before it has its settings, and is then watched. -/
def servedThenLost : List Action :=
  served ++ List.replicate 6 (.advance 0) ++
    [.connection 0 .endInput, .connection 0 .read, .connection 0 .read] ++
    List.replicate 4 (.connection 0 (.advance 1)) ++ List.replicate 4 (.advance 0) ++
    List.replicate 4 (.advance 1)

/-- `lifecycle_invariant` where a server exits early: its watcher has emptied the slot, the
state is stopped, and the watcher is going to end it. -/
theorem lifecycle_invariant_lost :
    ∃ s, run servedThenLost { setup := bareSetup } = some s ∧ AtRest s ∧ s.state = .stopped ∧
      Fate s 0 [.filled none, .removed 1 .vacated] := by
  have done : ((run servedThenLost { setup := bareSetup }).any fun s =>
      s.lock = [] ∧ s.claimant = none ∧ s.slot = none) = true := by decide +kernel
  have told : story 0 (history servedThenLost { setup := bareSetup }) =
      [.filled none, .removed 1 .vacated] := by decide +kernel
  have filled : .filled 0 none ∈ history servedThenLost { setup := bareSetup } := by
    rw [← mem_story_filled, told]
    exact List.mem_cons_self ..
  obtain ⟨s, hrun, stands⟩ := (Option.any_eq_true _ _).mp done
  obtain ⟨unlocked, unclaimed, empty⟩ := of_decide_eq_true stands
  have rest : AtRest s := by
    refine ⟨?_, unclaimed⟩
    intro task first
    rw [unlocked] at first
    exact absurd first (by simp)
  obtain ⟨settled, fates⟩ := lifecycle_invariant hrun
  obtain ⟨stopped | ready, agree⟩ := settled rest
  · refine ⟨s, hrun, rest, stopped, ?_⟩
    rw [← told]
    exact (fates 0 none filled).2
  · have there := agree.mpr ready
    rw [empty] at there
    exact absurd there (by simp)

end EmberClient.Session
