import EmberClient.Proofs.Session.Moments
import EmberClient.Proofs.Session.Watchers

/-!
# Servers that exit by themselves

A watcher does one thing after the other: it waits until the connection to its server is
closed, looks once whether this server is still in the slot, and if it is, sets the state,
empties the slot, tells the user and ends the server. `Stand` lists where a watcher can be,
with what it was told so far and what it goes on with. Other tasks take their steps in
between, restarts and starts among them; what the session is like at each step of a watcher
comes from the invariants of the session and from where the watcher stands.

> `exits_reported_once`: who watches, what a watcher is told, what the session is like at
> each of its steps, and that nothing keeps it from going on.
-/

namespace EmberClient.Session

variable {setup : Setup} {files : FileSystem} {view : EditorView} {actions : List Action}
  {s d d' : Session} {task i : Nat} {past said : List Exchange} {p : Prog Result}

/-! ## The course of a watcher -/

/-- What a watcher is told, if it finds its server in the slot or if it does not. -/
def watchCourse (i : Nat) (found : Bool) : List Exchange :=
  [⟨.closed i, ()⟩, ⟨.claim i, found⟩] ++
    if found then
      [⟨.setState .stopped, ()⟩, ⟨.vacate, ()⟩,
        ⟨.status StatusItem.main (StatusItem.text StatusItem.noServer), ()⟩,
        ⟨.showError Lifecycle.exitMessage, ()⟩, ⟨.terminate i, ()⟩, ⟨.discard i, ()⟩]
    else []

namespace Watcher

def letGo (i : Nat) : Prog Result := .ask (.discard i) fun _ => .done .nothing

def bury (i : Nat) : Prog Result := .ask (.terminate i) fun _ => letGo i

def alarm (i : Nat) : Prog Result := .ask (.showError Lifecycle.exitMessage) fun _ => bury i

def report (i : Nat) : Prog Result :=
  .ask (.status StatusItem.main (StatusItem.text StatusItem.noServer)) fun _ => alarm i

def vacate (i : Nat) : Prog Result := .ask .vacate fun _ => report i

def halt (i : Nat) : Prog Result := .ask (.setState .stopped) fun _ => vacate i

def look (i : Nat) : Prog Result :=
  .ask (.claim i) fun found => if found then halt i else .done .nothing

def wait (i : Nat) : Prog Result := .ask (.closed i) fun _ => look i

/-- A watcher is begun with what is left when nothing has been done. -/
theorem program_eq : (Origin.watcher i).program setup = wait i := by
  show (Lifecycle.watchExit i).bind (fun _ => .done .nothing) = wait i
  refine congrArg (Program.ask (Question.closed i)) (funext fun _ => ?_)
  refine congrArg (Program.ask (Question.claim i)) (funext fun found => ?_)
  cases found <;> rfl

/-- Where a watcher can be: what it was told, and what it goes on with. -/
inductive Stand (i : Nat) : List Exchange → Prog Result → Prop where
  | waiting : Stand i [] (wait i)
  | looking : Stand i ((watchCourse i false).take 1) (look i)
  | spared : Stand i (watchCourse i false) (.done .nothing)
  | halting : Stand i ((watchCourse i true).take 2) (halt i)
  | emptying : Stand i ((watchCourse i true).take 3) (vacate i)
  | reporting : Stand i ((watchCourse i true).take 4) (report i)
  | alarming : Stand i ((watchCourse i true).take 5) (alarm i)
  | burying : Stand i ((watchCourse i true).take 6) (bury i)
  | lettingGo : Stand i ((watchCourse i true).take 7) (letGo i)
  | finished : Stand i (watchCourse i true) (.done .nothing)

/-- Each reply takes a watcher from one stand to the next. -/
theorem Stand.next {q : Question} {next : q.Reply → Prog Result}
    (stand : Stand i said p) (question : p = .ask q next) (r : q.Reply) :
    Stand i (said ++ [⟨q, r⟩]) (next r) := by
  cases stand with
  | spared | finished => contradiction
  | looking =>
    obtain ⟨rfl, same⟩ := Program.ask.inj question
    obtain rfl := eq_of_heq same
    cases r with
    | true => exact .halting
    | false => exact .spared
  | waiting | halting | emptying | reporting | alarming | burying | lettingGo =>
    obtain ⟨rfl, same⟩ := Program.ask.inj question
    obtain rfl := eq_of_heq same
    first
      | exact .looking
      | exact .emptying
      | exact .reporting
      | exact .alarming
      | exact .burying
      | exact .lettingGo
      | exact .finished

/-- Wherever a watcher's program leads, it leads to one of the places listed. -/
theorem stand_of_leads (leads : Leads setup (wait i) said p) : Stand i said p := by
  induction leads with
  | nothing => exact .waiting
  | told before plain r ih => exact ih.next rfl r
  | runs before ih =>
    -- a watcher runs no commands
    generalize question : Program.ask _ _ = p at ih
    cases ih with
    | spared | finished => contradiction
    | _ => exact absurd (Program.ask.inj question).1 (by simp)

/-! ### The phase of a stand -/

section Phases

variable {φ : Phase}

theorem follows_letGo (follows : Follows setup AtEase φ (letGo i)) : φ = .buried i := by
  obtain ⟨φ', step, known, rfl⟩ := follows ()
  cases step with
  | idle h => exact absurd h (by simp [isIdle])
  | release => rfl

theorem follows_bury (follows : Follows setup AtEase φ (bury i)) : φ = .burying i := by
  obtain ⟨φ', step, rest⟩ := follows ()
  obtain rfl := follows_letGo rest
  cases step with
  | bury => rfl

theorem follows_alarm (follows : Follows setup AtEase φ (alarm i)) : φ = .alarmed i := by
  obtain ⟨φ', step, rest⟩ := follows ()
  obtain rfl := follows_bury rest
  cases step with
  | alarm => rfl

theorem follows_report (follows : Follows setup AtEase φ (report i)) : φ = .reporting i := by
  obtain ⟨φ', step, rest⟩ := follows ()
  obtain rfl := follows_alarm rest
  cases step with
  | report => rfl

theorem follows_vacate (follows : Follows setup AtEase φ (vacate i)) : φ = .stopping i := by
  obtain ⟨φ', step, rest⟩ := follows ()
  obtain rfl := follows_report rest
  cases step with
  | vacate => rfl

theorem follows_halt (follows : Follows setup AtEase φ (halt i)) : φ = .holding i := by
  obtain ⟨φ', step, rest⟩ := follows ()
  obtain rfl := follows_vacate rest
  cases step with
  | halt => rfl

theorem follows_look (follows : Follows setup AtEase φ (look i)) : φ = .noticed i := by
  obtain ⟨φ', step, rest⟩ := follows true
  obtain rfl := follows_halt rest
  cases step with
  | claim => rfl

theorem follows_wait (follows : Follows setup AtEase φ (wait i)) : φ = .watching i := by
  obtain ⟨φ', step, rest⟩ := follows ()
  obtain rfl := follows_look rest
  cases step with
  | notice => rfl

end Phases

end Watcher

open Watcher

/-- What a watcher was told is the beginning of one of its courses, and all of it once
there is nothing left to do. -/
theorem Watcher.Stand.course (stand : Stand i said p) :
    ∃ found, said <+: watchCourse i found ∧ ∀ r, p = .done r → said = watchCourse i found := by
  cases stand with
  | spared => exact ⟨false, List.prefix_rfl, fun _ _ => rfl⟩
  | finished => exact ⟨true, List.prefix_rfl, fun _ _ => rfl⟩
  | waiting => exact ⟨false, List.nil_prefix, fun r done => absurd done (by simp [wait])⟩
  | looking => exact ⟨false, List.take_prefix .., fun r done => absurd done (by simp [look])⟩
  | halting | emptying | reporting | alarming | burying | lettingGo =>
    refine ⟨true, List.take_prefix .., fun r done => absurd done ?_⟩
    simp [halt, vacate, report, alarm, bury, letGo]

/-- A watcher that was begun stands somewhere on its course. -/
theorem stand_of_run (hrun : run actions { setup, files, view } = some s)
    (begun : (origins actions { setup, files, view })[task]? = some (.watcher i)) :
    ∃ t, s.tasks[task]? = some t ∧
      Stand i (dialogue task actions { setup, files, view }) t.program := by
  obtain ⟨t, here, leads⟩ := task_of_begun rfl hrun begun
  rw [program_eq] at leads
  exact ⟨t, here, stand_of_leads leads⟩

/-! ## Moments of a watcher -/

/-- Where a watcher is that asks this: what it was told, and what it goes on with. -/
def Watcher.askedAt (i : Nat) : Question → List Exchange × Prog Result
  | .closed _ => ([], wait i)
  | .claim _ => ((watchCourse i false).take 1, look i)
  | .setState _ => ((watchCourse i true).take 2, halt i)
  | .vacate => ((watchCourse i true).take 3, vacate i)
  | .status .. => ((watchCourse i true).take 4, report i)
  | .showError _ => ((watchCourse i true).take 5, alarm i)
  | .terminate _ => ((watchCourse i true).take 6, bury i)
  | _ => ((watchCourse i true).take 7, letGo i)

theorem Watcher.Stand.askedAt {q : Question} {next : q.Reply → Prog Result}
    (stand : Stand i said p) (question : p = .ask q next) : (said, p) = askedAt i q := by
  cases stand with
  | spared | finished => contradiction
  | _ =>
    obtain ⟨rfl, -⟩ := Program.ask.inj question
    rfl

/-- What the session is like when a watcher is told something. -/
structure WatcherAt (start : Session) (i task : Nat) (past : List Exchange) (q : Question)
    (d : Session) (before : List Action) (course : Nat → Phase) : Prop where
  hrun : run before start = some d
  told : dialogue task before start = past
  onCourse : OnCourse d course
  guarded : Guarded start before d course
  begun : (origins before start)[task]? = some (.watcher i)
  past_eq : past = (askedAt i q).1
  follows : Follows d.setup AtEase (course task) (askedAt i q).2

/-- At the moment a watcher is answered, its phase is the one of its place. -/
theorem watcherAt_of_hears {e : Exchange} 
    (hears : Hears actions { setup, files, view } task past e d d')
    (begun : (origins actions { setup, files, view })[task]? = some (.watcher i)) :
    ∃ before course, before <+: actions ∧
      WatcherAt { setup, files, view } i task past e.question d before course := by
  obtain ⟨before, a, after, rfl, hrun, hstep, heard, told⟩ := hears
  obtain ⟨course, on, guarded⟩ := guarded_of_run hrun
  obtain ⟨t, next, here, question⟩ := task_of_question? (asked_of_told hstep heard)
  have inside := length_of_getElem? here
  rw [(leads_of_run rfl hrun).length] at inside
  rw [origins_append hrun, List.getElem?_append_left inside] at begun
  obtain ⟨t', here', stand⟩ := stand_of_run hrun begun
  obtain rfl := Option.some.inj (here.symm.trans here')
  have at_ := stand.askedAt question
  refine ⟨before, course, List.prefix_append _ _, hrun, told, on, guarded, begun, ?_, ?_⟩
  · exact told.symm.trans (congrArg Prod.fst at_)
  · exact congrArg Prod.snd at_ ▸ on.follows task t here

/-! ## The story of a server that is watched -/

/-- A removal stands in a server's story exactly when it happened. -/
theorem mem_story_removed {t : Nat} {why : Removal} {h : List Happening} :
    .removed t why ∈ story i h ↔ .removed t i why ∈ h := by
  constructor
  · intro mem
    obtain ⟨x, hx, told⟩ := List.mem_filterMap.mp mem
    cases x with
    | removed task server why' =>
      obtain ⟨rfl, same⟩ := (Option.ite_none_right_eq_some ..).mp told
      obtain ⟨rfl, rfl⟩ := Deed.removed.inj (Option.some.inj same)
      exact hx
    | filled | called | ended => exact absurd told (by simp [deed])
  · exact fun mem => List.mem_filterMap.mpr ⟨_, mem, if_pos rfl⟩

/-- A server that was in the slot and is not any more was removed from it. -/
theorem Fate.removed {l : List Deed} (fate : Fate s i l) (out : s.slot ≠ some i) :
    ∃ t why, .removed t why ∈ l := by
  cases fate with
  | current there => exact absurd there out
  | taken | asked | shutDown | vacated | buried =>
    exact ⟨_, _, List.mem_cons_of_mem _ List.mem_cons_self⟩

/-- A server is removed from the slot in one way. -/
theorem Fate.not_taken {l : List Deed} (fate : Fate s i l) (vacated : .removed task .vacated ∈ l)
    (t : Nat) : .removed t .taken ∉ l := by
  cases fate with
  | current | taken | asked | shutDown => exact absurd vacated (by simp)
  | vacated | buried => simp

/-- A server that is watched was put into the slot before. -/
theorem filled_of_watched (hrun : run actions { setup, files, view } = some s)
    (mem : .watcher i ∈ origins actions { setup, files, view }) :
    .filled i none ∈ history actions { setup, files, view } := by
  -- by the last action: the watcher was begun before, or now
  induction actions using List.reverseRecOn generalizing s with
  | nil => exact absurd mem List.not_mem_nil
  | append_singleton actions a ih =>
    obtain ⟨d, before, hstep⟩ := run_snoc hrun
    rw [origins_snoc before hstep] at mem
    rw [history_snoc before hstep]
    refine List.mem_append_left _ ?_
    rcases List.mem_append.mp mem with old | new
    · exact ih before old
    · -- the start that begins to watch it still has it in the slot
      obtain ⟨-, u, asked⟩ := begun_of_watcher new
      obtain ⟨course, on, standing, told⟩ := told_of_run before
      obtain ⟨t, next, here, question⟩ := task_of_question? asked
      have follows := on.follows u t here
      rw [question] at follows
      obtain ⟨φ, step, -⟩ := follows ()
      have stands : course u = .shown i := by
        generalize course u = ψ at step
        cases step with
        | idle h => exact absurd h (by simp [isIdle])
        | watch => rfl
      have fits := standing.fits
      rw [stretchOf_holder standing.locking (by rw [stands]; rfl), stands] at fits
      rw [← mem_story_filled, told.inSlot i fits.2.1]
      exact List.mem_singleton_self _

/-- What has become of a server that is watched. -/
theorem fate_of_watched (hrun : run actions { setup, files, view } = some s)
    (mem : .watcher i ∈ origins actions { setup, files, view }) :
    Fate s i (story i (history actions { setup, files, view })) :=
  ((lifecycle_invariant hrun).2 i none (filled_of_watched hrun mem)).2

/-- A server has one watcher. -/
theorem watcher_unique {t u : Nat} (hrun : run actions { setup, files, view } = some s)
    (ht : (origins actions { setup, files, view })[t]? = some (.watcher i))
    (hu : (origins actions { setup, files, view })[u]? = some (.watcher i)) : t = u := by
  have once := List.pairwise_filterMap.mp (watched_nodup hrun)
  have apart : ∀ {t u : Nat}, (origins actions { setup, files, view })[t]? = some (.watcher i) →
      (origins actions { setup, files, view })[u]? = some (.watcher i) → ¬ t < u := by
    intro t u ht hu lt
    obtain ⟨ht, there⟩ := List.getElem?_eq_some_iff.mp ht
    obtain ⟨hu, there'⟩ := List.getElem?_eq_some_iff.mp hu
    refine List.pairwise_iff_getElem.mp once t u ht hu lt i ?_ i ?_ rfl
    · rw [there]
      rfl
    · rw [there']
      rfl
  exact Nat.le_antisymm (Nat.le_of_not_lt (apart hu ht)) (Nat.le_of_not_lt (apart ht hu))

/-! ## What the session is like at each step -/

section Moments

variable {start : Session}

/-- The connection to a server that was seen closed is closed. -/
theorem marked_of_told (hrun : run actions { setup, files, view } = some s)
    (told : ⟨.closed i, ()⟩ ∈ dialogue task actions { setup, files, view }) :
    ∃ who, .marked who ∈ connectionHistory i actions { setup, files, view } := by
  refine dialogue_induct (P := fun actions e => e = ⟨.closed i, ()⟩ →
    ∃ who, .marked who ∈ connectionHistory i actions { setup, files, view }) hrun ?_ ?_ told rfl
  · rintro actions a d s' _ before hstep heard rfl
    obtain ⟨rfl, asked, s₁, -, replied, -⟩ := reply_of_told hstep heard rfl (by simp)
    simp only [reply] at replied
    split at replied
    · next c conn =>
      split at replied
      · next closed =>
        have marks := (Connection.closing_of_run (connection_run before conn)).marks
        obtain ⟨who, marked⟩ := marks.closed_iff.mp closed
        rw [connectionHistory_snoc before hstep]
        exact ⟨who, List.mem_append_left _ marked⟩
      · contradiction
    · contradiction
  · rintro actions a d s' e before hstep ih rfl
    obtain ⟨who, marked⟩ := ih rfl
    rw [connectionHistory_snoc before hstep]
    exact ⟨who, List.mem_append_left _ marked⟩

variable {q : Question} {before : List Action} {course : Nat → Phase}

/-- A watcher that sets the state to `.stopped` still has its server in the slot. -/
theorem WatcherAt.slot_of_halt {state : ServerState}
    (moment : WatcherAt start i task past (.setState state) d before course) :
    d.slot = some i := by
  have stands := follows_halt moment.follows
  exact moment.guarded.standing.claiming.inSlot task i false (by rw [stands]; rfl)

/-- So does one that empties the slot: between claim and removal nobody else does. -/
theorem WatcherAt.slot_of_vacate (moment : WatcherAt start i task past .vacate d before course) :
    d.slot = some i := by
  have stands := follows_vacate moment.follows
  exact moment.guarded.standing.claiming.inSlot task i true (by rw [stands]; rfl)

end Moments

/-- A server that its watcher found in the slot is never taken out by a transition. -/
theorem not_taken_of_found (hrun : run actions { setup, files, view } = some s)
    (begun : (origins actions { setup, files, view })[task]? = some (.watcher i))
    (found : ⟨.claim i, true⟩ ∈ dialogue task actions { setup, files, view }) (t : Nat) :
    .removed t i .taken ∉ history actions { setup, files, view } := by
  obtain ⟨w, here, stand⟩ := stand_of_run hrun begun
  obtain ⟨course, on, standing, told⟩ := told_of_run hrun
  have follows := on.follows task w here
  rw [← mem_story_removed]
  have inSlot : s.slot = some i → .removed t .taken ∉ story i (history actions { setup, files, view }) := by
    intro slot
    rw [told.inSlot i slot]
    simp
  -- once it has emptied the slot, its server has left it that way and no other
  have vacated : ⟨.vacate, ()⟩ ∈ dialogue task actions { setup, files, view } →
      .removed t .taken ∉ story i (history actions { setup, files, view }) := by
    intro emptied
    obtain ⟨past, future, split⟩ := List.append_of_mem emptied
    obtain ⟨d, d', hears⟩ := hears_of_dialogue hrun split
    obtain ⟨before, course, -, moment⟩ := watcherAt_of_hears hears begun
    have noted : d.noted task .vacate = some (.removed task i .vacated) := by
      simp only [Session.noted, moment.slot_of_vacate, Option.map_some]
    have removed := mem_story_removed.mpr (hears.happens rfl (by simp) noted)
    exact (fate_of_watched hrun (List.mem_of_getElem? begun)).not_taken removed t
  generalize dialogue task actions { setup, files, view } = said at stand found vacated
  generalize w.program = p at stand follows
  -- before that the server is still in the slot
  cases stand with
  | waiting | looking | spared => simp [watchCourse] at found
  | halting =>
    have stands := follows_halt follows
    exact inSlot (standing.claiming.inSlot task i false (by rw [stands]; rfl))
  | emptying =>
    have stands := follows_vacate follows
    exact inSlot (standing.claiming.inSlot task i true (by rw [stands]; rfl))
  | reporting | alarming | burying | lettingGo | finished => exact vacated (by simp [watchCourse])

/-- If a server is out of the slot before its watcher could have emptied it, a transition
has taken it out. -/
theorem WatcherAt.taken_of_out {q : Question} {before : List Action} {course : Nat → Phase}
    (moment : WatcherAt { setup, files, view } i task past q d before course)
    (early : ⟨.vacate, ()⟩ ∉ past) (out : d.slot ≠ some i) :
    ∃ t, .removed t i .taken ∈ history before { setup, files, view } := by
  have fate := fate_of_watched moment.hrun (List.mem_of_getElem? moment.begun)
  obtain ⟨t, why, removed⟩ := fate.removed out
  rw [mem_story_removed] at removed
  cases why with
  | taken => exact ⟨t, removed⟩
  | vacated =>
    obtain ⟨origin, emptied⟩ := watcher_of_vacated moment.hrun removed
    obtain rfl := watcher_unique moment.hrun origin moment.begun
    rw [moment.told] at emptied
    exact absurd emptied early

/-- A server that its watcher did not find in the slot was taken out by a transition. -/
theorem taken_of_missed (hrun : run actions { setup, files, view } = some s)
    (begun : (origins actions { setup, files, view })[task]? = some (.watcher i))
    (missed : ⟨.claim i, false⟩ ∈ dialogue task actions { setup, files, view }) :
    ∃ t, .removed t i .taken ∈ history actions { setup, files, view } := by
  obtain ⟨past, future, split⟩ := List.append_of_mem missed
  obtain ⟨d, d', hears⟩ := hears_of_dialogue hrun split
  obtain ⟨before, course, ⟨after, rfl⟩, moment⟩ := watcherAt_of_hears hears begun
  obtain ⟨s₁, program, replied, -⟩ := hears.reply rfl (by simp)
  obtain ⟨-, ⟨wrong, -⟩ | ⟨-, out, -⟩⟩ := replies_claim (.own replied)
  · exact absurd wrong (by simp)
  · have early : ⟨.vacate, ()⟩ ∉ past := by
      rw [moment.past_eq]
      simp [askedAt, watchCourse]
    obtain ⟨t, taken⟩ := moment.taken_of_out early out
    rw [history_append moment.hrun]
    exact ⟨t, List.mem_append_left _ taken⟩

/-! ## Nothing keeps a watcher from going on -/

/-- A task takes its next step when its question can be put or answered. -/
theorem step_of_ready {t : Task} {q : Question} {next : q.Reply → Prog Result}
    (here : s.tasks[task]? = some t) (question : t.program = .ask q next)
    (ready : (mustPut q = true ∧ t.isPut = false) ∨ (s.reply task q).isSome = true) :
    (s.step (.advance task)).isSome = true := by
  by_cases unput : mustPut q = true ∧ t.isPut = false
  · exact isSome_of_stepped (.puts here question unput.1 unput.2)
  · obtain ⟨⟨s₁, r⟩, replied⟩ := Option.isSome_iff_exists.mp (ready.resolve_left unput)
    have plain : q.isRun = false := by
      cases q with
      | run => contradiction
      | _ => rfl
    have put : mustPut q = true → t.isPut = true := fun outward =>
      eq_true_of_ne_false fun unput' => unput ⟨outward, unput'⟩
    exact isSome_of_stepped (.replied here question plain put replied)

/-- Whoever has claimed the slot can take its next step. -/
theorem step_of_claimant (hrun : run actions { setup, files, view } = some s)
    (claimant : s.claimant = some task) : (s.step (.advance task)).isSome = true := by
  obtain ⟨course, on, inv⟩ := guarded_of_run hrun
  have claims := (inv.standing.claiming.claimed task).mpr claimant
  have guards : ∃ j, (course task).guards = some j := by
    generalize course task = φ at claims
    cases φ with
    | holding j | stopping j => exact ⟨j, rfl⟩
    | _ => exact absurd claims (by simp [Phase.claim])
  obtain ⟨j, guards⟩ := guards
  obtain ⟨t, here, stand⟩ := stand_of_run hrun (inv.guards task j guards)
  have follows := on.follows task t here
  generalize question : t.program = p at stand follows
  generalize dialogue task actions { setup, files, view } = said at stand
  -- only a watcher between its claim and its giving up of the slot has a claim
  have elsewhere : (course task).claim = none → (s.step (.advance task)).isSome = true := by
    intro unclaimed
    rw [unclaimed] at claims
    contradiction
  cases stand with
  | halting | emptying => exact step_of_ready here question (.inr rfl)
  | waiting => exact elsewhere (by rw [follows_wait follows]; rfl)
  | looking => exact elsewhere (by rw [follows_look follows]; rfl)
  | reporting => exact elsewhere (by rw [follows_report follows]; rfl)
  | alarming => exact elsewhere (by rw [follows_alarm follows]; rfl)
  | burying => exact elsewhere (by rw [follows_bury follows]; rfl)
  | lettingGo => exact elsewhere (by rw [follows_letGo follows]; rfl)
  | spared | finished =>
    obtain ⟨known, free⟩ := follows
    exact elsewhere (by rw [free]; rfl)

/-- The process of a server that a task was told the end of has ended. -/
theorem ended_of_told (hrun : run actions { setup, files, view } = some s)
    (told : ⟨.terminate i, ()⟩ ∈ dialogue task actions { setup, files, view }) :
    .ended task i ∈ history actions { setup, files, view } := by
  refine dialogue_induct (P := fun actions e => e = ⟨.terminate i, ()⟩ →
    .ended task i ∈ history actions { setup, files, view }) hrun ?_ ?_ told rfl
  · rintro actions a d s' _ before hstep heard rfl
    rw [history_snoc before hstep]
    refine List.mem_append_right _ (Option.mem_toList.mpr ?_)
    -- nothing that is shared tells of the end of a process
    obtain ⟨asked, s₁, program, -, ⟨-, replied⟩ | brings⟩ := heard_of_step hstep heard
    · contradiction
    · rw [(brings.replies asked).2]
      rfl
  · rintro actions a d s' e before hstep ih rfl
    rw [history_snoc before hstep]
    exact List.mem_append_left _ (ih rfl)

/-- How a watcher can go on, or what it waits for. -/
inductive MayGoOn (s : Session) (task i : Nat) : Prop where
  /-- All is done. -/
  | done (result : s.result? task = some .nothing)
  | next (may : (s.step (.advance task)).isSome = true)
  /-- The server has not exited. -/
  | serving {c : Connection} (asked : s.question? task = some (.closed i))
    (conn : s.connection? i = some c) (here : c.closed = false)
  /-- Another watcher has the slot, and can go on itself. -/
  | behind {other : Nat} (asked : s.question? task = some (.claim i))
    (claimant : s.claimant = some other) (may : (s.step (.advance other)).isSome = true)
  /-- The process has been told to end, and may. -/
  | ending (may : (s.step (.terminated task)).isSome = true)

/-- In every run a watcher is done, can go on, or waits for one of the things listed. -/
theorem mayGoOn_of_run (hrun : run actions { setup, files, view } = some s)
    (begun : (origins actions { setup, files, view })[task]? = some (.watcher i)) :
    MayGoOn s task i := by
  obtain ⟨t, here, stand⟩ := stand_of_run hrun begun
  generalize question : t.program = p at stand
  generalize dialogue task actions { setup, files, view } = said at stand
  -- three questions of a watcher may have to wait: for the exit, for a claim, for the process
  cases stand with
  | spared | finished => exact .done (by simp only [result?, here, Option.map_some, question])
  | halting | emptying | reporting | alarming | lettingGo =>
    exact .next (step_of_ready here question (.inr rfl))
  | waiting =>
    obtain ⟨course, -, inv⟩ := guarded_of_run hrun
    obtain ⟨c, conn⟩ := (inv.settled i (mem_watched.mpr ⟨task, begun⟩)).1
    cases closed : c.closed with
    | false => exact .serving (question?_of here question) conn closed
    | true =>
      exact .next (step_of_ready here question (.inr (by simp only [reply, conn, closed]; rfl)))
  | looking =>
    cases claimant : s.claimant with
    | none =>
      refine .next (step_of_ready here question (.inr ?_))
      simp only [reply, claimant]
      split <;> first | contradiction | skip
      split <;> rfl
    | some other =>
      exact .behind (question?_of here question) claimant (step_of_claimant hrun claimant)
  | burying =>
    cases isPut : t.isPut with
    | false => exact .next (step_of_ready here question (.inl ⟨rfl, isPut⟩))
    | true => exact .ending (isSome_of_stepped (.brought here question (fun _ => isPut) .terminated))

/-! ## Unexpected exits -/

/-- What a watcher does about the server that it was begun for. -/
structure Watches (actions : List Action) (start s : Session) (task i : Nat) : Prop where
  /-- It takes the steps of one of its courses in order, all of them before it is done. -/
  course : ∃ found, dialogue task actions start <+: watchCourse i found ∧
    ∀ r, s.result? task = some r → dialogue task actions start = watchCourse i found
  /-- It goes on when the connection is closed. A server that is not the current one then
  is not found. -/
  sees : ∀ past d d', Hears actions start task past ⟨.closed i, ()⟩ d d' →
    (∃ c, d.connection? i = some c ∧ c.closed = true) ∧
      (d.slot ≠ some i → ⟨.claim i, true⟩ ∉ dialogue task actions start)
  /-- When it looks the connection is closed, and it finds the server exactly if that is
  the current one at that moment. -/
  looks : ∀ past found d d', Hears actions start task past ⟨.claim i, found⟩ d d' →
    (∃ c, d.connection? i = some c ∧ c.closed = true) ∧ (found = true ↔ d.slot = some i)
  /-- It finds the server unless a restart or a stop removes it. -/
  planned : ∀ found, ⟨.claim i, found⟩ ∈ dialogue task actions start →
    (found = true ↔ ∀ t, .removed t i .taken ∉ history actions start)
  /-- The state that it sets is that of its own server. -/
  halts : ∀ past d d', Hears actions start task past ⟨.setState .stopped, ()⟩ d d' →
    d.slot = some i ∧ d'.slot = some i ∧ d'.state = .stopped
  /-- The slot that it empties holds its own server. -/
  empties : ∀ past d d', Hears actions start task past ⟨.vacate, ()⟩ d d' →
    d.slot = some i ∧ d'.slot = none
  alarms : ∀ past d d', Hears actions start task past ⟨.showError Lifecycle.exitMessage, ()⟩ d d' →
    d'.shown = d.shown ++ [.error Lifecycle.exitMessage]
  ends : ⟨.terminate i, ()⟩ ∈ dialogue task actions start → .ended task i ∈ history actions start
  goesOn : MayGoOn s task i

/-- A watcher that is told so sees a closed connection, and does not find a server that has
left the slot by then. -/
theorem sees_of_hears (hrun : run actions { setup, files, view } = some s)
    (begun : (origins actions { setup, files, view })[task]? = some (.watcher i))
    {past : List Exchange} {d d' : Session}
    (hears : Hears actions { setup, files, view } task past ⟨.closed i, ()⟩ d d') :
    (∃ c, d.connection? i = some c ∧ c.closed = true) ∧
      (d.slot ≠ some i → ⟨.claim i, true⟩ ∉ dialogue task actions { setup, files, view }) := by
  obtain ⟨before, course, ⟨after, rfl⟩, moment⟩ := watcherAt_of_hears hears begun
  obtain ⟨s₁, program, replied, -⟩ := hears.reply rfl (by simp)
  refine ⟨?_, fun out found => ?_⟩
  · simp only [reply] at replied
    split at replied
    · next c conn =>
      split at replied
      · next closed => exact ⟨c, conn, closed⟩
      · contradiction
    · contradiction
  · have early : ⟨.vacate, ()⟩ ∉ past := by
      rw [moment.past_eq]
      exact List.not_mem_nil
    obtain ⟨t, taken⟩ := moment.taken_of_out early out
    refine not_taken_of_found hrun begun found t ?_
    rw [history_append moment.hrun]
    exact List.mem_append_left _ taken

/-- A watcher looks after the connection is closed, and is told whether its server is the
current one then. -/
theorem looks_of_hears
    (begun : (origins actions { setup, files, view })[task]? = some (.watcher i))
    {past : List Exchange} {found : Bool} {d d' : Session}
    (hears : Hears actions { setup, files, view } task past ⟨.claim i, found⟩ d d') :
    (∃ c, d.connection? i = some c ∧ c.closed = true) ∧ (found = true ↔ d.slot = some i) := by
  obtain ⟨before, course, -, moment⟩ := watcherAt_of_hears hears begun
  obtain ⟨s₁, program, replied, -⟩ := hears.reply rfl (by simp)
  refine ⟨?_, ?_⟩
  · have seen : ⟨.closed i, ()⟩ ∈ dialogue task before { setup, files, view } := by
      rw [moment.told, moment.past_eq]
      exact List.mem_cons_self
    obtain ⟨c, conn⟩ := (moment.guarded.settled i (mem_watched.mpr ⟨task, moment.begun⟩)).1
    have marks := (Connection.closing_of_run (connection_run moment.hrun conn)).marks
    exact ⟨c, conn, marks.closed_iff.mpr (marked_of_told moment.hrun seen)⟩
  · obtain ⟨-, ⟨rfl, there, -⟩ | ⟨rfl, out, -⟩⟩ := replies_claim (.own replied)
    · exact iff_of_true rfl there
    · exact iff_of_false Bool.false_ne_true out

/-- A watcher finds its server unless somebody takes it. -/
theorem found_iff_of_told (hrun : run actions { setup, files, view } = some s)
    (begun : (origins actions { setup, files, view })[task]? = some (.watcher i)) {found : Bool}
    (told : ⟨.claim i, found⟩ ∈ dialogue task actions { setup, files, view }) :
    found = true ↔ ∀ t, .removed t i .taken ∉ history actions { setup, files, view } := by
  cases found with
  | true => exact iff_of_true rfl (not_taken_of_found hrun begun told)
  | false =>
    obtain ⟨t, taken⟩ := taken_of_missed hrun begun told
    exact iff_of_false Bool.false_ne_true fun never => never t taken

/-- In every run each watcher stands at one of its places, with what it did before. -/
theorem watches_of_run (hrun : run actions { setup, files, view } = some s)
    (begun : (origins actions { setup, files, view })[task]? = some (.watcher i)) :
    Watches actions { setup, files, view } s task i := by
  refine ⟨?_, fun _ _ _ => sees_of_hears hrun begun, fun _ _ _ _ => looks_of_hears begun,
    fun _ => found_iff_of_told hrun begun, ?_, ?_, ?_, ended_of_told hrun, mayGoOn_of_run hrun begun⟩
  · obtain ⟨t, here, stand⟩ := stand_of_run hrun begun
    obtain ⟨found, beginning, whole⟩ := stand.course
    refine ⟨found, beginning, fun r result => ?_⟩
    simp only [result?, here, Option.map_some] at result
    split at result
    · next r' done => exact whole r' (Option.some.inj done)
    · contradiction
  · intro past d d' hears
    obtain ⟨before, course, -, moment⟩ := watcherAt_of_hears hears begun
    obtain ⟨s₁, program, replied, rfl⟩ := hears.reply rfl (by simp)
    obtain ⟨rfl, -⟩ := Prod.mk.inj (Option.some.inj replied)
    exact ⟨moment.slot_of_halt, moment.slot_of_halt, rfl⟩
  · intro past d d' hears
    obtain ⟨before, course, -, moment⟩ := watcherAt_of_hears hears begun
    obtain ⟨s₁, program, replied, rfl⟩ := hears.reply rfl (by simp)
    obtain ⟨rfl, -⟩ := Prod.mk.inj (Option.some.inj replied)
    exact ⟨moment.slot_of_vacate, rfl⟩
  · intro past d d' hears
    obtain ⟨s₁, program, replied, rfl⟩ := hears.reply rfl (by simp)
    obtain ⟨rfl, -⟩ := Prod.mk.inj (Option.some.inj replied)
    rfl

/-- **A server that exits by itself is reported once, and no other is.** Whatever starts,
restarts and stops there were, and whenever servers closed their output:

* no server has two watchers, so what a watcher tells the user is told once for its server;
* a server that was put into the slot is watched, or the start that put it there comes to
  that, also if its output ends in the meantime;
* a watcher waits for the connection to be closed and looks once. If its server is the
  current one at that moment, it sets the state to stopped, empties the slot, tells the user
  and ends the process, in this order; if not, it does nothing more;
* it finds its server exactly when no restart and no stop ever takes it out of the slot;
* while it sets the state and empties the slot, its own server is in it, so it does neither to
  a newer one;
* it can always go on, unless its server has not exited, or another watcher goes first. -/
theorem exits_reported_once (hrun : run actions { setup, files, view } = some s) :
    let start : Session := { setup, files, view }
    (watched actions start).Nodup ∧
    (∀ i previous, .filled i previous ∈ history actions start →
      i ∈ watched actions start ∨ ∃ task, WillAsk s task (.watch i)) ∧
    ∀ task i : Nat, (origins actions start)[task]? = some (.watcher i) →
      Watches actions start s task i :=
  ⟨watched_nodup hrun, fun _ _ filled => watched_or_coming hrun filled,
    fun _ _ begun => watches_of_run hrun begun⟩

/-- A server exits while its start sends it the settings. Its watcher, begun after that,
takes all its steps. -/
def lostAndBuried : List Action :=
  servedThenLost ++ [.advance 1, .advance 1, .advance 1, .terminated 1, .advance 1]

/-- `exits_reported_once` where a server exits before it is watched: it is reported all the
same. -/
theorem exits_reported_once_early :
    ∃ s, run lostAndBuried { setup := bareSetup } = some s ∧ s.state = .stopped ∧ s.slot = none ∧
      dialogue 1 lostAndBuried { setup := bareSetup } = watchCourse 0 true ∧
      Watches lostAndBuried { setup := bareSetup } s 1 0 := by
  have ended : ((run lostAndBuried { setup := bareSetup }).any fun s =>
      s.state = .stopped ∧ s.slot = none ∧ (s.result? 1).isSome = true) = true := by decide +kernel
  have watches : (origins lostAndBuried { setup := bareSetup })[1]?.bind Origin.watched? = some 0 := by
    decide +kernel
  -- the course on which the server is found is the longer one
  have told : (dialogue 1 lostAndBuried { setup := bareSetup }).length = 8 := by decide +kernel
  obtain ⟨s, hrun, stopped⟩ := (Option.any_eq_true _ _).mp ended
  obtain ⟨stopped, empty, done⟩ := of_decide_eq_true stopped
  obtain ⟨r, done⟩ := Option.isSome_iff_exists.mp done
  have begun : (origins lostAndBuried { setup := bareSetup })[1]? = some (.watcher 0) := by
    obtain ⟨o, here, same⟩ := Option.bind_eq_some_iff.mp watches
    cases o with
    | watcher server => rw [here, Option.some.inj same]
    | job | request => contradiction
  obtain ⟨-, -, each⟩ := exits_reported_once hrun
  have mine := each 1 0 begun
  obtain ⟨found, -, whole⟩ := mine.course
  have course := whole r done
  refine ⟨s, hrun, stopped, empty, ?_, mine⟩
  cases found with
  | true => exact course
  | false =>
    rw [course] at told
    contradiction

end EmberClient.Session
