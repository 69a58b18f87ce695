import EmberClient.Session.Job

/-!
# What a program may do next

A program of a session is free until it holds the lock on transitions; from then on
its course is laid down: what it looks at, which server it brings up, which one it
shuts down, in which order. A watcher has a course of its own. A `Phase` says how far
along a program is, and `Phase.Step` which questions it may ask there and where each
reply takes it.

`Follows` says that a program keeps to its course whatever it is replied. It is shown
once for every program of the client, so that what is proved about a session needs
the phases only, not the programs.
-/

namespace EmberClient.Session

/-- How far along a program is. -/
inductive Phase where
  /-- In no transition. It has found these servers in the slot. -/
  | free (known : List Nat)
  /-- It holds the lock and has done nothing yet. -/
  | locked
  /-- It has seen this state, perhaps for the second time. -/
  | looked (again : Bool) (state : ServerState)
  -- Bringing a server up
  | starting
  | building
  /-- The handler for the requests of the server is built. -/
  | launching (handler : Nat)
  /-- The server has come up. -/
  | up (server : Nat)
  /-- The first request is at this place. -/
  | greeting (server place : Nat)
  /-- The answer to it was good. -/
  | greeted (server : Nat) (commands : List String)
  /-- The answer to it was not. -/
  | rejected (server : Nat)
  /-- The server is of no use. -/
  | ended (server : Nat)
  | introduced (server : Nat) (commands : List String)
  | advertised (server : Nat)
  | failing
  | failed
  -- The server is in the slot, and not watched yet
  | published (server : Nat)
  | serving (server : Nat)
  /-- The settings are sent, at this place. -/
  | configuring (server place : Nat)
  | configured (server : Nat)
  | shown (server : Nat)
  -- Taking a server down, in a restart (`again`) or a stop
  | restarting
  | shutting (again : Bool) (server : Nat)
  | bidding (again : Bool) (server place : Nat)
  | leaving (again : Bool) (server : Nat)
  | left (again : Bool) (server : Nat)
  | gone (again : Bool) (server : Nat)
  | vacant (again : Bool)
  /-- All is done but giving the lock back. -/
  | finishing
  -- Watching a server
  | watching (server : Nat)
  | noticed (server : Nat)
  /-- It has claimed the slot. -/
  | holding (server : Nat)
  | stopping (server : Nat)
  | reporting (server : Nat)
  | alarmed (server : Nat)
  | burying (server : Nat)
  | buried (server : Nat)

/-- The answer to the first request that a server may be used with. -/
def Commanding (setup : Setup) (answer : Except Fault Json) (commands : List String) : Prop :=
  ∃ v, answer = .ok v ∧ setup.commands? v = some commands

/-- Questions that a program may ask at any time outside of transitions. -/
def isIdle : Question → Bool
  | .await .. | .commands _ | .cancelled | .view | .prompt _ | .openFile _ | .editorCommand ..
  | .content _ | .stat _ | .entries _ | .projectKind _ | .status .. | .showError _
  | .respond .. => true
  | _ => false

/-- Which questions a program may ask in a phase, and where a reply takes it. -/
inductive Phase.Step (setup : Setup) : Phase → (q : Question) → q.Reply → Phase → Prop where
  | idle {known : List Nat} {q : Question} {r : q.Reply} (h : isIdle q = true) :
    Step setup (.free known) q r (.free known)
  | current {known : List Nat} (slot : Option Nat) :
    Step setup (.free known) .current slot (.free (slot.toList ++ known))
  | call {known : List Nat} {server place : Nat} {params : Json} (mem : server ∈ known) :
    Step setup (.free known) (.call server Connection.executeMethod params) place (.free known)
  /-- What it runs by name may end in any knowledge. -/
  | run {known : List Nat} {name : String} {arguments : List Json} (outcome : Except Fault Json) :
    Step setup (.free known) (.run name arguments) outcome (.free [])
  | lock {known : List Nat} : Step setup (.free known) .lock () .locked
  | look (state : ServerState) : Step setup .locked .state state (.looked false state)
  | refuse {again : Bool} {state : ServerState}
      (h : again = true → state ≠ .stopped ∧ state ≠ .restarting) :
    Step setup (.looked again state) .unlock () (.free [])
  | start {again : Bool} {state : ServerState} (h : state = .stopped ∨ state = .restarting) :
    Step setup (.looked again state) (.setState .starting) () .starting
  | load :
    Step setup .starting (.status StatusItem.main (StatusItem.text StatusItem.loading)) ()
      .building
  | build (handler : Nat) : Step setup .building .buildHandler handler (.launching handler)
  | launched {handler : Nat} (server : Nat) :
    Step setup (.launching handler) (.launch handler) (.ok server) (.up server)
  | unlaunched {handler : Nat} (fault : Fault) :
    Step setup (.launching handler) (.launch handler) (.error fault) .failing
  | greet {server : Nat} (place : Nat) :
    Step setup (.up server) (.call server "initialize" setup.initializeParams) place
      (.greeting server place)
  | accept {server place : Nat} {answer : Except Fault Json} {commands : List String}
      (h : Commanding setup answer commands) :
    Step setup (.greeting server place) (.await server place) answer (.greeted server commands)
  | reject {server place : Nat} {answer : Except Fault Json}
      (h : ∀ commands, ¬ Commanding setup answer commands) :
    Step setup (.greeting server place) (.await server place) answer (.rejected server)
  | kill {server : Nat} : Step setup (.rejected server) (.terminate server) () (.ended server)
  | forget {server : Nat} : Step setup (.ended server) (.discard server) () .failing
  | introduce {server : Nat} {commands : List String} :
    Step setup (.greeted server commands) (.notify server "initialized" (.obj [])) (.ok ())
      (.introduced server commands)
  | unheard {server : Nat} {commands : List String} (fault : Fault) :
    Step setup (.greeted server commands) (.notify server "initialized" (.obj [])) (.error fault)
      (.ended server)
  | advertise {server : Nat} {commands : List String} :
    Step setup (.introduced server commands) (.advertise server commands) () (.advertised server)
  | fail : Step setup .failing (.setState .stopped) () .failed
  | tellFailed :
    Step setup .failed (.status StatusItem.main (StatusItem.text StatusItem.noServer)) () .finishing
  | publish {server : Nat} :
    Step setup (.advertised server) (.setCurrent server) () (.published server)
  | ready {server : Nat} : Step setup (.published server) (.setState .ready) () (.serving server)
  | configure {server : Nat} (place : Nat) :
    Step setup (.serving server)
      (.call server Connection.executeMethod
        (Connection.executeParams Command.setConfig [setup.settings.toJson]))
      place (.configuring server place)
  | configured {server place : Nat} (answer : Except Fault Json) :
    Step setup (.configuring server place) (.await server place) answer (.configured server)
  | tellReady {server : Nat} :
    Step setup (.configured server)
      (.status StatusItem.main (StatusItem.text StatusItem.ready)) () (.shown server)
  | watch {server : Nat} : Step setup (.shown server) (.watch server) () .finishing
  | restart : Step setup (.looked false .ready) (.setState .restarting) () .restarting
  | take {server : Nat} :
    Step setup .locked .takeCurrent (some server) (.shutting false server)
  | takeNone : Step setup .locked .takeCurrent none (.vacant false)
  | retake {server : Nat} :
    Step setup .restarting .takeCurrent (some server) (.shutting true server)
  | retakeNone : Step setup .restarting .takeCurrent none (.vacant true)
  | bid {again : Bool} {server : Nat} (place : Nat) :
    Step setup (.shutting again server) (.call server "shutdown" .null) place
      (.bidding again server place)
  | answered {again : Bool} {server place : Nat} (answer : Option (Except Fault Json)) :
    Step setup (.bidding again server place) (.awaitBriefly server place) answer
      (.leaving again server)
  | leave {again : Bool} {server : Nat} (sent : Except Fault Unit) :
    Step setup (.leaving again server) (.notify server "exit" .null) sent (.left again server)
  | finish {again : Bool} {server : Nat} :
    Step setup (.left again server) (.terminate server) () (.gone again server)
  | letGo {again : Bool} {server : Nat} :
    Step setup (.gone again server) (.discard server) () (.vacant again)
  | lookAgain (state : ServerState) : Step setup (.vacant true) .state state (.looked true state)
  | stop : Step setup (.vacant false) (.setState .stopped) () .finishing
  | unlock : Step setup .finishing .unlock () (.free [])
  | notice {server : Nat} : Step setup (.watching server) (.closed server) () (.noticed server)
  | claim {server : Nat} : Step setup (.noticed server) (.claim server) true (.holding server)
  | unclaimed {server : Nat} : Step setup (.noticed server) (.claim server) false (.free [])
  | halt {server : Nat} :
    Step setup (.holding server) (.setState .stopped) () (.stopping server)
  | vacate {server : Nat} : Step setup (.stopping server) .vacate () (.reporting server)
  | report {server : Nat} :
    Step setup (.reporting server)
      (.status StatusItem.main (StatusItem.text StatusItem.noServer)) () (.alarmed server)
  | alarm {server : Nat} :
    Step setup (.alarmed server) (.showError Lifecycle.exitMessage) () (.burying server)
  | bury {server : Nat} : Step setup (.burying server) (.terminate server) () (.buried server)
  | release {server : Nat} : Step setup (.buried server) (.discard server) () (.free [])

/-! ## Programs that keep to their course -/

/-- Whatever it is replied, the program keeps to its course from this phase on, and
ends with a result and in a phase that are so related. -/
def Follows (setup : Setup) {α : Type} (P : α → Phase → Prop) : Phase → Prog α → Prop
  | φ, .done a => P a φ
  | φ, .ask q next => ∀ r, ∃ φ', Phase.Step setup φ q r φ' ∧ Follows setup P φ' (next r)

variable {setup : Setup} {α β : Type} {P : α → Phase → Prop} {R : β → Phase → Prop} {φ : Phase}

theorem follows_bind {p : Prog α} {f : α → Prog β} (first : Follows setup P φ p)
    (rest : ∀ a φ', P a φ' → Follows setup R φ' (f a)) : Follows setup R φ (p >>= f) := by
  induction p generalizing φ with
  | done a => exact rest a φ first
  | ask q next ih =>
    intro r
    obtain ⟨φ', step, follows⟩ := first r
    exact ⟨φ', step, ih r follows⟩

/-- One question, each reply of which takes the program where it goes on. -/
theorem follows_ask {q : Question} {f : q.Reply → Prog β}
    (h : ∀ r, ∃ φ', Phase.Step setup φ q r φ' ∧ Follows setup R φ' (f r)) :
    Follows setup R φ (ask q >>= f) := h

/-- One question with a reply that says nothing. -/
theorem follows_step {q : Question} {f : q.Reply → Prog β} {φ' : Phase}
    (step : ∀ r, Phase.Step setup φ q r φ') (rest : ∀ r, Follows setup R φ' (f r)) :
    Follows setup R φ (ask q >>= f) :=
  fun r => ⟨φ', step r, rest r⟩

/-- In no transition. -/
def AtEase {α : Type} (_ : α) (φ : Phase) : Prop := ∃ known, φ = .free known

/-- Who knows more servers may do all that it might have done before. -/
theorem follows_widen {p : Prog α} {known more : List Nat}
    (h : Follows setup AtEase (.free known) p) (sub : known ⊆ more) :
    Follows setup AtEase (.free more) p := by
  -- along the program, until it comes into a transition or hands over to a command
  induction p generalizing known more with
  | done a => exact ⟨more, rfl⟩
  | ask q next ih =>
    intro r
    obtain ⟨φ', step, follows⟩ := h r
    cases step with
    | idle idle => exact ⟨_, .idle idle, ih r follows sub⟩
    | current slot =>
      refine ⟨_, .current slot, ih slot follows ?_⟩
      intro server mem
      rcases List.mem_append.mp mem with new | old
      · exact List.mem_append_left _ new
      · exact List.mem_append_right _ (sub old)
    | call mem => exact ⟨_, .call (sub mem), ih _ follows sub⟩
    | run outcome => exact ⟨_, .run outcome, follows⟩
    | lock => exact ⟨_, .lock, follows⟩

end EmberClient.Session
