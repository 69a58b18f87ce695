import EmberClient.Proofs.Session.Phase

/-!
# Every program keeps to its course

One lemma for each program of the client: from which phase on it keeps to its course,
and where that ends. `job_follows` and `handle_follows` cover what a session is made of.
-/

namespace EmberClient.Session

variable {setup : Setup} {α β : Type}

/-! ## Transitions -/

/-- Where an attempt to use a new server leads. -/
def Brought (server : Nat) : Except Fault Unit → Phase → Prop
  | .ok (), φ => φ = .advertised server
  | .error _, φ => φ = .failing

/-- Where the first request leads. -/
def Greeted (setup : Setup) (server : Nat) (answer : Except Fault Json) (φ : Phase) : Prop :=
  (∃ commands, Commanding setup answer commands ∧ φ = .greeted server commands) ∨
    ((∀ commands, ¬ Commanding setup answer commands) ∧ φ = .rejected server)

/-- The request for `initialize` keeps to the course, with the answer as the outcome. -/
theorem greet_follows (server : Nat) :
    Follows setup (Greeted setup server) (.up server)
      (request server "initialize" setup.initializeParams) := by
  unfold request
  refine follows_ask fun place => ⟨_, .greet place, ?_⟩
  intro answer
  by_cases good : ∃ commands, Commanding setup answer commands
  · obtain ⟨commands, h⟩ := good
    exact ⟨_, .accept h, Or.inl ⟨commands, h, rfl⟩⟩
  · have bad := not_exists.mp good
    exact ⟨_, .reject bad, Or.inr ⟨bad, rfl⟩⟩

/-- The handshake ends with the commands of the server noted, or in a failure. -/
theorem shakeHands_follows (server : Nat) :
    Follows setup (Brought server) (.up server) (Lifecycle.shakeHands setup server) := by
  unfold Lifecycle.shakeHands
  refine follows_bind (greet_follows server) ?_
  intro answer φ greeted
  have useless : ∀ fault, Follows setup (Brought server) (.rejected server)
      (do ask (.terminate server); ask (.discard server); return .error fault) := by
    intro fault
    exact follows_step (fun _ => .kill) fun _ => follows_step (fun _ => .forget) fun _ => rfl
  rcases greeted with ⟨commands, ⟨v, rfl, hv⟩, rfl⟩ | ⟨bad, rfl⟩
  · simp only [Except.bind, hv]
    refine follows_ask fun sent => ?_
    cases sent with
    | ok u => exact ⟨_, .introduce, follows_step (fun _ => .advertise) fun _ => rfl⟩
    | error fault => exact ⟨_, .unheard fault, follows_step (fun _ => .forget) fun _ => rfl⟩
  · cases answer with
    | error fault => exact useless fault
    | ok v =>
      cases hv : setup.commands? v with
      | some commands => exact absurd ⟨v, rfl, hv⟩ (bad commands)
      | none =>
        simp only [Except.bind, hv]
        exact useless _

/-- Bringing a server up ends in the launch refused, the handshake failed or the server up. -/
theorem bringUp_follows :
    Follows setup
      (fun result φ => match result with
        | .ok server => φ = .advertised server
        | .error _ => φ = .failing)
      .building (Lifecycle.bringUp setup) := by
  unfold Lifecycle.bringUp
  refine follows_ask fun handler => ⟨_, .build handler, ?_⟩
  refine follows_ask fun launched => ?_
  cases launched with
  | error fault => exact ⟨_, .unlaunched fault, rfl⟩
  | ok server =>
    refine ⟨_, .launched server, follows_bind (shakeHands_follows server) ?_⟩
    intro result φ brought
    cases result with
    | error fault => exact brought
    | ok u => exact brought

/-- A transition has come to its end: all is done, or nothing was, in this state. -/
def Over {α : Type} (_ : α) (φ : Phase) : Prop :=
  φ = .finishing ∨ ∃ again state, φ = .looked again state ∧
    (again = true → state ≠ .stopped ∧ state ≠ .restarting)

/-- The part of a start that runs under the lock keeps to the course from either place where the
state is looked at. -/
theorem startLocked_follows {φ : Phase} {again : Bool}
    (look : ∀ state, Phase.Step setup φ .state state (.looked again state)) :
    Follows setup Over φ (Lifecycle.startLocked setup) := by
  unfold Lifecycle.startLocked
  refine follows_ask fun state => ⟨_, look state, ?_⟩
  -- a start that finds another state looks and gives the lock back
  by_cases wrong : state ≠ .stopped ∧ state ≠ .restarting
  · rw [if_pos wrong]
    exact Or.inr ⟨again, state, rfl, fun _ => wrong⟩
  · rw [if_neg wrong]
    have right : state = .stopped ∨ state = .restarting := by
      by_cases h : state = .stopped
      · exact Or.inl h
      · exact Or.inr (Decidable.not_not.mp fun h' => wrong ⟨h, h'⟩)
    refine follows_step (fun _ => .start right) fun _ => ?_
    refine follows_step (fun _ => .load) fun _ => ?_
    refine follows_bind bringUp_follows ?_
    intro result φ' brought
    cases result with
    | error fault =>
      obtain rfl := brought
      refine follows_step (fun _ => .fail) fun _ => ?_
      exact follows_step (fun _ => .tellFailed) fun _ => Or.inl rfl
    | ok server =>
      obtain rfl := brought
      refine follows_step (fun _ => .publish) fun _ => ?_
      refine follows_step (fun _ => .ready) fun _ => ?_
      refine follows_ask fun place => ⟨_, .configure place, ?_⟩
      refine follows_ask fun answer => ⟨_, .configured answer, ?_⟩
      refine follows_step (fun _ => .tellReady) fun _ => ?_
      exact follows_step (fun _ => .watch) fun _ => Or.inl rfl

/-- Taking a server down leads to the place where its slot is vacant. -/
theorem shutDown_follows (again : Bool) (server : Nat) :
    Follows setup (fun _ φ => φ = .vacant again) (.shutting again server)
      (Lifecycle.shutDown server) := by
  unfold Lifecycle.shutDown
  refine follows_ask fun place => ⟨_, .bid place, ?_⟩
  refine follows_ask fun answer => ⟨_, .answered answer, ?_⟩
  refine follows_ask fun sent => ⟨_, .leave sent, ?_⟩
  refine follows_step (fun _ => .finish) fun _ => ?_
  exact fun _ => ⟨_, .letGo, rfl⟩

theorem shutDownCurrent_follows (again : Bool) :
    Follows setup (fun _ φ => φ = .vacant again) (if again then .restarting else .locked)
      Lifecycle.shutDownCurrent := by
  unfold Lifecycle.shutDownCurrent
  refine follows_ask fun slot => ?_
  cases again <;> cases slot with
  | none => first | exact ⟨_, .takeNone, rfl⟩ | exact ⟨_, .retakeNone, rfl⟩
  | some server =>
    first
    | exact ⟨_, .take, shutDown_follows _ server⟩
    | exact ⟨_, .retake, shutDown_follows _ server⟩

/-- Keeps to its course outside of transitions, whatever it knows, and ends there. -/
def Orderly (setup : Setup) {α : Type} (p : Prog α) : Prop :=
  ∀ known, Follows setup AtEase (.free known) p

/-- What follows its course under the lock is orderly with the lock around it. -/
theorem locked_orderly {p : Prog α} (h : Follows setup Over .locked p) :
    Orderly setup (Lifecycle.locked p) := by
  intro known
  unfold Lifecycle.locked
  refine follows_step (fun _ => .lock) fun _ => ?_
  refine follows_bind h ?_
  rintro a φ (rfl | ⟨again, state, rfl, h⟩)
  · exact follows_step (fun _ => .unlock) fun _ => ⟨[], rfl⟩
  · exact follows_step (fun _ => .refuse h) fun _ => ⟨[], rfl⟩

theorem start_orderly : Orderly setup (Lifecycle.start setup) :=
  locked_orderly (startLocked_follows .look)

/-- A restart is orderly: both halves run under one lock. -/
theorem restart_orderly : Orderly setup (Lifecycle.restart setup) := by
  refine locked_orderly (follows_ask fun state => ⟨_, .look state, ?_⟩)
  by_cases wrong : state ≠ .ready
  · rw [if_pos wrong]
    exact Or.inr ⟨false, state, rfl, fun h => absurd h (by simp)⟩
  · rw [if_neg wrong]
    obtain rfl := Decidable.not_not.mp wrong
    refine follows_step (fun _ => .restart) fun _ => ?_
    refine follows_bind (shutDownCurrent_follows true) ?_
    rintro _ _ rfl
    exact startLocked_follows .lookAgain

theorem stop_orderly : Orderly setup Lifecycle.stop := by
  refine locked_orderly (follows_bind (shutDownCurrent_follows false) ?_)
  rintro _ _ rfl
  exact fun _ => ⟨_, .stop, Or.inl rfl⟩

/-! ## Watchers -/

/-- The report of an exit follows the course of a watcher. -/
theorem reportExit_follows (server : Nat) :
    Follows setup AtEase (.reporting server) (Lifecycle.reportExit server) := by
  unfold Lifecycle.reportExit
  refine follows_step (fun _ => .report) fun _ => ?_
  refine follows_step (fun _ => .alarm) fun _ => ?_
  refine follows_step (fun _ => .bury) fun _ => ?_
  exact fun _ => ⟨_, .release, [], rfl⟩

/-- The watcher of a server follows its course to the end, whoever took the server away. -/
theorem watchExit_follows (server : Nat) :
    Follows setup AtEase (.watching server) (Lifecycle.watchExit server) := by
  unfold Lifecycle.watchExit
  refine follows_step (fun _ => .notice) fun _ => ?_
  refine follows_ask fun mine => ?_
  cases mine with
  | false => exact ⟨_, .unclaimed, [], rfl⟩
  | true =>
    refine ⟨_, .claim, ?_⟩
    refine follows_step (fun _ => .halt) fun _ => ?_
    exact follows_step (fun _ => .vacate) fun _ => reportExit_follows server

/-! ## Programs outside of transitions -/

theorem orderly_pure (a : α) : Orderly setup (pure a : Prog α) := fun known => ⟨known, rfl⟩

/-- Orderly programs in a row are orderly. -/
theorem orderly_bind {p : Prog α} {f : α → Prog β} (first : Orderly setup p)
    (rest : ∀ a, Orderly setup (f a)) : Orderly setup (p >>= f) := by
  intro known
  refine follows_bind (first known) ?_
  rintro a _ ⟨known', rfl⟩
  exact rest a known'

/-- A question that the course does not look at is orderly. -/
theorem orderly_ask {q : Question} (idle : isIdle q = true) : Orderly setup (ask q) :=
  fun known _ => ⟨_, .idle idle, known, rfl⟩

theorem orderly_run (name : String) (arguments : List Json) :
    Orderly setup (ask (.run name arguments)) :=
  fun _ outcome => ⟨_, .run outcome, [], rfl⟩

/-- A command is sent to a server that the task knows. -/
theorem execute_orderly {server : Nat} {known : List Nat} (mem : server ∈ known) (command : String)
    (arguments : List Json) :
    Follows setup AtEase (.free known) (Lifecycle.execute server command arguments) := by
  unfold Lifecycle.execute request
  refine follows_step (fun _ => .call mem) fun _ => ?_
  exact orderly_ask rfl known

/-- A command for the server asks who is current first, so it knows whom it talks to. -/
theorem executeOnServer_orderly (name : String) (arguments : List Json) :
    Orderly setup (Dispatch.executeOnServer name arguments) := by
  intro known
  unfold Dispatch.executeOnServer
  refine follows_ask fun slot => ⟨_, .current slot, ?_⟩
  cases slot with
  | none => exact ⟨_, rfl⟩
  | some server => exact execute_orderly (List.mem_cons_self ..) name arguments

theorem contain_orderly (outcome : Except Fault Unit) :
    Orderly setup (Dispatch.contain outcome) := by
  cases outcome with
  | ok u => exact orderly_pure ()
  | error fault => exact orderly_ask rfl

/-- Containing the failure of a program adds a report and nothing else. -/
theorem contained_orderly {p : Prog (Except Fault Unit)} (h : Orderly setup p) :
    Orderly setup (Dispatch.contained p) :=
  orderly_bind h fun outcome => orderly_bind (contain_orderly outcome) fun _ => orderly_pure _

/-- Whether a command is for a server is found out without forgetting the server. -/
theorem belongsTo_follows (server : Nat) (name : String) (known : List Nat) :
    Follows setup (fun _ φ => φ = .free known) (.free known) (Dispatch.belongsTo server name) := by
  unfold Dispatch.belongsTo
  split
  · exact rfl
  · exact follows_step (fun _ => .idle rfl) fun _ => rfl

/-- Both ways that a command can be routed are orderly. -/
theorem route_orderly (name : String) (arguments : List Json) :
    Orderly setup (Dispatch.route name arguments) := by
  intro known
  unfold Dispatch.route
  refine follows_ask fun slot => ⟨_, .current slot, ?_⟩
  cases slot with
  | none =>
    show Follows setup AtEase (.free known)
      (if Command.isServerOwned name then return .error .notRunning
        else ask (.editorCommand name arguments))
    split
    · exact ⟨known, rfl⟩
    · exact orderly_ask rfl known
  | some server =>
    refine follows_bind (belongsTo_follows server name _) ?_
    rintro belongs _ rfl
    cases belongs with
    | true => exact execute_orderly (List.mem_cons_self ..) name arguments
    | false => exact orderly_ask rfl _

theorem context_orderly : Orderly setup Dispatch.context :=
  orderly_bind (orderly_ask rfl) fun _ => orderly_pure _

theorem callBack_orderly (name : String) (arguments : List Json) :
    Orderly setup (Dispatch.callBack name arguments) :=
  orderly_bind (orderly_run name arguments) fun _ => orderly_pure _

theorem reloadProject_orderly : Orderly setup Dispatch.reloadProject := by
  refine orderly_bind (orderly_ask rfl) fun _ => ?_
  refine orderly_bind (executeOnServer_orderly _ _) fun outcome => ?_
  exact orderly_bind (orderly_ask rfl) fun _ => contain_orderly _

theorem runInCli_orderly (prefill : Option String) : Orderly setup (Dispatch.runInCli prefill) := by
  refine orderly_bind (orderly_ask rfl) fun typed => ?_
  cases typed with
  | error fault => exact orderly_pure _
  | ok input =>
    cases input with
    | none => exact orderly_pure _
    | some input =>
      show Orderly setup (if Text.isBlankText input then _ else _)
      split
      · exact orderly_pure _
      · refine orderly_bind context_orderly fun place => ?_
        exact orderly_bind (executeOnServer_orderly _ _) fun _ => orderly_pure _

theorem getUserInput_orderly (options : InputBoxOptions) (callback : String) (tail : Json) :
    Orderly setup (Dispatch.getUserInput options callback tail) := by
  refine orderly_bind (orderly_ask rfl) fun typed => ?_
  cases typed with
  | error fault => exact orderly_pure _
  | ok input => exact orderly_bind context_orderly fun place => callBack_orderly _ _

theorem proxyCommand_orderly (command : String) (arguments : List Json) (callback : String)
    (tail : Json) : Orderly setup (Dispatch.proxyCommand command arguments callback tail) := by
  refine orderly_bind (orderly_run command arguments) fun outcome => ?_
  cases outcome with
  | error fault => exact orderly_pure _
  | ok result => exact orderly_bind context_orderly fun place => callBack_orderly _ _

theorem askFile_orderly {γ : Type} (uri : String) {q : Text.Bytes → Prog (Except IoKind γ)}
    (encode : γ → Json) (h : ∀ path, Orderly setup (q path)) :
    Orderly setup (Dispatch.askFile uri q encode) := by
  unfold Dispatch.askFile
  cases Uri.toPath? uri with
  | none => exact orderly_pure _
  | some path =>
    refine orderly_bind (h path) fun found => ?_
    cases found with
    | ok a => exact orderly_pure _
    | error kind => exact orderly_pure _

theorem run_orderly (command : ClientCommand) : Orderly setup (Dispatch.run setup command) := by
  cases command with
  | reloadProject => exact orderly_bind reloadProject_orderly fun _ => orderly_pure _
  | restartServer => exact orderly_bind restart_orderly fun _ => orderly_pure _
  | runInCli prefill => exact contained_orderly (runInCli_orderly prefill)
  | getUserInput options callback tail =>
    exact contained_orderly (getUserInput_orderly options callback tail)
  | proxyCommand command arguments callback tail =>
    exact contained_orderly (proxyCommand_orderly command arguments callback tail)
  | openRelatedFile path => exact contained_orderly (orderly_ask rfl)
  | fileText uri =>
    exact orderly_bind (askFile_orderly uri _ fun _ => orderly_ask rfl) fun _ => orderly_pure _
  | fileStat uri =>
    exact orderly_bind (askFile_orderly uri _ fun _ => orderly_ask rfl) fun _ => orderly_pure _
  | directoryEntries uri =>
    exact orderly_bind (askFile_orderly uri _ fun _ => orderly_ask rfl) fun _ => orderly_pure _

/-- Dispatch is orderly for every name and every argument list. -/
theorem dispatch_orderly (name : String) (arguments : List Json) :
    Orderly setup (Dispatch.execute setup name arguments) := by
  unfold Dispatch.execute
  split
  · exact run_orderly _
  · exact route_orderly name arguments
  · split
    · exact orderly_bind (contain_orderly _) fun _ => orderly_pure _
    · split
      · exact orderly_pure _
      · exact orderly_pure _

/-- A view that asks for a list is orderly. -/
theorem list_orderly {γ : Type} (decode : Json → Option (List γ)) (command : String)
    (arguments : List Json) : Orderly setup (View.list decode command arguments) := by
  refine orderly_bind (executeOnServer_orderly command arguments) fun outcome => ?_
  cases outcome with
  | ok answer => exact orderly_pure _
  | error fault => exact orderly_pure _

/-- The code lenses of a document are orderly. -/
theorem lenses_orderly (document : String) : Orderly setup (View.lenses document) := by
  refine orderly_bind (list_orderly _ _ _) fun files => ?_
  refine orderly_bind (orderly_ask rfl) fun cancelled => ?_
  split
  · exact orderly_pure _
  · exact orderly_pure _

theorem kindUsages_orderly (document : String) : Orderly setup (View.kindUsages document) :=
  orderly_bind (list_orderly _ _ _) fun _ => orderly_pure _

theorem activate_orderly : Orderly setup (activate setup) := by
  refine orderly_bind (orderly_ask rfl) fun found => ?_
  split
  · refine orderly_bind (orderly_ask rfl) fun _ => ?_
    cases setup.settings.debugPort with
    | none => exact orderly_bind start_orderly fun _ => orderly_pure _
    | some port =>
      refine orderly_bind (orderly_ask rfl) fun _ => ?_
      exact orderly_bind start_orderly fun _ => orderly_pure _
  · exact orderly_pure _

/-- **Every job keeps to its course.** -/
theorem job_follows (job : Job) : Follows setup AtEase (.free []) (job.program setup) := by
  have wrapped {γ : Type} {p : Prog γ} (h : Orderly setup p) (f : γ → Result) :
      Orderly setup (do return f (← p)) := orderly_bind h fun _ => orderly_pure _
  suffices Orderly setup (job.program setup) from this []
  cases job with
  | activate => exact wrapped activate_orderly _
  | start => exact wrapped start_orderly _
  | restart => exact wrapped restart_orderly _
  | stop => exact wrapped stop_orderly fun _ => .outcome (.ok .null)
  | execute name arguments => exact wrapped (dispatch_orderly name arguments) _
  | executeOnServer name arguments => exact wrapped (executeOnServer_orderly name arguments) _
  | lenses document => exact wrapped (lenses_orderly document) _
  | relatedFiles document =>
    exact wrapped (orderly_bind (list_orderly _ _ _) fun _ => orderly_pure _) _
  | kindUsages document => exact wrapped (kindUsages_orderly document) _
  | children follower =>
    refine wrapped ?_ _
    unfold View.Follower.children
    split
    · exact kindUsages_orderly _
    · exact orderly_pure _

/-- The answer to a request of the server is orderly, whatever the method. -/
theorem answer_orderly (method : String) (params : Json) :
    Orderly setup (Handler.answer setup method params) := by
  unfold Handler.answer
  split
  · split
    · exact orderly_pure _
    · refine orderly_bind (orderly_run _ _) fun outcome => ?_
      cases outcome with
      | ok v => exact orderly_pure _
      | error fault => exact orderly_pure _
  · split
    · split
      · exact orderly_pure _
      · exact orderly_pure _
    · split
      · exact orderly_pure _
      · exact orderly_pure _

/-- Whoever serves a request of a server keeps to the course. -/
theorem handle_follows (server place : Nat) (method : String) (params : Json) :
    Follows setup AtEase (.free []) (Handler.handle setup server place method params) := by
  have orderly : Orderly setup (Handler.handle setup server place method params) :=
    orderly_bind (answer_orderly method params) fun _ => orderly_ask rfl
  exact orderly []

end EmberClient.Session
