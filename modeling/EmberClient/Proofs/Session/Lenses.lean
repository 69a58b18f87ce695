import EmberClient.Proofs.RelatedFile.Decoding
import EmberClient.Proofs.Session.Exits
import EmberClient.Proofs.Session.Generations

/-!
# From any server answer to lenses

Whoever wants the lenses of a document looks up the current server, calls it, waits for what
comes of the call, and asks whether anybody still needs the lenses. `Stand` lists these
places, with what was told so far. Nothing that the server does changes the way: an answer
of any shape and a call of any failure lead from the same place to the same one
(`Stand.next`). What differs is the list of lenses that is made of it, and that follows from
how the answer is read (`offers`).

> `lenses_of_any_answer`: one lens for each element of a list whose elements all name paths,
> unless there is one only, and none for anything else; it never fails and shows nothing.
-/

namespace EmberClient.Session

open RelatedFile

variable {setup : Setup} {files : FileSystem} {view : EditorView} {actions : List Action}
  {s : Session} {task : Nat} {document : String} {said : List Exchange} {p : Prog Result}

namespace Provider

/-! ## What is asked for -/

/-- The call for the files that are related to a document. -/
def fetchParams (document : String) : Json :=
  Connection.executeParams Command.getRelatedFiles
    [.str document, .object [("includeMeta", .bool true)]]

/-- What comes of fetching the files of a document, with the dialogue in which it does. -/
inductive Fetched (document : String) : List Exchange → Except Fault Json → Prop where
  /-- There is no server. -/
  | nobody : Fetched document [⟨.current, none⟩] (.error .notRunning)
  /-- The call came to this, be it an answer or a failure. -/
  | answered (server place : Nat) (outcome : Except Fault Json) :
    Fetched document
      [⟨.current, some server⟩, ⟨.call server Connection.executeMethod (fetchParams document), place⟩,
        ⟨.await server place, outcome⟩] outcome

/-- The lenses that are made of what came. -/
def offered (document : String) : Except Fault Json → List Lens
  | .ok answer => Lens.ofRelatedFiles document ((listOfJson? answer).getD [])
  | .error _ => Lens.ofRelatedFiles document []

/-! ## The course of a request for lenses -/

def finish (document : String) (outcome : Except Fault Json) : Prog Result :=
  .ask .cancelled fun cancelled =>
    .done (.lenses (if cancelled then none else some (offered document outcome)))

def wait (document : String) (server place : Nat) : Prog Result :=
  .ask (.await server place) (finish document)

def call (document : String) (server : Nat) : Prog Result :=
  .ask (.call server Connection.executeMethod (fetchParams document)) (wait document server)

def look (document : String) : Prog Result :=
  .ask .current fun
    | none => finish document (.error .notRunning)
    | some server => call document server

/-- A request for lenses is begun with what is left when nothing has been done. -/
theorem program_eq : (Origin.job (.lenses document)).program setup = look document := by
  refine congrArg (Program.ask Question.current) (funext fun slot => ?_)
  cases slot with
  | none =>
    refine congrArg (Program.ask Question.cancelled) (funext fun cancelled => ?_)
    cases cancelled <;> rfl
  | some server =>
    refine congrArg (Program.ask _) (funext fun place => ?_)
    refine congrArg (Program.ask _) (funext fun outcome => ?_)
    cases outcome with
    | ok | error =>
      refine congrArg (Program.ask Question.cancelled) (funext fun cancelled => ?_)
      cases cancelled <;> rfl

/-- Where a request for lenses can be: what it was told, and what it goes on with. -/
inductive Stand (document : String) : List Exchange → Prog Result → Prop where
  | looking : Stand document [] (look document)
  | calling (server : Nat) : Stand document [⟨.current, some server⟩] (call document server)
  | waiting (server place : Nat) :
    Stand document
      [⟨.current, some server⟩, ⟨.call server Connection.executeMethod (fetchParams document), place⟩]
      (wait document server place)
  | finishing {said : List Exchange} {outcome : Except Fault Json}
      (fetched : Fetched document said outcome) : Stand document said (finish document outcome)
  | done {said : List Exchange} {outcome : Except Fault Json} (fetched : Fetched document said outcome)
      (cancelled : Bool) :
    Stand document (said ++ [⟨.cancelled, cancelled⟩])
      (.done (.lenses (if cancelled then none else some (offered document outcome))))

/-- Each reply takes a request from one stand to the next. -/
theorem Stand.next {q : Question} {next : q.Reply → Prog Result} (stand : Stand document said p)
    (question : p = .ask q next) (r : q.Reply) : Stand document (said ++ [⟨q, r⟩]) (next r) := by
  cases stand with
  | done => contradiction
  | looking =>
    obtain ⟨rfl, same⟩ := Program.ask.inj question
    obtain rfl := eq_of_heq same
    cases r with
    | none => exact .finishing .nobody
    | some server => exact .calling server
  | calling server =>
    obtain ⟨rfl, same⟩ := Program.ask.inj question
    obtain rfl := eq_of_heq same
    exact .waiting server r
  | waiting server place =>
    obtain ⟨rfl, same⟩ := Program.ask.inj question
    obtain rfl := eq_of_heq same
    exact .finishing (.answered server place r)
  | finishing fetched =>
    obtain ⟨rfl, same⟩ := Program.ask.inj question
    obtain rfl := eq_of_heq same
    exact .done fetched r

/-- Wherever the lenses of a document lead, they lead to one of the places listed. -/
theorem stand_of_leads (leads : Leads setup (look document) said p) : Stand document said p := by
  induction leads with
  | nothing => exact .looking
  | told before plain r ih => exact ih.next rfl r
  | runs before ih =>
    -- lenses run no commands
    generalize question : Program.ask _ _ = p at ih
    cases ih with
    | done => contradiction
    | _ => exact absurd (Program.ask.inj question).1 (by simp)

/-- Every way of fetching leads to the lenses of what was fetched. -/
theorem leads_of_fetched {outcome : Except Fault Json} (fetched : Fetched document said outcome) :
    Leads setup (look document) said (finish document outcome) := by
  have begins : Leads setup (look document) [] (look document) := .nothing
  cases fetched with
  | nobody => exact begins.told rfl none
  | answered server place =>
    have calls : Leads setup (look document) [⟨.current, some server⟩] (call document server) :=
      begins.told rfl (some server)
    exact (calls.told rfl place).told rfl outcome

/-- What a request comes to in this dialogue. -/
inductive Comes (document : String) : List Exchange → Result → Prop where
  | cancelled {said : List Exchange} {outcome : Except Fault Json}
      (fetched : Fetched document said outcome) :
    Comes document (said ++ [⟨.cancelled, true⟩]) (.lenses none)
  | offered {said : List Exchange} {outcome : Except Fault Json}
      (fetched : Fetched document said outcome) :
    Comes document (said ++ [⟨.cancelled, false⟩]) (.lenses (some (offered document outcome)))

/-- A request for lenses that is over has come to one of its ends. -/
theorem Stand.comes {r : Result} (stand : Stand document said (.done r)) : Comes document said r := by
  generalize same : Program.done r = p at stand
  cases stand with
  | done fetched cancelled =>
    obtain rfl := Program.done.inj same
    cases cancelled with
    | true => exact .cancelled fetched
    | false => exact .offered fetched
  | _ => exact absurd same (by simp [look, call, wait, finish])

/-- A request comes to just these results: to one of them whatever is fetched. -/
theorem gives_iff {r : Result} :
    Gives setup ((Origin.job (.lenses document)).program setup) said r ↔ Comes document said r := by
  rw [program_eq]
  constructor
  · intro gives
    exact (stand_of_leads gives).comes
  · intro comes
    cases comes with
    | cancelled fetched => exact (leads_of_fetched fetched).told rfl true
    | offered fetched => exact (leads_of_fetched fetched).told rfl false

/-! ## What is offered -/

/-- The lenses that a document gets when the call for its files comes to this. -/
structure Offers (outcome : Except Fault Json) (lenses : List Lens) : Prop where
  /-- One lens for each element, in order, with its path. -/
  paths : ∀ items, outcome = .ok (.arr items) → (∀ item ∈ items, (namedPath? item).isSome = true) →
    items.length ≠ 1 → lenses.map (fun lens => some lens.path) = items.map namedPath?
  tooltips : ∀ lens ∈ lenses, lens.tooltip = "Ember: " ++ lens.path
  alone : ∀ item, outcome = .ok (.arr [item]) → lenses = []
  /-- Anything but a list whose elements name paths is as good as nothing. -/
  otherwise : (¬∃ items, outcome = .ok (.arr items) ∧
    ∀ item ∈ items, (namedPath? item).isSome = true) → lenses = []

/-- An answer that is no list offers nothing. -/
theorem offered_of_unread {answer : Json} (unread : listOfJson? answer = none) :
    offered document (.ok answer) = [] := by
  rw [offered, unread]
  rfl

/-- What is offered is one entry for each element of the answer, in order. -/
theorem offers (document : String) (outcome : Except Fault Json) :
    Offers outcome (offered document outcome) := by
  -- what is no list of named files offers nothing, and the parts below need it too
  have otherwise : (¬∃ items, outcome = .ok (.arr items) ∧
      ∀ item ∈ items, (namedPath? item).isSome = true) → offered document outcome = [] := by
    intro unfit
    cases outcome with
    | error fault => rfl
    | ok answer =>
      refine offered_of_unread (listOfJson?_unnamed ?_)
      rintro ⟨items, rfl, named⟩
      exact unfit ⟨items, rfl, named⟩
  refine ⟨?_, ?_, ?_, otherwise⟩
  · rintro items rfl named several
    obtain ⟨files, reading⟩ := exists_reading named
    have many : files.length ≠ 1 := by
      have lengths := congrArg List.length reading.paths
      simp only [List.length_map] at lengths
      rwa [lengths]
    rw [← reading.paths, offered, reading.read, Option.getD_some]
    have paths : (Lens.ofRelatedFiles document files).map Lens.path = files.map RelatedFile.path :=
      Lens.map_path_ofRelatedFiles many
    have each := congrArg (List.map some) paths
    rwa [List.map_map, List.map_map] at each
  · intro lens member
    cases outcome with
    | ok => exact Lens.tooltip_of_mem member
    | error => exact Lens.tooltip_of_mem member
  · rintro item rfl
    by_cases named : (namedPath? item).isSome = true
    · have all : ∀ i ∈ [item], (namedPath? i).isSome = true := by simpa using named
      obtain ⟨files, reading⟩ := exists_reading all
      have one := congrArg List.length reading.paths
      rw [offered, reading.read]
      exact Lens.ofRelatedFiles_of_one (by simpa using one)
    · refine otherwise ?_
      rintro ⟨items, same, all⟩
      obtain rfl := Json.arr.inj (Except.ok.inj same)
      exact named (all item List.mem_cons_self)

end Provider

open Provider

/-! ## In every run -/

/-- Questions that fetch something and tell nobody outside. -/
def Question.fetches : Question → Bool
  | .current | .call .. | .await .. | .cancelled => true
  | _ => false

/-- What a request for the lenses of a document does. -/
structure Provides (actions : List Action) (start s : Session) (task : Nat) (document : String) :
    Prop where
  result : ∀ r, s.result? task = some r → Comes document (dialogue task actions start) r
  /-- It shows nothing, and asks nothing of the editor. -/
  silent : ∀ e ∈ dialogue task actions start, e.question.fetches = true
  /-- It comes to a result, unless the server does not answer. The slot may be claimed by a
  watcher in the meantime, which can go on then. -/
  goesOn : (∃ r, s.result? task = some r) ∨ (s.step (.advance task)).isSome = true ∨
    (∃ watcher, s.question? task = some .current ∧ s.claimant = some watcher ∧
      (s.step (.advance watcher)).isSome = true) ∨
    ∃ server place c, s.question? task = some (.await server place) ∧
      s.connection? server = some c ∧ c.result? place = none

/-- On the way only the server is asked, and nothing is shown. -/
theorem Provider.Stand.fetches (stand : Stand document said p) :
    ∀ e ∈ said, e.question.fetches = true := by
  have fetched : ∀ {said : List Exchange} {outcome : Except Fault Json},
      Fetched document said outcome → ∀ e ∈ said, e.question.fetches = true := by
    intro said outcome fetched
    cases fetched <;> simp [Question.fetches]
  cases stand with
  | looking | calling | waiting => simp [Question.fetches]
  | finishing done => exact fetched done
  | done done =>
    intro e member
    rcases List.mem_append.mp member with before | last
    · exact fetched done e before
    · obtain rfl := List.mem_singleton.mp last
      rfl

/-- A server that somebody called is up. -/
theorem up_of_called (hrun : run actions { setup, files, view } = some s) {server place : Nat}
    {method : String} {params : Json}
    (called : ⟨.call server method params, place⟩ ∈ dialogue task actions { setup, files, view }) :
    Up s server := by
  obtain ⟨inTransition, happened⟩ := called_of_dialogue hrun called
  have mem : ⟨place, method, params⟩ ∈ callsTo server (history actions { setup, files, view }) :=
    List.mem_filterMap.mpr ⟨_, happened, by simp [callTo?]⟩
  cases conn : s.connection? server with
  | none =>
    rw [(placed_of_run hrun server).absent conn] at mem
    contradiction
  | some c => exact ⟨c, conn⟩

/-- In every run each request for lenses stands at one of its places and can get to the end. -/
theorem provides_of_run (hrun : run actions { setup, files, view } = some s)
    (begun : (origins actions { setup, files, view })[task]? = some (.job (.lenses document))) :
    Provides actions { setup, files, view } s task document := by
  obtain ⟨t, here, leads⟩ := task_of_begun rfl hrun begun
  rw [program_eq] at leads
  have stand := stand_of_leads leads
  refine ⟨fun r result => gives_iff.mp (gives_of_result rfl hrun begun result), stand.fetches, ?_⟩
  generalize question : t.program = p at stand
  generalize dialogue : dialogue task actions { setup, files, view } = said at stand
  -- what the task is at tells what it waits for
  cases stand with
  | looking =>
    cases claimant : s.claimant with
    | none =>
      refine .inr (.inl (step_of_ready here question (.inr ?_)))
      simp [reply, claimant]
    | some watcher =>
      have goes := step_of_claimant hrun claimant
      exact .inr (.inr (.inl ⟨watcher, question?_of here question, rfl, goes⟩))
  | calling | finishing =>
    exact .inr (.inl (step_of_ready here question (.inr rfl)))
  | waiting server place =>
    obtain ⟨c, conn⟩ := up_of_called hrun (dialogue ▸ List.mem_cons_of_mem _ List.mem_cons_self)
    cases outcome : c.result? place with
    | none => exact .inr (.inr (.inr ⟨server, place, c, question?_of here question, conn, outcome⟩))
    | some r =>
      refine .inr (.inl (step_of_ready here question (.inr ?_)))
      simp [reply, conn, outcome]
  | done =>
    refine .inl (Option.isSome_iff_exists.mp ?_)
    rw [result?, here, Option.map_some, question]
    rfl

/-- **From any server answer to lenses.** Whatever the call for the files of a document comes
to, and whatever else is under way:

* where every element of a list is a text or an object with a text `path`, there is a file for
  each, in order, and it is structured just if the element has a meta that is understood;
  another meta makes a difference to the file of its own element only;
* there is one lens for each element then, in order, with its path, but none for a list of one
  element; for any other answer and for a call that failed there are no lenses;
* a request comes to such lenses whatever was fetched, or to nothing if it was cancelled in the
  meantime, and to nothing else;
* so in every run: it shows nothing, and goes on until it has come to that. -/
theorem lenses_of_any_answer (hrun : run actions { setup, files, view } = some s) :
    (∀ items, (∀ item ∈ items, (namedPath? item).isSome = true) → ∃ files, Reading items files) ∧
    (∀ document outcome, Offers outcome (offered document outcome)) ∧
    (∀ document said r, Gives setup ((Origin.job (.lenses document)).program setup) said r ↔
      Comes document said r) ∧
    ∀ task document : _, (origins actions { setup, files, view })[task]? =
      some (.job (.lenses document)) → Provides actions { setup, files, view } s task document :=
  ⟨fun _ named => exists_reading named, offers, fun _ _ _ => gives_iff,
    fun _ _ begun => provides_of_run hrun begun⟩

/-- What a server may say about three files: of the first what it is, of the second something
that is not understood, and of the third nothing. -/
def mixedItems : List Json := [
  .obj [("meta", (FileMeta.mk .route "foo" .application .script).toJson), ("path", .str "/app/a.js")],
  .obj [("meta", .obj [("type", .str "resource")]), ("path", .str "/app/b.js")],
  .str "/app/c.js"]

/-- The lenses of a document are asked for, and the server answers. -/
def lensesServed : List Action :=
  List.flatten [inFlight, [.begin (.lenses "/app/a.js"), .advance 3, .advance 3],
    List.replicate 4 (.connection 0 (.advance 3)),
    [.connection 0 (.receive (Frame.encode (.response (.ofNat 4) (.ok (.arr mixedItems))))),
      .connection 0 .read, .connection 0 (.advance 3), .advance 3, .advance 3]]

/-- The paths that an answer names. -/
def Exchange.paths? : Exchange → Option (Option (List (Option String)))
  | ⟨.await _ _, .ok v⟩ => some (v.items?.map fun items => items.map namedPath?)
  | _ => none

/-- Whether anybody still needs the result. -/
def Exchange.cancelled? : Exchange → Option Bool
  | ⟨.cancelled, r⟩ => some r
  | _ => none

/-- The document that a task was begun for. -/
def Origin.document? : Origin → Option String
  | .job (.lenses document) => some document
  | _ => none

theorem origin_of_document? {o : Option Origin} (h : o.bind Origin.document? = some document) :
    o = some (.job (.lenses document)) := by
  obtain ⟨origin, rfl, same⟩ := Option.bind_eq_some_iff.mp h
  unfold Origin.document? at same
  split at same
  · rw [Option.some.inj same]
  · contradiction

/-- `lenses_of_any_answer` where one of three elements has a meta that is not understood: its
file is a bare path, its neighbour is not, and each of the three has its lens. -/
theorem lenses_of_any_answer_mixed :
    ∃ s lenses files, run lensesServed { setup := bareSetup } = some s ∧
      s.result? 3 = some (.lenses (some lenses)) ∧
      lenses.map (fun lens => some lens.path) =
        [some "/app/a.js", some "/app/b.js", some "/app/c.js"] ∧
      listOfJson? (.arr mixedItems) = some files ∧
      files.map info? = [some ⟨.route, "foo", .application, .script⟩, none, none] := by
  -- one evaluation of the run for all that is read off it
  have facts : ((run lensesServed { setup := bareSetup }).any fun s => (s.result? 3).isSome) = true ∧
      (origins lensesServed { setup := bareSetup })[3]?.bind Origin.document? = some "/app/a.js" ∧
      (dialogue 3 lensesServed { setup := bareSetup }).filterMap Exchange.paths? =
        [some [some "/app/a.js", some "/app/b.js", some "/app/c.js"]] ∧
      (dialogue 3 lensesServed { setup := bareSetup }).getLast?.bind Exchange.cancelled? =
        some false := by
    decide +kernel
  obtain ⟨done, asked, answered, needed⟩ := facts
  obtain ⟨s, hrun, done⟩ := (Option.any_eq_true _ _).mp done
  obtain ⟨r, result⟩ := Option.isSome_iff_exists.mp done
  obtain ⟨reads, offers, -, runs⟩ := lenses_of_any_answer hrun
  obtain ⟨files, reading⟩ := reads mixedItems (by decide)
  have comes := (runs 3 "/app/a.js" (origin_of_document? asked)).result r result
  generalize dialogue 3 lensesServed { setup := bareSetup } = said at comes answered needed
  cases comes with
  | cancelled =>
    rw [List.getLast?_concat] at needed
    contradiction
  | @offered _ outcome fetched =>
    refine ⟨s, _, files, hrun, result, ?_, reading.read, reading.metas⟩
    cases fetched with
    | nobody => exact absurd (show [] = [_] from answered) (by simp)
    | answered server place =>
      cases outcome with
      | error fault => exact absurd (show [] = [_] from answered) (by simp)
      | ok v =>
        have named : v.items?.map (fun items => items.map namedPath?) =
            some [some "/app/a.js", some "/app/b.js", some "/app/c.js"] :=
          List.singleton_inj.mp answered
        obtain ⟨items, same, paths⟩ := Option.map_eq_some_iff.mp named
        obtain rfl : v = .arr items := by
          cases v with
          | arr => rw [Option.some.inj same]
          | _ => contradiction
        have all : (items.map namedPath?).all Option.isSome = true := by
          rw [paths]
          rfl
        have many : items.length ≠ 1 := by
          have lengths := congrArg List.length paths
          simp only [List.length_map, List.length_cons, List.length_nil] at lengths
          omega
        exact ((offers _ _).paths items rfl (by simpa using all) many).trans paths

end EmberClient.Session
