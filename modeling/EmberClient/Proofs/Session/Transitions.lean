import EmberClient.Proofs.Session.Dialogue

/-!
# How a start and a restart can go

What a transition does is settled by what it is replied: whether the launcher brings a server
up, what the server answers, whether there is still a writer for what it is sent. `Rises` lists
the ways in which a server can be brought up once the state allows it. There is one attempt in
each: nothing is asked a second time, and the two ways to end are the last two exchanges of a
failure and the last six of a success.

> `gives_start_iff`, `gives_restart_iff`: a start and a restart come to just the outcomes that
> are listed, each by the dialogues that are listed with it.
-/

namespace EmberClient.Session

variable {setup : Setup} {α β : Type}

/-! ## Dialogues of composed programs -/

/-- What a program leads to is led to by the program with more behind it. -/
theorem Leads.bind {p q : Prog α} {said : List Exchange} (leads : Leads setup p said q)
    (f : α → Prog β) : Leads setup (p >>= f) said (q >>= f) := by
  induction leads with
  | nothing => exact .nothing
  | told before plain r ih => exact ih.told plain r
  | @runs said name arguments next before ih =>
    rw [show (Dispatch.execute setup name arguments).bind next >>= f =
      (Dispatch.execute setup name arguments).bind fun r => next r >>= f from
      Program.bind_bind ..]
    exact ih.runs

/-- What two programs in a row say is what the first says, followed by what the second says of its
outcome. -/
theorem gives_bind_iff {p : Prog α} {f : α → Prog β} {said : List Exchange} {c : β} :
    Gives setup (p >>= f) said c ↔ ∃ a first second, said = first ++ second ∧
      Gives setup p first a ∧ Gives setup (f a) second c := by
  constructor
  · exact Gives.of_bind
  · rintro ⟨a, first, second, rfl, comes, goes⟩
    exact (Leads.bind comes f).trans goes

/-- A question is said first, with one of its replies. -/
theorem gives_ask_iff {q : Question} {f : q.Reply → Prog β} {said : List Exchange} {c : β}
    (plain : q.isRun = false) :
    Gives setup (ask q >>= f) said c ↔
      ∃ r rest, said = ⟨q, r⟩ :: rest ∧ Gives setup (f r) rest c := by
  constructor
  · exact Gives.of_ask plain
  · rintro ⟨r, rest, rfl, goes⟩
    have begins : Leads setup (ask q >>= f) [] (ask q >>= f) := .nothing
    exact (begins.told plain r).trans goes

/-- A question alone is the whole of what is said. -/
theorem gives_question_iff {q : Question} {said : List Exchange} {r : q.Reply}
    (plain : q.isRun = false) : Gives setup (ask q) said r ↔ said = [⟨q, r⟩] := by
  constructor
  · exact fun comes => comes.question plain
  · rintro rfl
    have begins : Leads setup (ask q) [] (ask q) := .nothing
    exact begins.told plain r

/-- A program that is done says nothing more. -/
theorem gives_done_iff {a b : α} {said : List Exchange} :
    Gives setup (.done a) said b ↔ said = [] ∧ b = a := by
  constructor
  · exact Gives.of_done
  · rintro ⟨rfl, rfl⟩
    exact .nothing

/-! ## Shaking hands -/

/-- The first request to a server, and what comes of it. -/
def greeting (setup : Setup) (server place : Nat) (answer : Except Fault Json) : List Exchange :=
  [⟨.call server "initialize" setup.initializeParams, place⟩, ⟨.await server place, answer⟩]

/-- The client introduces itself, if it still can. -/
def introducing (server : Nat) (sent : Except Fault Unit) : Exchange :=
  ⟨.notify server "initialized" (.obj []), sent⟩

/-- How the handshake with a server can go, with the commands that the server advertised. -/
inductive ShakesHands (setup : Setup) (server : Nat) :
    List Exchange → Except Fault (List String) → Prop where
  /-- The first request comes to nothing. -/
  | refused (place : Nat) (fault : Fault) :
    ShakesHands setup server
      (greeting setup server place (.error fault) ++
        [⟨.terminate server, ()⟩, ⟨.discard server, ()⟩])
      (.error fault)
  /-- The answer cannot be read. -/
  | senseless (place : Nat) {v : Json} (unread : setup.reader.read v = none) :
    ShakesHands setup server
      (greeting setup server place (.ok v) ++ [⟨.terminate server, ()⟩, ⟨.discard server, ()⟩])
      (.error (.malformed "the answer to initialize"))
  /-- The client cannot introduce itself any more. -/
  | unheard (place : Nat) {v : Json} {result : InitializeResult}
      (reads : setup.reader.read v = some result) (fault : Fault) :
    ShakesHands setup server
      (greeting setup server place (.ok v) ++
        [introducing server (.error fault), ⟨.discard server, ()⟩])
      (.error fault)
  | welcome (place : Nat) {v : Json} {result : InitializeResult}
      (reads : setup.reader.read v = some result) :
    ShakesHands setup server
      (greeting setup server place (.ok v) ++
        [introducing server (.ok ()), ⟨.advertise server result.commands, ()⟩])
      (.ok result.commands)

/-- What the setup takes for the advertised commands is read by its own reader. -/
theorem commands?_of_read {v : Json} {read : Option InitializeResult}
    (reads : setup.reader.read v = read) :
    setup.commands? v = read.map InitializeResult.commands := by
  rw [Setup.commands?, reads]

/-- A request is placed and then awaited. -/
theorem gives_request_iff {server : Nat} {method : String} {params : Json}
    {said : List Exchange} {answer : Except Fault Json} :
    Gives setup (request server method params) said answer ↔
      ∃ place, said = [⟨.call server method params, place⟩, ⟨.await server place, answer⟩] := by
  unfold request
  simp only [gives_ask_iff (q := .call server method params) rfl]
  constructor
  · rintro ⟨place, _, rfl, awaits⟩
    rw [awaits.question rfl]
    exact ⟨place, rfl⟩
  · rintro ⟨place, rfl⟩
    exact ⟨place, _, rfl, (gives_question_iff rfl).mpr rfl⟩

/-- A server that is of no use is ended. -/
theorem gives_dismissal_iff {server : Nat} {fault : Fault} {said : List Exchange}
    {outcome : Except Fault Unit} :
    Gives setup (do ask (.terminate server); ask (.discard server); return .error fault) said
        outcome ↔
      said = [⟨.terminate server, ()⟩, ⟨.discard server, ()⟩] ∧ outcome = .error fault := by
  constructor
  · intro terminates
    obtain ⟨_, _, rfl, discards⟩ := Gives.of_ask rfl terminates
    obtain ⟨_, _, rfl, ends⟩ := Gives.of_ask rfl discards
    obtain ⟨rfl, rfl⟩ := ends.of_done
    exact ⟨rfl, rfl⟩
  · rintro ⟨rfl, rfl⟩
    refine (gives_ask_iff rfl).mpr ⟨(), _, rfl, (gives_ask_iff rfl).mpr ⟨(), _, rfl, ?_⟩⟩
    exact gives_done_iff.mpr ⟨rfl, rfl⟩

/-- Whatever the handshake says is one of the handshakes described. -/
theorem shakesHands_of_gives {server : Nat} {said : List Exchange} {outcome : Except Fault Unit}
    (gives : Gives setup (Lifecycle.shakeHands setup server) said outcome) :
    ∃ result, ShakesHands setup server said result ∧ outcome = result.map fun _ => () := by
  obtain ⟨answer, first, second, rfl, asked, goes⟩ := gives.of_bind
  obtain ⟨place, rfl⟩ := gives_request_iff.mp asked
  -- a handshake ends where an answer is bad or the server does not hear
  cases answer with
  | error fault =>
    obtain ⟨rfl, rfl⟩ := gives_dismissal_iff.mp goes
    exact ⟨_, .refused place fault, rfl⟩
  | ok v =>
    cases reads : setup.reader.read v with
    | none =>
      simp only [Except.bind, commands?_of_read reads, Option.map_none] at goes
      obtain ⟨rfl, rfl⟩ := gives_dismissal_iff.mp goes
      exact ⟨_, .senseless place reads, rfl⟩
    | some result =>
      simp only [Except.bind, commands?_of_read reads, Option.map_some] at goes
      obtain ⟨sent, rest, rfl, follows⟩ := Gives.of_ask rfl goes
      cases sent with
      | error fault =>
        obtain ⟨_, _, rfl, ends⟩ := Gives.of_ask rfl follows
        obtain ⟨rfl, rfl⟩ := ends.of_done
        exact ⟨_, .unheard place reads fault, rfl⟩
      | ok =>
        obtain ⟨_, _, rfl, ends⟩ := Gives.of_ask rfl follows
        obtain ⟨rfl, rfl⟩ := ends.of_done
        exact ⟨_, .welcome place reads, rfl⟩

/-- Each of the handshakes described is one that the program gives. -/
theorem gives_of_shakesHands {server : Nat} {said : List Exchange}
    {result : Except Fault (List String)} (shakes : ShakesHands setup server said result) :
    Gives setup (Lifecycle.shakeHands setup server) said (result.map fun _ => ()) := by
  have asks : ∀ place answer, Gives setup (request server "initialize" setup.initializeParams)
      (greeting setup server place answer) answer :=
    fun place _ => gives_request_iff.mpr ⟨place, rfl⟩
  cases shakes with
  | refused place fault =>
    exact gives_bind_iff.mpr ⟨_, _, _, rfl, asks place _, gives_dismissal_iff.mpr ⟨rfl, rfl⟩⟩
  | senseless place unread =>
    refine gives_bind_iff.mpr ⟨_, _, _, rfl, asks place _, ?_⟩
    simp only [Except.bind, commands?_of_read unread, Option.map_none]
    exact gives_dismissal_iff.mpr ⟨rfl, rfl⟩
  | unheard place reads fault =>
    refine gives_bind_iff.mpr ⟨_, _, _, rfl, asks place _, ?_⟩
    simp only [Except.bind, commands?_of_read reads, Option.map_some]
    refine (gives_ask_iff rfl).mpr ⟨.error fault, _, rfl, ?_⟩
    exact (gives_ask_iff rfl).mpr ⟨(), _, rfl, gives_done_iff.mpr ⟨rfl, rfl⟩⟩
  | welcome place reads =>
    refine gives_bind_iff.mpr ⟨_, _, _, rfl, asks place _, ?_⟩
    simp only [Except.bind, commands?_of_read reads, Option.map_some]
    refine (gives_ask_iff rfl).mpr ⟨.ok (), _, rfl, ?_⟩
    exact (gives_ask_iff rfl).mpr ⟨(), _, rfl, gives_done_iff.mpr ⟨rfl, rfl⟩⟩

/-! ## Bringing a server up -/

/-- How the attempt to bring a server up can go, with the server and its commands. There is one
launch, with a handler that has just been built. -/
inductive BringsUp (setup : Setup) : List Exchange → Except Fault (Nat × List String) → Prop where
  | unlaunched (handler : Nat) (fault : Fault) :
    BringsUp setup [⟨.buildHandler, handler⟩, ⟨.launch handler, .error fault⟩] (.error fault)
  | launched (handler : Nat) {server : Nat} {said : List Exchange}
      {result : Except Fault (List String)} (shakes : ShakesHands setup server said result) :
    BringsUp setup (⟨.buildHandler, handler⟩ :: ⟨.launch handler, .ok server⟩ :: said)
      (result.map (server, ·))

/-- Whatever is said while a server is brought up is one of the ways described. -/
theorem bringsUp_of_gives {said : List Exchange} {outcome : Except Fault Nat}
    (gives : Gives setup (Lifecycle.bringUp setup) said outcome) :
    ∃ result, BringsUp setup said result ∧ outcome = result.map Prod.fst := by
  obtain ⟨handler, _, rfl, launches⟩ := Gives.of_ask rfl gives
  obtain ⟨launched, rest, rfl, goes⟩ := Gives.of_ask rfl launches
  cases launched with
  | error fault =>
    obtain ⟨rfl, rfl⟩ := goes.of_done
    exact ⟨_, .unlaunched handler fault, rfl⟩
  | ok server =>
    obtain ⟨shaken, first, second, rfl, shook, ends⟩ := goes.of_bind
    obtain ⟨result, shakes, rfl⟩ := shakesHands_of_gives shook
    refine ⟨result.map (server, ·), ?_⟩
    cases result with
    | error fault =>
      obtain ⟨rfl, rfl⟩ := ends.of_done
      rw [List.append_nil]
      exact ⟨.launched handler shakes, rfl⟩
    | ok commands =>
      obtain ⟨rfl, rfl⟩ := ends.of_done
      rw [List.append_nil]
      exact ⟨.launched handler shakes, rfl⟩

/-- Each of these ways is one that the program gives. -/
theorem gives_of_bringsUp {said : List Exchange} {result : Except Fault (Nat × List String)}
    (brings : BringsUp setup said result) :
    Gives setup (Lifecycle.bringUp setup) said (result.map Prod.fst) := by
  cases brings with
  | unlaunched handler fault =>
    refine (gives_ask_iff rfl).mpr ⟨handler, _, rfl, ?_⟩
    exact (gives_ask_iff rfl).mpr ⟨.error fault, _, rfl, gives_done_iff.mpr ⟨rfl, rfl⟩⟩
  | @launched handler server said result shakes =>
    refine (gives_ask_iff rfl).mpr ⟨handler, _, rfl, ?_⟩
    refine (gives_ask_iff rfl).mpr ⟨.ok server, _, rfl, gives_bind_iff.mpr
      ⟨_, _, [], (List.append_nil _).symm, gives_of_shakesHands shakes, ?_⟩⟩
    cases result with
    | error fault => exact gives_done_iff.mpr ⟨rfl, rfl⟩
    | ok commands => exact gives_done_iff.mpr ⟨rfl, rfl⟩

/-- What is done first to bring a server up. -/
def onset : List Exchange :=
  [⟨.setState .starting, ()⟩,
    ⟨.status StatusItem.main (StatusItem.text StatusItem.loading), ()⟩]

/-- What is done at last where there is no server. -/
def retreat : List Exchange :=
  [⟨.setState .stopped, ()⟩,
    ⟨.status StatusItem.main (StatusItem.text StatusItem.noServer), ()⟩]

/-- What is done with a server that is up: it is put into the slot and gets its settings, and
whatever it answers, it is watched. -/
def installing (setup : Setup) (server place : Nat) (answer : Except Fault Json) : List Exchange :=
  [⟨.setCurrent server, ()⟩, ⟨.setState .ready, ()⟩,
    ⟨.call server Connection.executeMethod
      (Connection.executeParams Command.setConfig [setup.settings.toJson]), place⟩,
    ⟨.await server place, answer⟩,
    ⟨.status StatusItem.main (StatusItem.text StatusItem.ready), ()⟩, ⟨.watch server, ()⟩]

/-- How a transition can go on that has found that it may start. -/
inductive Rises (setup : Setup) : List Exchange → Except Fault Unit → Prop where
  | failed {said : List Exchange} {fault : Fault} (brings : BringsUp setup said (.error fault)) :
    Rises setup (onset ++ said ++ retreat) (.error fault)
  | up {said : List Exchange} {server : Nat} {commands : List String}
      (brings : BringsUp setup said (.ok (server, commands))) (place : Nat)
      (answer : Except Fault Json) :
    Rises setup (onset ++ said ++ installing setup server place answer) (.ok ())

/-- How a transition can go on that has looked at the state. -/
inductive StartsFrom (setup : Setup) (state : ServerState) :
    List Exchange → Except Fault Unit → Prop where
  | refused (wrong : state ≠ .stopped ∧ state ≠ .restarting) :
    StartsFrom setup state [] (.error (.invalidState state "start"))
  | allowed (right : state = .stopped ∨ state = .restarting) {said : List Exchange}
      {outcome : Except Fault Unit} (rises : Rises setup said outcome) :
    StartsFrom setup state said outcome

/-- A start says which state it looked at, and what it says next depends on that state. -/
theorem startsFrom_of_gives {said : List Exchange} {outcome : Except Fault Unit}
    (gives : Gives setup (Lifecycle.startLocked setup) said outcome) :
    ∃ state rest, said = ⟨.state, state⟩ :: rest ∧ StartsFrom setup state rest outcome := by
  obtain ⟨state, rest, rfl, goes⟩ := Gives.of_ask rfl gives
  refine ⟨state, rest, rfl, ?_⟩
  split at goes
  · next wrong =>
    obtain ⟨rfl, rfl⟩ := goes.of_done
    exact .refused wrong
  · next right =>
    refine .allowed (by tauto) ?_
    obtain ⟨_, _, rfl, loads⟩ := Gives.of_ask rfl goes
    obtain ⟨_, _, rfl, tries⟩ := Gives.of_ask rfl loads
    -- what bringing a server up came to decides how the start goes on
    obtain ⟨brought, first, second, rfl, tried, goesOn⟩ := tries.of_bind
    obtain ⟨result, brings, rfl⟩ := bringsUp_of_gives tried
    cases result with
    | error fault =>
      obtain ⟨_, _, rfl, tells⟩ := Gives.of_ask rfl goesOn
      obtain ⟨_, _, rfl, ends⟩ := Gives.of_ask rfl tells
      obtain ⟨rfl, rfl⟩ := ends.of_done
      exact .failed brings
    | ok up =>
      obtain ⟨_, _, rfl, sets⟩ := Gives.of_ask rfl goesOn
      obtain ⟨_, _, rfl, serves⟩ := Gives.of_ask rfl sets
      obtain ⟨answer, _, _, rfl, configures, tells⟩ := serves.of_bind
      obtain ⟨place, rfl⟩ := gives_request_iff.mp configures
      obtain ⟨_, _, rfl, watches⟩ := Gives.of_ask rfl tells
      obtain ⟨_, _, rfl, ends⟩ := Gives.of_ask rfl watches
      obtain ⟨rfl, rfl⟩ := ends.of_done
      exact .up brings place answer

/-- From either state, what is described is what the program gives. -/
theorem gives_of_startsFrom {state : ServerState} {rest : List Exchange}
    {outcome : Except Fault Unit} (starts : StartsFrom setup state rest outcome) :
    Gives setup (Lifecycle.startLocked setup) (⟨.state, state⟩ :: rest) outcome := by
  refine (gives_ask_iff rfl).mpr ⟨state, rest, rfl, ?_⟩
  cases starts with
  | refused wrong =>
    rw [if_pos wrong]
    exact gives_done_iff.mpr ⟨rfl, rfl⟩
  | allowed right rises =>
    rw [if_neg (by tauto)]
    cases rises with
    | @failed said fault brings =>
      refine (gives_ask_iff rfl).mpr ⟨(), _, rfl, (gives_ask_iff rfl).mpr ⟨(), _, rfl, ?_⟩⟩
      refine gives_bind_iff.mpr ⟨_, said, _, rfl, gives_of_bringsUp brings, ?_⟩
      refine (gives_ask_iff rfl).mpr ⟨(), _, rfl, (gives_ask_iff rfl).mpr ⟨(), _, rfl, ?_⟩⟩
      exact gives_done_iff.mpr ⟨rfl, rfl⟩
    | @up said server commands brings place answer =>
      refine (gives_ask_iff rfl).mpr ⟨(), _, rfl, (gives_ask_iff rfl).mpr ⟨(), _, rfl, ?_⟩⟩
      refine gives_bind_iff.mpr ⟨_, said, _, rfl, gives_of_bringsUp brings, ?_⟩
      refine (gives_ask_iff rfl).mpr ⟨(), _, rfl, (gives_ask_iff rfl).mpr ⟨(), _, rfl, ?_⟩⟩
      refine gives_bind_iff.mpr ⟨answer, [_, _], _, rfl, gives_request_iff.mpr ⟨place, rfl⟩, ?_⟩
      refine (gives_ask_iff rfl).mpr ⟨(), _, rfl, (gives_ask_iff rfl).mpr ⟨(), _, rfl, ?_⟩⟩
      exact gives_done_iff.mpr ⟨rfl, rfl⟩

/-! ## Taking a server down -/

/-- How the current server can be taken out of the slot and shut down, if there is one. -/
inductive TakesDown : Option Nat → List Exchange → Prop where
  | nobody : TakesDown none [⟨.takeCurrent, none⟩]
  | server (server place : Nat) (answer : Option (Except Fault Json)) (sent : Except Fault Unit) :
    TakesDown (some server)
      [⟨.takeCurrent, some server⟩, ⟨.call server "shutdown" .null, place⟩,
        ⟨.awaitBriefly server place, answer⟩, ⟨.notify server "exit" .null, sent⟩,
        ⟨.terminate server, ()⟩, ⟨.discard server, ()⟩]

/-- Taking the current server down says what was in the slot, and what follows for it. -/
theorem gives_shutDownCurrent_iff {said : List Exchange} :
    Gives setup Lifecycle.shutDownCurrent said () ↔ ∃ slot, TakesDown slot said := by
  constructor
  · intro gives
    obtain ⟨slot, rest, rfl, goes⟩ := Gives.of_ask rfl gives
    refine ⟨slot, ?_⟩
    cases slot with
    | none =>
      obtain ⟨rfl, -⟩ := goes.of_done
      exact .nobody
    | some server =>
      obtain ⟨place, _, rfl, waits⟩ := Gives.of_ask rfl goes
      obtain ⟨answer, _, rfl, bids⟩ := Gives.of_ask rfl waits
      obtain ⟨sent, _, rfl, terminates⟩ := Gives.of_ask rfl bids
      obtain ⟨_, _, rfl, discards⟩ := Gives.of_ask rfl terminates
      rw [discards.question rfl]
      exact .server server place answer sent
  · rintro ⟨slot, down⟩
    cases down with
    | nobody =>
      exact (gives_ask_iff rfl).mpr ⟨none, _, rfl, gives_done_iff.mpr ⟨rfl, rfl⟩⟩
    | server server place answer sent =>
      refine (gives_ask_iff rfl).mpr ⟨some server, _, rfl, ?_⟩
      refine (gives_ask_iff rfl).mpr ⟨place, _, rfl, (gives_ask_iff rfl).mpr ⟨answer, _, rfl, ?_⟩⟩
      refine (gives_ask_iff rfl).mpr ⟨sent, _, rfl, (gives_ask_iff rfl).mpr ⟨(), _, rfl, ?_⟩⟩
      exact (gives_question_iff rfl).mpr rfl

/-! ## Whole transitions -/

/-- What a transition is told that looks at the state and leaves. -/
def visit (state : ServerState) : List Exchange :=
  [⟨.lock, ()⟩, ⟨.state, state⟩, ⟨.unlock, ()⟩]

/-- How a restart can go on that has looked at the state. -/
inductive RestartsFrom (setup : Setup) (state : ServerState) :
    List Exchange → Except Fault Unit → Prop where
  | refused (wrong : state ≠ .ready) :
    RestartsFrom setup state [] (.error (.invalidState state "restart"))
  | allowed (right : state = .ready) {slot : Option Nat} {down rest : List Exchange}
      {again : ServerState} {outcome : Except Fault Unit} (takes : TakesDown slot down)
      (starts : StartsFrom setup again rest outcome) :
    RestartsFrom setup state
      (⟨.setState .restarting, ()⟩ :: (down ++ ⟨.state, again⟩ :: rest)) outcome

/-- What runs under the lock says the lock first and the unlock last. -/
theorem gives_locked_iff {p : Prog α} {said : List Exchange} {a : α} :
    Gives setup (Lifecycle.locked p) said a ↔
      ∃ inner, said = ⟨.lock, ()⟩ :: (inner ++ [⟨.unlock, ()⟩]) ∧ Gives setup p inner a := by
  constructor
  · intro gives
    obtain ⟨_, _, rfl, enters⟩ := Gives.of_ask rfl gives
    obtain ⟨b, inner, _, rfl, comes, leaves⟩ := enters.of_bind
    obtain ⟨_, _, rfl, ends⟩ := Gives.of_ask rfl leaves
    obtain ⟨rfl, rfl⟩ := ends.of_done
    exact ⟨inner, rfl, comes⟩
  · rintro ⟨inner, rfl, comes⟩
    refine (gives_ask_iff rfl).mpr ⟨(), _, rfl, gives_bind_iff.mpr ⟨a, inner, _, rfl, comes, ?_⟩⟩
    exact (gives_ask_iff rfl).mpr ⟨(), _, rfl, gives_done_iff.mpr ⟨rfl, rfl⟩⟩

/-- A start comes to just these outcomes. -/
theorem gives_start_iff {said : List Exchange} {outcome : Except Fault Unit} :
    Gives setup (Lifecycle.start setup) said outcome ↔ ∃ state rest,
      said = ⟨.lock, ()⟩ :: ⟨.state, state⟩ :: (rest ++ [⟨.unlock, ()⟩]) ∧
        StartsFrom setup state rest outcome := by
  unfold Lifecycle.start
  rw [gives_locked_iff]
  constructor
  · rintro ⟨inner, rfl, comes⟩
    obtain ⟨state, rest, rfl, starts⟩ := startsFrom_of_gives comes
    exact ⟨state, rest, rfl, starts⟩
  · rintro ⟨state, rest, rfl, starts⟩
    exact ⟨_, rfl, gives_of_startsFrom starts⟩

/-- A restart comes to just these outcomes. -/
theorem gives_restart_iff {said : List Exchange} {outcome : Except Fault Unit} :
    Gives setup (Lifecycle.restart setup) said outcome ↔ ∃ state rest,
      said = ⟨.lock, ()⟩ :: ⟨.state, state⟩ :: (rest ++ [⟨.unlock, ()⟩]) ∧
        RestartsFrom setup state rest outcome := by
  unfold Lifecycle.restart
  -- what is told between the lock and its return is told one question after the other
  rw [gives_locked_iff]
  constructor
  · rintro ⟨inner, rfl, comes⟩
    obtain ⟨state, rest, rfl, goes⟩ := Gives.of_ask rfl comes
    refine ⟨state, rest, rfl, ?_⟩
    split at goes
    · next wrong =>
      obtain ⟨rfl, rfl⟩ := goes.of_done
      exact .refused wrong
    · next right =>
      obtain ⟨_, _, rfl, goesDown⟩ := Gives.of_ask rfl goes
      obtain ⟨_, down, _, rfl, takes, comesUp⟩ := goesDown.of_bind
      obtain ⟨slot, takes⟩ := gives_shutDownCurrent_iff.mp takes
      obtain ⟨again, rest, rfl, starts⟩ := startsFrom_of_gives comesUp
      exact .allowed (Decidable.not_not.mp right) takes starts
  · rintro ⟨state, rest, rfl, restarts⟩
    refine ⟨_, rfl, (gives_ask_iff rfl).mpr ⟨state, rest, rfl, ?_⟩⟩
    cases restarts with
    | refused wrong =>
      rw [if_pos wrong]
      exact gives_done_iff.mpr ⟨rfl, rfl⟩
    | allowed right takes starts =>
      rw [if_neg (not_not.mpr right)]
      refine (gives_ask_iff rfl).mpr ⟨(), _, rfl, gives_bind_iff.mpr ⟨(), _, _, rfl, ?_, ?_⟩⟩
      · exact gives_shutDownCurrent_iff.mpr ⟨_, takes⟩
      · exact gives_of_startsFrom starts

end EmberClient.Session
