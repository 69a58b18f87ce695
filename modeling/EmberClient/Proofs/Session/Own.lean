import EmberClient.Proofs.Session.Dialogue
import EmberClient.Proofs.Session.Parts

/-!
# A program waits for its own calls and answers its own request

A call is named by the server it is made to and by its place there. `AsksOwn` says of a
program, whatever it is told: it waits for the results of calls only that it made itself,
and the one request it answers, if any, is its duty. Every task of a session was begun with
such a program. So in its dialogue each result is that of a call whose place it was told
before, and each answer is to the request that it was begun for:

> `own_of_run`: in every run, each task asks for what is its own.
-/

namespace EmberClient.Session

variable {setup : Setup} {α β : Type}

/-- A call to a server, by its place there. -/
abbrev CallName := Nat × Nat

/-- The call that an exchange begins. -/
def Exchange.call? : Exchange → Option CallName
  | ⟨.call server _ _, place⟩ => some (server, place)
  | _ => none

/-- The calls that a dialogue begins. -/
def callsIn (said : List Exchange) : List CallName := said.filterMap Exchange.call?

/-- A call counts among those made as soon as it is placed. -/
theorem callsIn_snoc (said : List Exchange) (e : Exchange) :
    callsIn (said ++ [e]) = callsIn said ++ e.call?.toList :=
  filterMap_append_toList _ said (some e)

/-- What a program may ask that has made these calls and has to answer that request. -/
def Question.IsOwn (duty : Option (Nat × Nat)) (calls : List CallName) : Question → Prop
  | .await server place | .awaitBriefly server place => (server, place) ∈ calls
  | .respond server place _ => duty = some (server, place)
  | _ => True

/-- Whatever it is told, the program asks for what is its own. -/
def AsksOwn (duty : Option (Nat × Nat)) {α : Type} : List CallName → Prog α → Prop
  | _, .done _ => True
  | calls, .ask q next =>
    q.IsOwn duty calls ∧ ∀ r, AsksOwn duty (calls ++ (Exchange.call? ⟨q, r⟩).toList) (next r)

/-- What may be asked after some calls may be asked after more. -/
theorem Question.IsOwn.more {duty : Option (Nat × Nat)} {calls more : List CallName}
    {q : Question} (own : q.IsOwn duty calls) (sub : calls ⊆ more) : q.IsOwn duty more := by
  cases q with
  | await | awaitBriefly => exact sub own
  | _ => exact own

/-- A program that keeps to its own calls still does when there are more of them. -/
theorem AsksOwn.more {duty : Option (Nat × Nat)} {calls more : List CallName} {p : Prog α}
    (own : AsksOwn duty calls p) (sub : calls ⊆ more) : AsksOwn duty more p := by
  induction p generalizing calls more with
  | done a => trivial
  | ask q next ih =>
    refine ⟨own.1.more sub, fun r => ih r (own.2 r) ?_⟩
    exact List.append_subset.mpr
      ⟨fun call member => List.mem_append_left _ (sub member), List.subset_append_right _ _⟩

/-- Whatever it has called before and whatever its duty is. -/
def Modest {α : Type} (p : Prog α) : Prop := ∀ duty calls, AsksOwn duty calls p

/-! ## Programs -/

/-- The calls that the first program places are its own for the second. -/
theorem asksOwn_bind {duty : Option (Nat × Nat)} {calls : List CallName} {p : Prog α}
    {f : α → Prog β} (first : AsksOwn duty calls p)
    (rest : ∀ a more, calls ⊆ more → AsksOwn duty more (f a)) : AsksOwn duty calls (p >>= f) := by
  induction p generalizing calls with
  | done a => exact rest a calls (List.Subset.refl _)
  | ask q next ih =>
    refine ⟨first.1, fun r => ih r (first.2 r) fun a more sub => rest a more ?_⟩
    exact fun call member => sub (List.mem_append_left _ member)

theorem modest_pure (a : α) : Modest (.done a : Prog α) := fun _ _ => trivial

/-- Modest programs in a row are modest. -/
theorem modest_bind {p : Prog α} {f : α → Prog β} (first : Modest p)
    (rest : ∀ a, Modest (f a)) : Modest (p >>= f) :=
  fun duty calls => asksOwn_bind (first duty calls) fun a more _ => rest a duty more

/-- A question that waits for no call and answers no request is modest. -/
theorem modest_ask {q : Question} (own : ∀ duty calls, q.IsOwn duty calls) : Modest (ask q) :=
  fun duty calls => ⟨own duty calls, fun _ => trivial⟩

/-- A request is waited for by who made it. -/
theorem modest_request (server : Nat) (method : String) (params : Json) :
    Modest (request server method params) := by
  intro duty calls
  refine ⟨trivial, fun place => ⟨?_, fun _ => trivial⟩⟩
  exact List.mem_append_right _ (List.mem_singleton_self _)

/-- Who deals with servers waits for its own calls. -/
theorem modest_of_dealing {p : Prog α} (h : Dealing p) : Modest p := by
  induction h with
  | pure a => exact modest_pure a
  | bind first rest ihFirst ihRest => exact modest_bind ihFirst ihRest
  | @ask q h =>
    refine modest_ask fun _ _ => ?_
    cases q with
    | await | awaitBriefly | respond => exact absurd h (by simp [isDealing, isPlain])
    | _ => trivial
  | request server params _ => exact modest_request server _ params
  | bid server params _ =>
    exact fun duty calls => ⟨trivial, fun place =>
      ⟨List.mem_append_right _ (List.mem_singleton_self _), fun _ => trivial⟩⟩

/-- A command for the server awaits the call that it placed itself. -/
theorem modest_executeOnServer (name : String) (arguments : List Json) :
    Modest (Dispatch.executeOnServer name arguments) := by
  refine modest_bind (modest_ask fun _ _ => trivial) fun slot => ?_
  split
  · exact modest_pure _
  · exact modest_request _ _ _

theorem modest_belongsTo (server : Nat) (name : String) :
    Modest (Dispatch.belongsTo server name) := by
  unfold Dispatch.belongsTo
  split
  · exact modest_pure _
  · exact modest_bind (modest_ask fun _ _ => trivial) fun _ => modest_pure _

/-- Both ways that a command can be routed are modest. -/
theorem modest_route (name : String) (arguments : List Json) :
    Modest (Dispatch.route name arguments) := by
  refine modest_bind (modest_ask fun _ _ => trivial) fun slot => ?_
  split
  · refine modest_bind (modest_belongsTo _ _) fun belongs => ?_
    split
    · exact modest_request _ _ _
    · exact modest_ask fun _ _ => trivial
  · split
    · exact modest_pure _
    · exact modest_ask fun _ _ => trivial

/-- A start awaits only the handshake and the settings that it sent. -/
theorem modest_startLocked : Modest (Lifecycle.startLocked setup) := by
  refine modest_bind (modest_ask fun _ _ => trivial) fun state => ?_
  split
  · exact modest_pure _
  · refine modest_bind (modest_ask fun _ _ => trivial) fun _ => ?_
    refine modest_bind (modest_ask fun _ _ => trivial) fun _ => ?_
    refine modest_bind (modest_of_dealing dealing_bringUp) fun result => ?_
    split
    · refine modest_bind (modest_ask fun _ _ => trivial) fun _ => ?_
      exact modest_bind (modest_ask fun _ _ => trivial) fun _ => modest_pure _
    · refine modest_bind (modest_ask fun _ _ => trivial) fun _ => ?_
      refine modest_bind (modest_ask fun _ _ => trivial) fun _ => ?_
      refine modest_bind (modest_request _ _ _) fun _ => ?_
      refine modest_bind (modest_ask fun _ _ => trivial) fun _ => ?_
      exact modest_bind (modest_ask fun _ _ => trivial) fun _ => modest_pure _

theorem modest_locked {p : Prog α} (h : Modest p) : Modest (Lifecycle.locked p) :=
  modest_bind (modest_ask fun _ _ => trivial) fun _ => modest_bind h fun _ =>
    modest_bind (modest_ask fun _ _ => trivial) fun _ => modest_pure _

/-- A restart awaits in addition its own request to shut down. -/
theorem modest_restart : Modest (Lifecycle.restart setup) := by
  refine modest_locked (modest_bind (modest_ask fun _ _ => trivial) fun state => ?_)
  split
  · exact modest_pure _
  · refine modest_bind (modest_ask fun _ _ => trivial) fun _ => ?_
    exact modest_bind (modest_of_dealing dealing_shutDownCurrent) fun _ => modest_startLocked

/-- All that is composed asks for its own. -/
theorem modest_of_composed {p : Prog α} (h : Composed setup p) : Modest p := by
  -- along how the program is put together
  induction h with
  | pure a => exact modest_pure a
  | bind first rest ihFirst ihRest => exact modest_bind ihFirst ihRest
  | @plain q h =>
    refine modest_ask fun _ _ => ?_
    cases q with
    | await | awaitBriefly | respond => exact absurd h (by simp [isPlain])
    | _ => trivial
  | run name arguments => exact modest_ask fun _ _ => trivial
  | executeOnServer arguments _ => exact modest_executeOnServer _ arguments
  | route arguments _ => exact modest_route _ arguments
  | reloadProject =>
    refine modest_bind (modest_ask fun _ _ => trivial) fun _ => ?_
    refine modest_bind (modest_executeOnServer _ _) fun _ => ?_
    exact modest_bind (modest_ask fun _ _ => trivial) fun _ =>
      modest_of_dealing (dealing_contain _)
  | start => exact modest_locked modest_startLocked
  | restart => exact modest_restart

theorem modest_activate : Modest (activate setup) := by
  refine modest_bind (modest_ask fun _ _ => trivial) fun found => ?_
  split
  · refine modest_bind (modest_ask fun _ _ => trivial) fun _ => ?_
    dsimp only
    split
    · refine modest_bind (modest_ask fun _ _ => trivial) fun _ => ?_
      exact modest_bind (modest_locked modest_startLocked) fun _ => modest_pure _
    · exact modest_bind (modest_locked modest_startLocked) fun _ => modest_pure _
  · exact modest_pure _

/-- A watcher waits for no call and answers no request. -/
theorem modest_watchExit (server : Nat) : Modest (Lifecycle.watchExit server) := by
  refine modest_bind (modest_ask fun _ _ => trivial) fun _ => ?_
  refine modest_bind (modest_ask fun _ _ => trivial) fun mine => ?_
  split
  · refine modest_bind (modest_ask fun _ _ => trivial) fun _ => ?_
    refine modest_bind (modest_ask fun _ _ => trivial) fun _ => ?_
    refine modest_bind (modest_ask fun _ _ => trivial) fun _ => ?_
    refine modest_bind (modest_ask fun _ _ => trivial) fun _ => ?_
    refine modest_bind (modest_ask fun _ _ => trivial) fun _ => ?_
    exact modest_ask fun _ _ => trivial
  · exact modest_pure _

/-! ## Tasks -/

/-- The request that a task was begun to answer, if it was. -/
def Origin.duty : Origin → Option (Nat × Nat)
  | .request server place _ _ => some (server, place)
  | _ => none

/-- Whatever began a task, it waits for its own calls only, and answers the request that it was
begun for. -/
theorem asksOwn_origin (o : Origin) : AsksOwn o.duty [] (o.program setup) := by
  cases o with
  | job work =>
    suffices Modest (work.program setup) from this _ _
    cases work with
    | activate => exact modest_bind modest_activate fun _ => modest_pure _
    | stop =>
      refine modest_bind (modest_locked ?_) fun _ => modest_pure _
      exact modest_bind (modest_of_dealing dealing_shutDownCurrent) fun _ => modest_ask fun _ _ => trivial
    | executeOnServer name arguments =>
      exact modest_bind (modest_executeOnServer name arguments) fun _ => modest_pure _
    | _ => exact modest_of_composed (composed_job rfl (by simp))
  | watcher server => exact modest_bind (modest_watchExit server) (fun _ => modest_pure _) _ _
  | request server place method params =>
    refine asksOwn_bind (p := Handler.handle setup server place method params) ?_
      fun _ _ _ => trivial
    refine asksOwn_bind (modest_of_composed (composed_answer method params) _ _) ?_
    exact fun outcome calls _ => ⟨rfl, fun _ => trivial⟩

/-- What a dialogue begins is known at its end. -/
theorem AsksOwn.leads {duty : Option (Nat × Nat)} {calls : List CallName} {p q : Prog α}
    {said : List Exchange} (own : AsksOwn duty calls p) (leads : Leads setup p said q) :
    AsksOwn duty (calls ++ callsIn said) q := by
  induction leads with
  | nothing => exact own.more (List.subset_append_left _ _)
  | @told said q next before plain r ih =>
    rw [callsIn_snoc, ← List.append_assoc]
    exact ih.2 r
  | @runs said name arguments next before ih =>
    -- a command that is run by name has no duty of its own
    refine asksOwn_bind (modest_of_composed (composed_execute name arguments) _ _) ?_
    intro outcome more sub
    have next := ih.2 outcome
    rw [show Exchange.call? ⟨.run name arguments, outcome⟩ = none from rfl, Option.toList_none,
      List.append_nil] at next
    exact next.more sub

/-- All that a program asks in a dialogue is its own. -/
theorem AsksOwn.each {duty : Option (Nat × Nat)} {calls : List CallName} {p q : Prog α}
    {said : List Exchange} (own : AsksOwn duty calls p) (leads : Leads setup p said q) :
    EachAfter (fun past e => e.question.IsOwn duty (calls ++ callsIn past)) said := by
  induction leads with
  | nothing => exact .nil
  | told before plain r ih => exact ih.snoc (own.leads before).1
  | runs before ih => exact ih

/-- In every run each task asks for what is its own: it is told the results of its own calls
only, and answers only the request that it was begun for. -/
theorem own_of_run {actions : List Action} {s s' : Session} (fresh : s.tasks = [])
    (hrun : run actions s = some s') {task : Nat} {o : Origin}
    (begun : (origins actions s)[task]? = some o) :
    EachAfter (fun past e => e.question.IsOwn o.duty (callsIn past)) (dialogue task actions s) := by
  obtain ⟨p, leads⟩ := leads_of_begun fresh hrun begun
  exact (asksOwn_origin o).each leads

/-- Finding an answer is not giving it. -/
theorem unanswered_of_leads {i j : Nat} {method : String} {params : Json} {said : List Exchange}
    {p : Prog Outcome} {outcome : Outcome}
    (leads : Leads setup (Handler.answer setup method params) said p) :
    ⟨.respond i j outcome, ()⟩ ∉ said := by
  intro member
  obtain ⟨past, future, rfl⟩ := List.append_of_mem member
  have own := (modest_of_composed (composed_answer method params) none []).each leads _ _ _ rfl
  exact absurd own (by simp [Question.IsOwn])

/-- Who was begun to answer a request looks for the answer, or has given what it found and is
done. -/
theorem leads_of_request {server place : Nat} {method : String} {params : Json}
    {said : List Exchange} {p : Prog Result}
    (leads : Leads setup ((Origin.request server place method params).program setup) said p) :
    (∃ q, Leads setup (Handler.answer setup method params) said q ∧
        p = (q >>= fun outcome => ask (.respond server place outcome)) >>= fun _ => .done .nothing) ∨
      ∃ first outcome, said = first ++ [⟨.respond server place outcome, ()⟩] ∧
        Gives setup (Handler.answer setup method params) first outcome ∧ p = .done .nothing := by
  rcases Leads.of_bind leads with ⟨q, handling, rfl⟩ | ⟨_, first, second, rfl, handled, rest⟩
  · rcases Leads.of_bind handling with ⟨q', first, rfl⟩ | ⟨outcome, first, second, rfl, found, rest⟩
    · exact .inl ⟨q', first, rfl⟩
    · rcases Leads.of_ask rest rfl with ⟨rfl, rfl⟩ | ⟨r, rfl, rfl⟩
      · exact .inl ⟨.done outcome, (List.append_nil first).symm ▸ found, rfl⟩
      · exact .inr ⟨first, outcome, rfl, found, rfl⟩
  · obtain ⟨rfl, rfl⟩ := rest.of_done
    obtain ⟨outcome, first, second, rfl, found, given⟩ := Gives.of_bind handled
    obtain rfl := given.question rfl
    exact .inr ⟨first, outcome, List.append_nil _, found, rfl⟩

/-- Who was begun to answer a request answers it last, with what came of finding the answer,
and answers nothing else. -/
theorem responded_of_leads {server place i j : Nat} {method : String} {params : Json}
    {said : List Exchange} {p : Prog Result} {outcome : Outcome}
    (leads : Leads setup ((Origin.request server place method params).program setup) said p)
    (responded : ⟨.respond i j outcome, ()⟩ ∈ said) :
    i = server ∧ j = place ∧ ∃ first, said = first ++ [⟨.respond server place outcome, ()⟩] ∧
      Gives setup (Handler.answer setup method params) first outcome := by
  rcases leads_of_request leads with ⟨q, looking, -⟩ | ⟨first, outcome', rfl, found, -⟩
  · exact absurd responded (unanswered_of_leads looking)
  · rcases List.mem_append.mp responded with early | last
    · exact absurd early (unanswered_of_leads found)
    · have same := List.mem_singleton.mp last
      simp only [Exchange.mk.injEq, Question.respond.injEq] at same
      obtain ⟨⟨rfl, rfl, rfl⟩, -⟩ := same
      exact ⟨rfl, rfl, first, rfl, found⟩

/-- Who is about to answer a request has found what it answers with. -/
theorem found_of_request {server place i j : Nat} {method : String} {params : Json}
    {said : List Exchange} {outcome : Outcome} {next : Unit → Prog Result}
    (leads : Leads setup ((Origin.request server place method params).program setup) said
      (.ask (.respond i j outcome) next)) :
    Gives setup (Handler.answer setup method params) said outcome := by
  rcases leads_of_request leads with ⟨q, looking, same⟩ | ⟨_, _, -, -, same⟩
  · cases q with
    | done found =>
      obtain ⟨question, -⟩ := Program.ask.inj same
      obtain ⟨-, -, rfl⟩ := Question.respond.inj question
      exact looking
    | ask question following =>
      obtain ⟨rfl, -⟩ := Program.ask.inj same
      -- to look for an answer is not to give one
      have own := (modest_of_composed (composed_answer method params) none []).leads looking
      exact absurd own.1 (by simp [Question.IsOwn])
  · contradiction

end EmberClient.Session
