import EmberClient.Proofs.Session.Dialogue
import EmberClient.Proofs.Session.Parts

/-!
# What programs write on the main status item

Starts, reloads and watchers write the same item, each on its own. What a program may
write there depends on what it has done so far, and that is little: its `Stance` tells
whether it is in a transition, whether it has shown that it reloads, and whether it owes
a text that lasts, because it has changed the state or shown a text that does not.

`Candid` says of a program, whatever it is told, that it writes only what its stance
allows, and that it ends, runs a command or waits for an exit only when it owes nothing.
Every program of a session is candid, activation and stop apart.
-/

namespace EmberClient.Session

variable {setup : Setup} {α β : Type} {w : Bool}

/-! ## Stances -/

/-- The texts of the main item between two starts. -/
def readyText : String := StatusItem.text StatusItem.ready
def goneText : String := StatusItem.text StatusItem.noServer
def reloadingText : String := StatusItem.text StatusItem.reloading

/-- A text that may stay when nothing is in progress. -/
def lasts (text : String) : Bool := text = readyText || text = goneText

/-- The text that a question sets on the main item. -/
def Question.mainText? : Question → Option String
  | .status item text => if item = StatusItem.main then some text else none
  | _ => none

/-- The state that a question sets. -/
def Question.newState? : Question → Option ServerState
  | .setState new => some new
  | _ => none

/-- How a program stands to the main item. -/
structure Stance where
  /-- It holds the lock on transitions. -/
  inside : Bool := false
  /-- It has shown that it reloads, and nothing since. -/
  reloading : Bool := false
  /-- It has still to show a text that lasts. -/
  owes : Bool := false
  deriving DecidableEq

/-- The stance after a question. That a restart has begun is nothing to tell: it sets
another state before it ends. -/
def Stance.after (st : Stance) : Question → Stance
  | .lock => { st with inside := true }
  | .unlock => { st with inside := false }
  | .setState state => { st with owes := st.owes || state != .restarting }
  | .status item text =>
    if item = StatusItem.main then
      { st with reloading := text = reloadingText, owes := !lasts text }
    else st
  | _ => st

/-- The stance after a dialogue. -/
def stanceOf (said : List Exchange) : Stance := said.foldl (fun st e => st.after e.question) {}

theorem stanceOf_snoc (said : List Exchange) (e : Exchange) :
    stanceOf (said ++ [e]) = (stanceOf said).after e.question := by
  simp only [stanceOf, List.foldl_append, List.foldl_cons, List.foldl_nil]

/-- Questions that leave the stance as it is, and may be asked in any. -/
def isUnseen : Question → Bool
  | .lock | .unlock | .setState _ | .run .. | .closed _ => false
  | .status item _ => item != StatusItem.main
  | _ => true

/-- A question that shows nothing and locks nothing leaves the stance alone. -/
theorem after_of_unseen {q : Question} (h : isUnseen q = true) (st : Stance) : st.after q = st := by
  cases q with
  | lock | unlock | setState => exact absurd h (by simp [isUnseen])
  | status item text => exact if_neg (by simpa [isUnseen] using h)
  | _ => rfl

/-! ## Candid programs -/

/-- What a program may ask in a stance. `w` tells whether it watches a server. -/
def Question.IsCandid (w : Bool) (st : Stance) : Question → Prop
  | .run .. => st = {}
  | .closed _ => st = {} ∧ w = true
  | .status item text => item = StatusItem.main →
    (text = readyText → st.inside = true ∨ st.reloading = true) ∧
      (text = goneText → st.inside = true ∨ w = true)
  | _ => True

/-- Whatever it is told, the program asks what it may, and ends in such a stance. -/
def Candid (w : Bool) {α : Type} (R : Stance → Prop) : Stance → Prog α → Prop
  | st, .done _ => R st
  | st, .ask q next => q.IsCandid w st ∧ ∀ r, Candid w R (st.after q) (next r)

/-- The second program is candid from every stance in which the first can end. -/
theorem candid_bind {R S : Stance → Prop} {st : Stance} {p : Prog α} {f : α → Prog β}
    (first : Candid w R st p) (rest : ∀ a st', R st' → Candid w S st' (f a)) :
    Candid w S st (p >>= f) := by
  induction p generalizing st with
  | done a => exact rest a st first
  | ask q next ih => exact ⟨first.1, fun r => ih r (first.2 r)⟩

/-- One question. -/
theorem candid_ask {R : Stance → Prop} {st : Stance} {q : Question} {f : q.Reply → Prog β}
    (may : q.IsCandid w st) (rest : ∀ r, Candid w R (st.after q) (f r)) :
    Candid w R st (ask q >>= f) :=
  ⟨may, rest⟩

/-- From no duty to none. -/
def Faithful (w : Bool) {α : Type} (p : Prog α) : Prop := Candid w (· = {}) {} p

theorem faithful_pure (a : α) : Faithful w (.done a : Prog α) := rfl

/-- Faithful programs in a row are faithful. -/
theorem faithful_bind {p : Prog α} {f : α → Prog β} (first : Faithful w p)
    (rest : ∀ a, Faithful w (f a)) : Faithful w (p >>= f) := by
  refine candid_bind first ?_
  rintro a _ rfl
  exact rest a

/-- A question that shows nothing is candid from every stance. -/
theorem isCandid_of_unseen {q : Question} {st : Stance} (h : isUnseen q = true) :
    q.IsCandid w st := by
  cases q with
  | run | closed => exact absurd h (by simp [isUnseen])
  | status item text => exact fun main => absurd main (by simpa [isUnseen] using h)
  | _ => trivial

theorem candid_unseen {q : Question} {st : Stance} (h : isUnseen q = true) :
    Candid w (· = st) st (ask q) :=
  ⟨isCandid_of_unseen h, fun _ => after_of_unseen h st⟩

/-- A plain question shows nothing. -/
theorem isUnseen_of_plain {q : Question} (h : isPlain q = true) : isUnseen q = true := by
  cases q with
  | lock | unlock | setState | run | closed => exact absurd h (by simp [isPlain])
  | status item text => exact h
  | _ => rfl

/-- Who deals with servers leaves the item alone, and its duty as it is. -/
theorem candid_of_dealing {p : Prog α} (h : Dealing p) (st : Stance) : Candid w (· = st) st p := by
  -- along how the program is put together: none of its questions shows in the stance
  induction h with
  | pure a => exact rfl
  | bind first rest ihFirst ihRest =>
    refine candid_bind ihFirst ?_
    rintro a _ rfl
    exact ihRest a
  | @ask q h =>
    refine candid_unseen ?_
    cases q with
    | lock | unlock | setState | run | closed => exact absurd h (by simp [isDealing, isPlain])
    | status item text => exact h
    | _ => rfl
  | request | bid => exact ⟨trivial, fun _ => ⟨trivial, fun _ => rfl⟩⟩

/-- Talking to the server shows nothing. -/
theorem candid_request (server : Nat) (method : String) (params : Json) (st : Stance) :
    Candid w (· = st) st (request server method params) :=
  ⟨trivial, fun _ => ⟨trivial, fun _ => rfl⟩⟩

theorem candid_executeOnServer (name : String) (arguments : List Json) (st : Stance) :
    Candid w (· = st) st (Dispatch.executeOnServer name arguments) := by
  refine candid_ask trivial fun slot => ?_
  split
  · exact rfl
  · exact candid_request _ _ _ _

theorem candid_belongsTo (server : Nat) (name : String) (st : Stance) :
    Candid w (· = st) st (Dispatch.belongsTo server name) := by
  unfold Dispatch.belongsTo
  split
  · exact rfl
  · exact candid_ask trivial fun _ => rfl

/-- Routing a command shows nothing by itself. -/
theorem candid_route (name : String) (arguments : List Json) (st : Stance) :
    Candid w (· = st) st (Dispatch.route name arguments) := by
  refine candid_ask trivial fun slot => ?_
  split
  · refine candid_bind (candid_belongsTo _ _ _) ?_
    rintro belongs _ rfl
    split
    · exact candid_request _ _ _ _
    · exact candid_unseen rfl
  · split
    · exact rfl
    · exact candid_unseen rfl

/-! ## Transitions -/

/-- In a transition a program may write what it likes. -/
theorem isCandid_inside {st : Stance} (inside : st.inside = true) (item text : String) :
    (Question.status item text).IsCandid w st :=
  fun _ => ⟨fun _ => .inl inside, fun _ => .inl inside⟩

/-- In a transition, with nothing to tell. -/
def Stance.entered : Stance := { inside := true }

/-- A program is faithful if it is candid from the moment it has the lock. -/
theorem candid_locked {p : Prog α} (h : Candid w (· = .entered) .entered p) :
    Faithful w (Lifecycle.locked p) := by
  refine candid_ask trivial fun _ => candid_bind h ?_
  rintro a _ rfl
  exact candid_ask trivial fun _ => rfl

/-- A start shows its texts under the lock and owes none at its end. -/
theorem candid_startLocked :
    Candid w (· = .entered) .entered (Lifecycle.startLocked setup) := by
  refine candid_ask trivial fun state => ?_
  split
  · exact rfl
  · refine candid_ask trivial fun _ => candid_ask (isCandid_inside rfl _ _) fun _ => ?_
    refine candid_bind (candid_of_dealing dealing_bringUp _) ?_
    rintro result _ rfl
    split
    · refine candid_ask trivial fun _ => ?_
      exact candid_ask (isCandid_inside rfl _ _) fun _ => rfl
    · refine candid_ask trivial fun _ => candid_ask trivial fun _ => ?_
      refine candid_bind (candid_request _ _ _ _) ?_
      rintro _ _ rfl
      exact candid_ask (isCandid_inside rfl _ _) fun _ => candid_ask trivial fun _ => rfl

theorem faithful_start : Faithful w (Lifecycle.start setup) := candid_locked candid_startLocked

/-- A restart sets another state before it ends: its second half is a start. -/
theorem faithful_restart : Faithful w (Lifecycle.restart setup) := by
  refine candid_locked (candid_ask trivial fun state => ?_)
  split
  · exact rfl
  · refine candid_ask trivial fun _ => ?_
    refine candid_bind (candid_of_dealing dealing_shutDownCurrent _) ?_
    rintro _ _ rfl
    exact candid_startLocked

/-! ## Everything else -/

/-- A reload shows that it reloads before it shows that the server is ready. -/
theorem faithful_reloadProject : Faithful w Dispatch.reloadProject := by
  refine candid_ask (fun _ => ⟨?_, ?_⟩) fun _ => ?_
  · exact fun same => absurd same (by decide)
  · exact fun same => absurd same (by decide)
  refine candid_bind (candid_executeOnServer _ _ _) ?_
  rintro outcome _ rfl
  refine candid_ask (fun _ => ⟨?_, ?_⟩) fun _ => candid_of_dealing (dealing_contain _) _
  · exact fun _ => .inr rfl
  · exact fun same => absurd same (by decide)

/-- All that is composed is candid, whoever does it. -/
theorem faithful_of_composed {p : Prog α} (h : Composed setup p) : Faithful w p := by
  induction h with
  | pure a => exact faithful_pure a
  | bind first rest ihFirst ihRest => exact faithful_bind ihFirst ihRest
  | plain h => exact candid_unseen (isUnseen_of_plain h)
  | run name arguments => exact ⟨rfl, fun _ => rfl⟩
  | executeOnServer arguments _ => exact candid_executeOnServer _ _ _
  | route arguments _ => exact candid_route _ _ _
  | reloadProject => exact faithful_reloadProject
  | start => exact faithful_start
  | restart => exact faithful_restart

/-- The report of an exit ends on the text for a server that has gone. -/
theorem faithful_watchExit (server : Nat) : Faithful true (Lifecycle.watchExit server) := by
  refine candid_ask ⟨rfl, rfl⟩ fun _ => candid_ask trivial fun mine => ?_
  split
  · refine candid_ask trivial fun _ => candid_ask trivial fun _ => ?_
    refine candid_ask (fun _ => ⟨?_, fun _ => .inr rfl⟩) fun _ => ?_
    · exact fun same => absurd same (by decide)
    refine candid_ask trivial fun _ => candid_ask trivial fun _ => ?_
    exact candid_unseen rfl
  · exact rfl

/-! ## Tasks -/

def Origin.watches : Origin → Bool
  | .watcher _ => true
  | _ => false

/-- What a task is begun with, activation and stop apart. -/
theorem faithful_origin {o : Origin} (composed : ∀ work, o = .job work → work.isComposed = true) :
    Faithful o.watches (o.program setup) := by
  cases o with
  | job work =>
    by_cases direct : ∃ name arguments, work = .executeOnServer name arguments
    · obtain ⟨name, arguments, rfl⟩ := direct
      exact faithful_bind (candid_executeOnServer name arguments {}) fun _ => faithful_pure _
    · have whole : Composed setup (work.program setup) :=
        composed_job (composed work rfl) fun name arguments same => direct ⟨name, arguments, same⟩
      exact faithful_of_composed whole
  | watcher server => exact faithful_bind (faithful_watchExit server) fun _ => faithful_pure _
  | request server place method params =>
    refine faithful_bind ?_ fun _ => faithful_pure _
    refine faithful_bind (faithful_of_composed (composed_answer method params)) fun _ => ?_
    exact candid_unseen rfl

/-- A candid program goes on in the stance that its dialogue has brought it to. -/
theorem Faithful.leads {p q : Prog α} {said : List Exchange} (faithful : Faithful w p)
    (leads : Leads setup p said q) : Candid w (· = {}) (stanceOf said) q := by
  induction leads with
  | nothing => exact faithful
  | @told said q next before plain r ih =>
    rw [stanceOf_snoc]
    exact ih.2 r
  | @runs said name arguments next before ih =>
    -- a command is run with nothing owed, so what it does begins anew
    obtain ⟨calm, rest⟩ := ih
    rw [show stanceOf said = {} from calm] at rest ⊢
    exact faithful_bind (faithful_of_composed (composed_execute name arguments)) rest

end EmberClient.Session
