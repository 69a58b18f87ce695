import EmberClient.Proofs.Connection.Closing
import EmberClient.Proofs.Connection.Sending
import EmberClient.Proofs.Rpc.Stream

/-!
# What is left when the server's output has ended

When no more bytes come, the reader takes what is there message by message, sets the
mark and clears the entries, all by steps of its own. There is one exception: a length
that no body can have kills it on the way, and then nothing is marked or cleared.

`nobody_left` is about the moment at which nothing on the connection goes on any more:
if the reader is not dead, no caller is left waiting, be it that the entries were cleared
or that the connection was given up, which happens only when nobody waits on it.
-/

namespace EmberClient

open Text

namespace Frame

/-! ## The end of a stream -/

/-- At the end of the input what is left is a line. -/
theorem takeLine_ended (input : Bytes) : ∃ line rest, takeLine true input = some (line, rest) := by
  simp only [takeLine]
  split
  · exact ⟨_, _, rfl⟩
  · exact ⟨_, _, rfl⟩

/-- A block is not waited for once the input has ended. -/
theorem readBlock_ended {ended seen : Bool} {length : Option Nat} {input : Bytes}
    (spent : ended = true) : readBlock ended length seen input ≠ .waiting := by
  fun_induction readBlock ended length seen input with
  | case3 length seen input more waits =>
    obtain ⟨line, rest, taken⟩ := takeLine_ended input
    rw [spent, taken] at waits
    exact absurd waits (by simp)
  | _ => simp_all

theorem readBody_ended (length : Nat) (input : Bytes) : readBody true length input ≠ .waiting := by
  unfold readBody
  split
  · simp
  · split
    · simp
    · split <;> simp

/-- When no more bytes can come, nothing is waited for. -/
theorem read_ended (input : Bytes) : read true input ≠ .waiting := by
  unfold read
  split
  · simp
  · simp
  · next waits => exact absurd waits (readBlock_ended rfl)
  · simp
  · exact readBody_ended _ _

end Frame

namespace Connection

/-- A message that is taken leaves the input behind it alone. -/
theorem accept_input (c : Connection) (m : Message) :
    (c.accept m).1.input = c.input ∧ (c.accept m).1.inputEnded = c.inputEnded := by
  obtain ⟨pending, answers, requests, same⟩ := accept_eq c m
  rw [same]
  exact ⟨rfl, rfl⟩

/-- A run goes on from where its first transition leads. -/
theorem run_step {c c' : Connection} {a : Action} {e : Option Happening} {events : List Event}
    (stepped : Stepped c a e c' events) (rest : List Action) : run (a :: rest) c = run rest c' := by
  rw [run, (step_of_stepped stepped).1, Option.bind_some]

/-- A reader that has set the mark clears the entries next. -/
theorem clears {c : Connection} (closing : c.reader = .closing) :
    run [.read] c = some { c.clearPending with reader := .ended } :=
  run_step (.clears closing) []

/-- When the output has ended the reader comes to its end by steps of its own. -/
theorem reads_out {c : Connection} (spent : c.inputEnded = true) :
    ∃ n c', run (List.replicate n .read) c = some c' ∧ c'.step .read = none := by
  -- a message shortens what is left, anything else is the last
  induction left : c.input.length using Nat.strongRecOn generalizing c with
  | ind left shorter =>
    subst left
    cases reader : c.reader with
    | ended | dead =>
      refine ⟨0, c, rfl, ?_⟩
      simp only [Connection.step, read, reader]
    | closing => exact ⟨1, _, clears reader, rfl⟩
    | reading =>
      cases front : Frame.read c.inputEnded c.input with
      | waiting =>
        rw [spent] at front
        exact absurd front (Frame.read_ended _)
      | finished => exact ⟨2, _, (run_step (.ends reader front) _).trans (clears rfl), rfl⟩
      | failed fault => exact ⟨2, _, (run_step (.breaks reader front) _).trans (clears rfl), rfl⟩
      | oversized length => exact ⟨1, _, run_step (.dies reader front) [], rfl⟩
      | message m rest =>
        obtain ⟨input, ended⟩ := accept_input { c with input := rest } m
        have less : ({ c with input := rest }.accept m).1.input.length < c.input.length := by
          rw [input]
          exact Frame.length_lt_of_read front
        obtain ⟨n, c', goes, done⟩ := shorter _ less (ended.trans spent) rfl
        exact ⟨n + 1, c', (run_step (.takes reader front) _).trans goes, done⟩

/-! ## The end of the reader -/

/-- A reader that is at its end has cleared the entries, or was stopped when the connection
was given up. -/
def Finishes (h : List Happening) (c : Connection) : Prop :=
  c.reader = .ended → .cleared .reader ∈ h ∨ c.release ≠ .held

/-- What leaves the reader and the release alone leaves the end as it is. -/
theorem Finishes.same {h : List Happening} {c c' : Connection} (inv : Finishes h c)
    (e : Option Happening) (reader : c'.reader = c.reader ∨ c'.reader = .dead)
    (release : c'.release = c.release) : Finishes (h ++ e.toList) c' := by
  intro ended
  rcases reader with same | dead
  · rw [release]
    exact (inv (same ▸ ended)).imp (List.mem_append_left _) id
  · rw [dead] at ended
    exact absurd ended (by decide)

/-- No move ends the reader with its entries uncleared, unless the connection is given up. -/
theorem finishes_keep {h : List Happening} {c : Connection} {e : Option Happening}
    {c' : Connection} (inv : Finishes h c) (move : Move c e c') : Finishes (h ++ e.toList) c' := by
  cases move with
  | @take m rest reading read =>
    obtain ⟨-, -, -, reader, release, -⟩ := accept_fields { c with input := rest } m
    exact inv.same _ (Or.inl reader) release
  | endRead reading => exact fun ended => absurd ended (by simp)
  | clearRead closing =>
    exact fun _ => Or.inl (List.mem_append_right _ (List.mem_singleton_self _))
  | letGo held => exact fun _ => Or.inr (by simp)
  | markRelease stopping => exact fun _ => Or.inr (by simp)
  | clearRelease closing => exact fun _ => Or.inr (by simp)
  | notify same => exact inv.same _ same.reader same.release
  | respond same => exact inv.same _ same.reader same.release
  | quiet same => exact inv.same _ same.reader same.release
  | _ => exact inv.same _ (Or.inl rfl) rfl

theorem finishes_of_run {actions : List Action} {c : Connection} (h : run actions {} = some c) :
    Finishes (history actions {}) c :=
  run_induct (fun ended => absurd ended (by simp)) finishes_keep h

/-! ## What steps leave alone -/

/-- The writer does not come back, and giving up and the requests of the server are
changed only by steps that are about them. -/
structure Spares (c : Connection) (a : Action) (c' : Connection) : Prop where
  writing : c.writing = false → c'.writing = false
  release : a ≠ .release → c'.release = c.release
  requests : a ≠ .read → (∀ place outcome, a ≠ .answer place outcome) → c'.requests = c.requests

theorem spares_of_same {c c' : Connection} {a : Action} (writing : c'.writing = c.writing)
    (release : c'.release = c.release) (requests : c'.requests = c.requests) : c.Spares a c' :=
  ⟨fun gone => writing.trans gone, fun _ => release, fun _ _ => requests⟩

/-- Every action spares what is not its own. -/
theorem spares_of_step {c c' : Connection} {a : Action} {events : List Event}
    (hstep : c.step a = some (c', events)) : c.Spares a c' := by
  have stepped := stepped_of_step hstep
  generalize c.happening a = e at stepped
  cases stepped with
  | @takes m rest =>
    obtain ⟨-, -, -, -, release, writing⟩ := accept_fields { c with input := rest } m
    exact ⟨fun gone => writing.trans gone, fun _ => release, fun other => absurd rfl other⟩
  | loses => exact ⟨fun _ => rfl, fun _ => rfl, fun _ _ => rfl⟩
  | answers | forfeits =>
    exact ⟨fun gone => gone, fun _ => rfl, fun _ other => absurd rfl (other _ _)⟩
  | letsGo => exact ⟨fun _ => rfl, fun other => absurd rfl other, fun _ _ => rfl⟩
  | marksRelease | clearsRelease =>
    exact ⟨fun gone => gone, fun other => absurd rfl other, fun _ _ => rfl⟩
  | _ => exact spares_of_same rfl rfl rfl

/-! ## A connection that is given up -/

/-- Once a connection is given up nothing more is queued on it, and nobody waits. -/
def Vacant (c : Connection) : Prop :=
  c.release ≠ .held →
    c.writing = false ∧ ∀ (place : Nat) (id : UInt64), c.callers[place]? ≠ some (.waiting id)

theorem vacant_start : Vacant ({} : Connection) := fun gone => absurd rfl gone

/-- Who comes to wait has just had its request queued. -/
theorem GoesOn.waits {c : Connection} {place : Nat} {old : Caller} {id : UInt64}
    {e : Option Happening} (goes : c.GoesOn place old (.waiting id) e) :
    ∃ m, e = some (.requested place m) := by
  cases goes with
  | request => exact ⟨_, rfl⟩

/-- A request is queued only while there is a writer. -/
theorem Move.writing {c c' : Connection} {place : Nat} {m : Message}
    (move : Move c (some (.requested place m)) c') : c.writing = true := by
  cases move with
  | request stands writing => exact writing

/-- Who comes to wait has queued its request. -/
theorem Move.writing_of_waiting {c c' : Connection} {e : Option Happening} (move : Move c e c')
    {place : Nat} {id : UInt64} (now : c'.callers[place]? = some (.waiting id)) :
    c.callers[place]? = some (.waiting id) ∨ c.writing = true := by
  rcases move.stood_or_came now with stood | ⟨_, _, new⟩ | ⟨old, -, goes⟩
  · exact Or.inl stood
  · exact absurd new (by simp)
  · obtain ⟨m, rfl⟩ := goes.waits
    exact Or.inr move.writing

/-- Every action keeps this, if a connection is released only when no caller is open. -/
theorem Vacant.step {c c' : Connection} {a : Action} {events : List Event} (inv : Vacant c)
    (hstep : c.step a = some (c', events))
    (first : a = .release → ∀ caller ∈ c.callers, caller.isOpen = false) : Vacant c' := by
  intro gone
  have move := move_of_step hstep
  have spares := spares_of_step hstep
  by_cases held : c.release = .held
  · -- this is the first step of giving up
    obtain rfl : a = .release := by
      by_contra other
      exact gone ((spares.release other).trans held)
    obtain ⟨rfl, -⟩ := Prod.mk.inj
      (Option.some.inj (hstep.symm.trans (step_of_stepped (.letsGo held)).1))
    refine ⟨rfl, fun place id stands => ?_⟩
    have closed := first rfl _ (List.mem_of_getElem? stands)
    exact absurd closed (by simp [Caller.isOpen])
  · obtain ⟨writing, nobody⟩ := inv held
    refine ⟨spares.writing writing, fun place id stands => ?_⟩
    rcases move.writing_of_waiting stands with before | wrote
    · exact nobody place id before
    · rw [writing] at wrote
      exact absurd wrote (by simp)

/-! ## At rest -/

/-- Neither the reader nor any caller can go on. -/
def AtRest (c : Connection) : Prop :=
  c.step .read = none ∧ ∀ place, c.step (.advance place) = none

/-- Beyond the callers there is nobody to go on. -/
theorem atRest_iff (c : Connection) :
    (c.step .read = none ∧ ∀ place < c.callers.length, c.step (.advance place) = none) ↔
      c.AtRest := by
  refine and_congr_right fun _ => ⟨fun inside place => ?_, fun rest place _ => rest place⟩
  by_cases here : place < c.callers.length
  · exact inside place here
  · have beyond : c.callers[place]? = none := List.getElem?_eq_none (Nat.le_of_not_lt here)
    simp only [Connection.step, beyond, Option.bind_eq_bind, Option.bind_none]

instance (c : Connection) : Decidable c.AtRest := decidable_of_iff _ (atRest_iff c)

/-- The reader is at rest only at its end. -/
theorem reader_of_rest {c : Connection} (spent : c.inputEnded = true) (rest : c.step .read = none)
    (alive : c.reader ≠ .dead) : c.reader = .ended := by
  cases reader : c.reader with
  | ended => rfl
  | dead => exact absurd reader alive
  | closing => exact absurd rest (by simp [Connection.step, read, reader])
  | reading =>
    have front := Frame.read_ended c.input
    rw [← spent] at front
    simp only [Connection.step, read, reader] at rest
    split at rest
    · contradiction
    · contradiction
    · contradiction
    · contradiction
    · next waits => exact absurd waits front

/-- A caller at rest is done, or waits for an answer that is not there. -/
theorem waiting_of_rest {c : Connection} {place : Nat} {caller : Caller}
    (stands : c.callers[place]? = some caller) (rest : c.step (.advance place) = none) :
    caller.isOpen = false ∨ ∃ id, caller = .waiting id ∧ c.answer? place = none := by
  simp only [Connection.step, stands, Option.bind_eq_bind, Option.bind_some, Option.pure_def,
    Option.bind_eq_none_iff] at rest
  cases caller with
  | finished | abandoned => exact Or.inl rfl
  | waiting id =>
    refine Or.inr ⟨id, rfl, ?_⟩
    cases answer : c.answer? place with
    | none => rfl
    | some a => exact absurd rest (by simp [stepCaller, answer])
  | admitted id method params =>
    simp only [stepCaller] at rest
    split at rest
    · exact absurd rest (by simp)
    · exact absurd rest (by simp)
  | _ => exact absurd rest (by simp [stepCaller])

/-- **Nobody is left** when the server's output has ended and nothing goes on any more,
unless the reader died. -/
theorem nobody_left {h : List Happening} {c : Connection} (inv : Closing h c)
    (finishes : Finishes h c) (vacant : Vacant c) (spent : c.inputEnded = true)
    (alive : c.reader ≠ .dead) (rest : c.AtRest) (caller : Caller) (mem : caller ∈ c.callers) :
    caller.isOpen = false := by
  obtain ⟨place, stands⟩ := List.getElem?_of_mem mem
  rcases waiting_of_rest stands (rest.2 place) with done | ⟨id, rfl, unanswered⟩
  · exact done
  · rcases finishes (reader_of_rest spent rest.1 alive) with cleared | gone
    · have looked := inv.looks.waiting place id stands
      have counts : CountsOn id (.waiting id) := rfl
      rcases inv.entries.held place id _ stands counts with entry | ⟨a, ready⟩
      · exact absurd looked (inv.clearedOut _ cleared id place entry)
      · obtain ⟨b, found⟩ := answer?_of_mem ready
        rw [unanswered] at found
        exact absurd found (by simp)
    · exact absurd stands ((vacant gone).2 place id)

end Connection

end EmberClient
