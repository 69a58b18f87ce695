import EmberClient.Proofs.Connection.Requests

/-!
# When the writer fails

A server may stop taking what it is sent while it keeps its own output open. The next
message that the writer sends is lost then, with all that is queued behind it, and the
writer ends. It tells nobody, for it shares nothing with the callers but the queue. So it
depends on where a caller stands what it comes to know.

* Whose request is not queued yet (`Unasked`) finds the queue without its writer. It takes
  its entry back and fails, and so does every caller that begins later.
* Whose request is queued waits on, be it sent, lost, or behind the one that was lost. An
  entry goes when it is answered or when the entries are cleared, and not before
  (`Tracked.stands_on`).

> `failed_writer_turns_away`: what becomes of both, at every moment after the failure.

`failed_writer_strands` is a run after which three callers wait, and nobody is left who
would tell them.
-/

namespace EmberClient.Connection

/-! ## The failure -/

/-- The writer takes a message that the server does not take, and ends. -/
def WriteFails (c c' : Connection) : Prop :=
  c.serverReads = false ∧ c.step .write = some (c', [])

/-- The failure costs the queue and the writer, and nothing else. -/
theorem WriteFails.eq {c c' : Connection} (fails : WriteFails c c') :
    c' = { c with queue := [], writing := false } := by
  obtain ⟨deaf, hstep⟩ := fails
  cases stepped_of_step hstep with
  | writes _ _ reads => exact absurd (deaf.symm.trans reads) (by simp)
  | loses => rfl

/-- Once the writer is gone it stays so, and no request is queued. -/
theorem unqueued_of_gone {actions : List Action} {c c' : Connection} (gone : c.writing = false)
    (hrun : run actions c = some c') :
    c'.writing = false ∧ ∀ place m, .requested place m ∉ history actions c := by
  have kept := run_keeps (P := fun h c => c.writing = false ∧ ∀ place m, .requested place m ∉ h) ?_
    ⟨gone, fun _ _ => List.not_mem_nil⟩ hrun
  · rwa [List.nil_append] at kept
  · intro h c c' a events ⟨gone, silent⟩ hstep
    refine ⟨(spares_of_step hstep).writing gone, fun place m mem => ?_⟩
    rcases List.mem_append.mp mem with old | new
    · exact silent place m old
    · have move := move_of_step hstep
      rw [Option.mem_toList.mp new] at move
      exact absurd (gone.symm.trans move.writing) (by simp)

/-! ## Whose request is not queued -/

/-- A caller that has not queued its request, or failed instead. -/
def Unasked : Caller → Prop
  | .waiting _ | .abandoned => False
  | .finished result => result = .error .connectionClosed
  | _ => True

/-- Everybody is on that side of the queue where its request is. -/
def Sided (h : List Happening) (c : Connection) : Prop :=
  ∀ place caller, c.callers[place]? = some caller → (∃ m, .requested place m ∈ h) ∨ Unasked caller

/-- A caller that goes on has its request queued, or has still not asked. -/
theorem GoesOn.unasked {c : Connection} {place : Nat} {old new : Caller} {e : Option Happening}
    (goes : c.GoesOn place old new e) (unasked : Unasked old) :
    (∃ m, e = some (.requested place m)) ∨ Unasked new := by
  cases goes with
  | request => exact Or.inl ⟨_, rfl⟩
  | resolve | abandon => exact absurd unasked (by simp [Unasked])
  | withdraw => exact Or.inr rfl
  | _ => exact Or.inr trivial

/-- Every move keeps the callers on that side of the queue where their requests are. -/
theorem sided_keep {h : List Happening} {c c' : Connection} {e : Option Happening}
    (inv : Sided h c) (move : Move c e c') : Sided (h ++ e.toList) c' := by
  intro place caller now
  rcases move.stood_or_came now with stood | ⟨method, params, rfl⟩ | ⟨old, stood, goes⟩
  · exact (inv place caller stood).imp_left fun ⟨m, mem⟩ => ⟨m, List.mem_append_left _ mem⟩
  · exact Or.inr trivial
  · rcases inv place old stood with ⟨m, mem⟩ | unasked
    · exact Or.inl ⟨m, List.mem_append_left _ mem⟩
    · exact (goes.unasked unasked).imp_left fun ⟨m, new⟩ =>
        ⟨m, List.mem_append_right _ (Option.mem_toList.mpr new)⟩

theorem sided_of_run {actions : List Action} {c : Connection} (hrun : run actions {} = some c) :
    Sided (history actions {}) c :=
  run_induct (fun place caller stands => absurd stands (by simp)) sided_keep hrun

/-- A caller with an entry is turned away once the writer is gone. -/
theorem resolves_of_entered_unwritten {c : Connection} {place : Nat} {id : UInt64} {method : String}
    {params : Json} (gone : c.writing = false)
    (stands : c.callers[place]? = some (.entered id method params)) :
    c.Resolves place (.error .connectionClosed) := by
  cases closed : c.closed with
  | true => exact resolves_of_entered closed stands
  | false =>
    have hstep : c.stepCaller place (.entered id method params) =
        some (c, .admitted id method params) := by
      simp only [stepCaller, closed, Bool.false_eq_true, if_false]
    exact Resolves.step stands hstep rfl fun _ now _ _ still =>
      resolves_of_unwritten (still.trans gone) now

/-- So is a caller that has only its number. -/
theorem resolves_of_numbered_unwritten {c : Connection} {place : Nat} {id : UInt64} {method : String}
    {params : Json} (gone : c.writing = false)
    (stands : c.callers[place]? = some (.numbered id method params)) :
    c.Resolves place (.error .connectionClosed) :=
  Resolves.step stands rfl rfl fun _ now _ _ still =>
    resolves_of_entered_unwritten (still.trans gone) now

/-- When the writer is gone, a caller that has not queued its request fails by steps of its
own. -/
theorem resolves_of_unasked {c : Connection} {place : Nat} {caller : Caller} (gone : c.writing = false)
    (stands : c.callers[place]? = some caller) (unasked : Unasked caller) :
    c.Resolves place (.error .connectionClosed) := by
  cases caller with
  | fresh method params =>
    exact Resolves.step stands rfl rfl fun _ now _ _ still =>
      resolves_of_numbered_unwritten (still.trans gone) now
  | numbered id method params => exact resolves_of_numbered_unwritten gone stands
  | entered id method params => exact resolves_of_entered_unwritten gone stands
  | admitted id method params => exact resolves_of_unwritten gone stands
  | refused id => exact resolves_of_refused stands
  | finished result =>
    obtain rfl : result = .error .connectionClosed := unasked
    exact resolves_of_finished stands
  | waiting | abandoned => exact absurd unasked (by simp [Unasked])

/-! ## Whose request is queued -/

/-- Why the entry of a caller was dropped. -/
inductive Explained (h : List Happening) (c : Connection) (place : Nat) : Prop where
  /-- All entries were. -/
  | cleared (who : Closer) (mem : .cleared who ∈ h)
  /-- Its id was given to another caller, too. -/
  | shared {id : UInt64} {other : Nat} (apart : other ≠ place) (own : .numbered place id ∈ h)
      (others : .numbered other id ∈ h)
  /-- It took its entry back when it was done. -/
  | done {result : Except Fault Json} (stands : c.callers[place]? = some (.finished result))

/-- What explains a dropped answer still does after a move. -/
theorem Explained.keep {h : List Happening} {c c' : Connection} {e : Option Happening} {place : Nat}
    (explained : Explained h c place) (move : Move c e c') : Explained (h ++ e.toList) c' place := by
  cases explained with
  | cleared who mem => exact .cleared who (List.mem_append_left _ mem)
  | shared apart own others =>
    exact .shared apart (List.mem_append_left _ own) (List.mem_append_left _ others)
  | done stands => exact .done (move.stays stands rfl)

/-- What is dropped was dropped before, or goes with its entry. -/
theorem mem_dropEntries_dropped {c : Connection} {p : UInt64 × Nat → Bool} {place : Nat}
    (mem : (place, .dropped) ∈ (c.dropEntries p).answers) :
    (place, .dropped) ∈ c.answers ∨ ∃ id, (id, place) ∈ c.pending ∧ p (id, place) = true := by
  rcases List.mem_append.mp mem with dropped | old
  · obtain ⟨⟨id, q⟩, here, same⟩ := List.mem_map.mp dropped
    obtain ⟨rfl, -⟩ := Prod.mk.inj same
    exact Or.inr ⟨id, List.mem_filter.mp here⟩
  · exact Or.inl old

/-- A message of the server drops nothing. -/
theorem mem_accept_dropped {c : Connection} {m : Message} {place : Nat}
    (keys : (c.pending.map Prod.fst).Nodup) (mem : (place, .dropped) ∈ (c.accept m).1.answers) :
    (place, .dropped) ∈ c.answers := by
  by_cases waited : ∃ id place outcome, (id, place) ∈ c.pending ∧ m.Answers id outcome
  · obtain ⟨id, other, outcome, entry, answers⟩ := waited
    rw [(accept_of_answered keys entry answers).2] at mem
    exact (List.mem_cons.mp mem).resolve_left (by simp)
  · rwa [(accept_of_unanswered fun id place outcome entry answers =>
      waited ⟨id, place, outcome, entry, answers⟩).2] at mem

/-- Entries are tracked: why one went is known. -/
structure Tracked (h : List Happening) (c : Connection) : Prop where
  closing : Closing h c
  named : Named h c
  dropped : ∀ place, (place, .dropped) ∈ c.answers → Explained h c place

/-- Who loses its entry to another caller has its id in common with it. -/
theorem Tracked.shared {h : List Happening} {c : Connection} (inv : Tracked h c)
    {place other : Nat} {id : UInt64} {caller : Caller} (entry : (id, place) ∈ c.pending)
    (stands : c.callers[other]? = some caller) (named : caller.id? = some id)
    (apart : other ≠ place) : Explained h c place := by
  obtain ⟨before, between, split, numbered, -⟩ := inv.closing.matched.awaited id place entry
  refine .shared apart ?_ (inv.named.stands other caller id stands named)
  rw [split]
  exact List.mem_append_left _ numbered

/-- Every answer that is dropped has its explanation. -/
theorem Tracked.explains {h : List Happening} {c c' : Connection} {e : Option Happening}
    (inv : Tracked h c) (move : Move c e c') (place : Nat) (mem : (place, .dropped) ∈ c'.answers) :
    Explained (h ++ e.toList) c' place := by
  cases id move with
  | @enter other key method params stands =>
    rcases mem_dropEntries_dropped mem with old | ⟨id, entry, same⟩
    · exact (inv.dropped place old).keep move
    · obtain rfl : id = key := of_decide_eq_true same
      -- who enters has no entry yet
      have apart : other ≠ place := by
        rintro rfl
        exact not_reached stands (by simp [Caller.stage]) (inv.closing.entries.entered entry)
      exact (inv.shared entry stands rfl apart).keep move
  | @withdraw other key stands =>
    rcases mem_dropEntries_dropped mem with old | ⟨id, entry, same⟩
    · exact (inv.dropped place old).keep move
    · obtain rfl : id = key := of_decide_eq_true same
      by_cases own : other = place
      · subst own
        exact .done (move.resolved).1
      · exact (inv.shared entry stands rfl own).keep move
  | clearRead | clearRelease => exact .cleared _ (List.mem_append_right _ (List.mem_singleton_self _))
  | resolve stands answer => exact (inv.dropped place (List.mem_filter.mp mem).1).keep move
  | @take m rest reading read =>
    have old := mem_accept_dropped (c := { c with input := rest }) inv.closing.matched.keys mem
    exact (inv.dropped place old).keep move
  | notify same | respond same | quiet same =>
    exact (inv.dropped place (same.answers ▸ mem)).keep move
  | _ => exact (inv.dropped place mem).keep move

/-- So the entries are tracked in every run. -/
theorem tracked_of_run {actions : List Action} {c : Connection} (hrun : run actions {} = some c) :
    Tracked (history actions {}) c := by
  have start : run [] {} = some {} := rfl
  refine run_induct ⟨closing_of_run start, named_of_run start, ?_⟩ ?_ hrun
  · exact fun inv move =>
      ⟨closing_keep inv.closing move, named_keep inv.named move, inv.explains move⟩
  · exact fun place mem => absurd mem List.not_mem_nil

/-- An id that is given out once belongs to one caller. -/
theorem eq_of_numbered {h : List Happening} {place other : Nat} {id : UInt64}
    (ids : ((numbers h).map Prod.snd).Nodup) (one : .numbered place id ∈ h)
    (two : .numbered other id ∈ h) : place = other := by
  have listed : ∀ {p : Nat}, .numbered p id ∈ h → (p, id) ∈ numbers h := fun mem =>
    List.mem_filterMap.mpr ⟨_, mem, rfl⟩
  exact (Prod.mk.inj (List.inj_on_of_nodup_map ids (listed one) (listed two) rfl)).1

/-- Who waits without an answer comes to nothing by steps of its own. -/
theorem not_resolves_of_waiting {c : Connection} {place : Nat} {id : UInt64}
    (stands : c.callers[place]? = some (.waiting id)) (unanswered : c.answer? place = none)
    (result : Except Fault Json) : ¬ c.Resolves place result := by
  rintro ⟨n, c', hrun, done⟩
  cases n with
  | zero =>
    obtain rfl := Option.some.inj hrun
    simp [result?, stands] at done
  | succ n =>
    rw [List.replicate_succ, run, Connection.step, stands] at hrun
    simp [stepCaller, unanswered] at hrun

/-- Who waits keeps its entry and can only wait, until it is answered or the entries are
cleared. -/
theorem Tracked.stands_on {h : List Happening} {c : Connection} (inv : Tracked h c)
    (ids : ((numbers h).map Prod.snd).Nodup) {place : Nat} {id : UInt64}
    (stands : c.callers[place]? = some (.waiting id))
    (unanswered : ∀ outcome, ¬ AnsweredBy h place outcome) (uncleared : ∀ who, .cleared who ∉ h) :
    (id, place) ∈ c.pending ∧ ∀ result, ¬ c.Resolves place result := by
  have nothing : ∀ a, (place, a) ∉ c.answers := by
    intro a mem
    cases a with
    | response outcome => exact unanswered outcome (inv.closing.matched.answered place outcome mem)
    | dropped =>
      cases inv.dropped place mem with
      | cleared who cleared => exact uncleared who cleared
      | shared apart own others => exact apart (eq_of_numbered ids others own)
      | done finished => exact absurd (stands.symm.trans finished) (by simp)
  have counts : CountsOn id (.waiting id) := rfl
  refine ⟨?_, not_resolves_of_waiting stands ?_⟩
  · rcases inv.closing.entries.held place id _ stands counts with entry | ⟨a, mem⟩
    · exact entry
    · exact absurd mem (nothing a)
  · exact Option.eq_none_iff_forall_ne_some.mpr fun a found => nothing a (mem_of_answer? found)

/-! ## After the failure -/

/-- What holds at a moment after the writer failed, of which `before` is the history up to
the failure and `h` the whole. -/
structure Unwritten (before h : List Happening) (c : Connection) : Prop where
  /-- A notification fails at once and leaves everything as it was. -/
  notifies : ∀ method params, c.notify method params = .error .connectionClosed ∧
    c.step (.notify method params) = some (c, [])
  /-- No request was queued since. -/
  silent : ∀ place m, .requested place m ∈ h → .requested place m ∈ before
  /-- Whose request was not queued before fails by steps of its own. It has no other result,
  and when it is done it has no entry. -/
  turnedAway : ∀ place caller, c.callers[place]? = some caller →
    (∀ m, .requested place m ∉ before) →
    c.Resolves place (.error .connectionClosed) ∧
      ∀ result, c.result? place = some result →
        result = .error .connectionClosed ∧ ∀ id, (id, place) ∉ c.pending
  /-- Whose request was queued keeps its entry and can only wait, until it is answered or the
  entries are cleared. -/
  waits : c.callers.length < UInt64.size → ∀ place id, c.callers[place]? = some (.waiting id) →
    (∀ outcome, ¬ AnsweredBy h place outcome) → (∀ who, .cleared who ∉ h) →
    (id, place) ∈ c.pending ∧ ∀ result, ¬ c.Resolves place result
  /-- When they are cleared, none is left of a caller that saw no mark, and whoever was not
  answered fails as well. -/
  cleared : ∀ who, .cleared who ∈ h →
    (∀ place, .looked place false ∈ h → ∀ id, (id, place) ∉ c.pending) ∧
      ∀ place caller, c.callers[place]? = some caller → caller ≠ .abandoned →
        (∀ outcome, ¬ AnsweredBy h place outcome) → c.Resolves place (.error .connectionClosed)

/-- **A failed writer turns away who comes later, and leaves who waits to others.** It takes
the queue with it and nothing else; what that means for the callers holds at every moment
of every run that goes on from there. -/
theorem failed_writer_turns_away {first rest : List Action} {before failed c : Connection}
    (ran : run first {} = some before) (fails : WriteFails before failed)
    (goesOn : run rest failed = some c) :
    failed = { before with queue := [], writing := false } ∧
      Unwritten (history first {}) (history (first ++ .write :: rest) {}) c := by
  have onward : run (.write :: rest) before = some c := by
    rw [run, fails.2]
    exact goesOn
  have whole : run (first ++ .write :: rest) {} = some c := (run_append ran).trans onward
  have split : history (first ++ .write :: rest) {} = history first {} ++ history rest failed := by
    rw [history_append ran, history, fails.2]
    rfl
  have gone : failed.writing = false := by rw [fails.eq]
  obtain ⟨still, quiet⟩ := unqueued_of_gone gone goesOn
  have inv := tracked_of_run whole
  -- without a writer nothing is queued, so whatever was requested was requested before
  have silent : ∀ place m, .requested place m ∈ history (first ++ .write :: rest) {} →
      .requested place m ∈ history first {} := by
    intro place m mem
    rw [split] at mem
    exact (List.mem_append.mp mem).resolve_right (quiet place m)
  refine ⟨fails.eq, ?_, silent, ?_, ?_, ?_⟩
  · intro method params
    have lost : c.notify method params = .error .connectionClosed := by
      simp only [Connection.notify, enqueue, still, Bool.false_eq_true, if_false]
    exact ⟨lost, by simp only [Connection.step, lost]⟩
  · intro place caller stands unrequested
    -- a caller is on one side or the other: it has asked, or it comes too late
    have unasked : Unasked caller := by
      refine (sided_of_run whole place caller stands).resolve_left ?_
      rintro ⟨m, mem⟩
      exact unrequested m (silent place m mem)
    refine ⟨resolves_of_unasked still stands unasked, fun result done => ?_⟩
    cases caller with
    | finished other =>
      simp only [result?, stands, Option.some.injEq] at done
      refine ⟨done ▸ unasked, fun id entry => ?_⟩
      obtain ⟨owner, owns, keeps⟩ := inv.closing.entries.kept id place entry
      obtain rfl := Option.some.inj (stands.symm.trans owns)
      exact keeps
    | _ => simp [result?, stands] at done
  · intro few place id stands unanswered uncleared
    exact inv.stands_on ((numbering_of_run whole).ids_nodup few) stands unanswered uncleared
  · intro who cleared
    exact ⟨fun place looked id entry => inv.closing.clearedOut who cleared id place entry looked,
      fun place caller stands waits unanswered =>
        inv.closing.resolves cleared stands waits unanswered⟩

/-- Three callers queue their requests. The first is sent, then the server stops reading. -/
def threeRequests : List Action :=
  [.call "a" .null, .advance 0, .advance 0, .advance 0, .advance 0, .write,
    .call "b" .null, .advance 1, .advance 1, .advance 1, .advance 1,
    .call "c" .null, .advance 2, .advance 2, .advance 2, .advance 2, .stopReading]

/-- Where that leads to. -/
def threeWaiting : Connection where
  nextId := 4
  pending := [(3, 2), (2, 1), (1, 0)]
  queue := [.request 2 "b" .null, .request 3 "c" .null]
  written := [.request 1 "a" .null]
  serverReads := false
  callers := [.waiting 1, .waiting 2, .waiting 3]

/-- And what the failure of the writer makes of it. -/
def threeLeft : Connection := { threeWaiting with queue := [], writing := false }

theorem run_threeRequests : run threeRequests {} = some threeWaiting := rfl

theorem writeFails_threeWaiting : WriteFails threeWaiting threeLeft := ⟨rfl, rfl⟩

/-- The writer fails at the second of three requests. Then neither a caller nor the reader can
go on, all three wait for an answer, and their entries stand: the one whose request was
sent, the one whose request was lost, and the one behind. -/
theorem failed_writer_strands :
    ∃ before failed, run threeRequests {} = some before ∧ WriteFails before failed ∧
      failed.inputEnded = false ∧ failed.AtRest ∧
      failed.pending = [(3, 2), (2, 1), (1, 0)] ∧
      ¬ failed.Resolves 0 (.error .connectionClosed) ∧
      ¬ failed.Resolves 1 (.error .connectionClosed) ∧
      ¬ failed.Resolves 2 (.error .connectionClosed) := by
  have rest : threeLeft.AtRest := by decide +kernel
  have waits (place : Nat) (id : UInt64) (stands : threeLeft.callers[place]? = some (.waiting id)) :
      ¬ threeLeft.Resolves place (.error .connectionClosed) :=
    not_resolves_of_waiting stands rfl _
  exact ⟨_, _, run_threeRequests, writeFails_threeWaiting, rfl, rest, rfl, waits 0 1 rfl,
    waits 1 2 rfl, waits 2 3 rfl⟩

/-- `failed_writer_turns_away` where a fourth caller begins after the failure: it fails, and
the first waits on. -/
theorem failed_writer_turns_away_fourth :
    ∃ c, run [.call "d" .null, .advance 3] threeLeft = some c ∧
      (∃ caller, c.callers[3]? = some caller) ∧ c.Resolves 3 (.error .connectionClosed) ∧
      (1, 0) ∈ c.pending ∧ ∀ result, ¬ c.Resolves 0 result := by
  obtain ⟨c, goesOn, callers⟩ : ∃ c, run [.call "d" .null, .advance 3] threeLeft = some c ∧
      c.callers = [.waiting 1, .waiting 2, .waiting 3, .numbered 4 "d" .null] := ⟨_, rfl, rfl⟩
  have earlier : history threeRequests {} =
      [.numbered 0 1, .entered 0 1, .looked 0 false, .requested 0 (.request 1 "a" .null),
        .numbered 1 2, .entered 1 2, .looked 1 false, .requested 1 (.request 2 "b" .null),
        .numbered 2 3, .entered 2 3, .looked 2 false, .requested 2 (.request 3 "c" .null)] := rfl
  have happened : history (threeRequests ++ .write :: [.call "d" .null, .advance 3]) {} =
      history threeRequests {} ++ [.numbered 3 4] := rfl
  obtain ⟨-, after⟩ := failed_writer_turns_away run_threeRequests writeFails_threeWaiting goesOn
  rw [happened, earlier] at after
  have fourth : c.callers[3]? = some (.numbered 4 "d" .null) := by rw [callers]; rfl
  have first : c.callers[0]? = some (.waiting 1) := by rw [callers]; rfl
  have few : c.callers.length < UInt64.size := by rw [callers]; decide
  obtain ⟨turnedAway, -⟩ := after.turnedAway 3 _ fourth (by simp)
  exact ⟨c, goesOn, ⟨_, fourth⟩, turnedAway,
    after.waits few 0 1 first (not_answeredBy (by simp) 0) (by simp)⟩

end EmberClient.Connection
