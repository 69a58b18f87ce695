import EmberClient.Proofs.Connection.Matching

/-!
# Closing loses no caller

A caller puts its entry *before* it looks at the closing mark, and whoever closes
sets the mark *before* the entries are cleared. So a caller that saw no mark has an
entry that the clearing still finds, and one that comes later sees the mark and
takes its entry back. Three invariants carry the argument:

* `Marks`: when the mark is set, who set it, and that nothing is taken from the
  server after that;
* `Looks`: what a caller saw, and where that leaves it;
* `Entries`: whose the entries are, that a caller who waits has one or an answer,
  and that after the clearing none is left of a caller that saw no mark.

`closing_loses_nobody` puts them together, for the end of the server's output and
for a connection that is given up alike.
-/

namespace EmberClient.Connection

/-! ## The mark -/

/-- What the past of an entry must hold as to closing. -/
def InOrder (past : List Happening) (e : Happening) : Prop :=
  (∀ m, e = .took m → ∀ who, .marked who ∉ past) ∧
    (∀ who, e = .cleared who → .marked who ∈ past) ∧
    ∀ place closed, e = .looked place closed → (closed = true ↔ ∃ who, .marked who ∈ past)

/-- Where closing stands, and what has happened on the way there. -/
structure Marks (h : List Happening) (c : Connection) : Prop where
  closed_iff : c.closed = true ↔ ∃ who, .marked who ∈ h
  reader : c.reader = .closing → .marked .reader ∈ h
  release : c.release = .closing → .marked .release ∈ h
  ended : c.closed = true → c.reader ≠ .reading
  givenUp : c.release ≠ .held → c.reader ≠ .reading
  order : EachAfter InOrder h

/-- A happening of another kind is always in order. -/
theorem inOrder_of_other {past : List Happening} {e : Happening} (took : ∀ m, e ≠ .took m)
    (cleared : ∀ who, e ≠ .cleared who) (looked : ∀ place closed, e ≠ .looked place closed) :
    InOrder past e :=
  ⟨fun m he => absurd he (took m), fun who he => absurd he (cleared who),
    fun place closed he => absurd he (looked place closed)⟩

/-- A move that sets no mark and moves neither reader nor release on keeps `Marks`. -/
theorem Marks.same {h : List Happening} {c c' : Connection} {e : Option Happening}
    (inv : Marks h c) (unmarked : ∀ who, e ≠ some (.marked who)) (closed : c'.closed = c.closed)
    (reader : c'.reader = c.reader ∨ c'.reader = .dead) (release : c'.release = c.release)
    (order : ∀ x, e = some x → InOrder h x) : Marks (h ++ e.toList) c' := by
  have marked : ∀ who, .marked who ∈ h ++ e.toList ↔ .marked who ∈ h := by
    intro who
    rw [List.mem_append]
    exact ⟨fun mem => mem.resolve_right fun new => unmarked who (Option.mem_toList.mp new), Or.inl⟩
  refine ⟨?_, ?_, ?_, ?_, ?_, inv.order.append order⟩
  · rw [closed, inv.closed_iff]
    exact exists_congr fun who => (marked who).symm
  · intro hc
    rw [marked]
    rcases reader with same | dead
    · exact inv.reader (same ▸ hc)
    · rw [dead] at hc
      exact absurd hc (by decide)
  · intro hc
    rw [marked]
    exact inv.release (release ▸ hc)
  · intro hc
    rcases reader with same | dead
    · rw [same]; exact inv.ended (closed ▸ hc)
    · rw [dead]; decide
  · intro hr
    rcases reader with same | dead
    · rw [same]; exact inv.givenUp (release ▸ hr)
    · rw [dead]; decide

/-- Setting the mark, by a reader or a release that says so. -/
theorem Marks.mark {h : List Happening} {c c' : Connection} {who : Closer} (inv : Marks h c)
    (closed : c'.closed = true) (reader : c'.reader ≠ .reading)
    (closer : c'.reader = .closing → who = .reader ∨ c.reader = .closing)
    (releaser : c'.release = .closing → who = .release ∨ c.release = .closing) :
    Marks (h ++ [.marked who]) c' := by
  refine ⟨?_, ?_, ?_, fun _ => reader, fun _ => reader, inv.order.snoc ?_⟩
  · exact ⟨fun _ => ⟨who, List.mem_append_right _ (List.mem_singleton_self _)⟩, fun _ => closed⟩
  · intro hc
    rcases closer hc with rfl | old
    · exact List.mem_append_right _ (List.mem_singleton_self _)
    · exact List.mem_append_left _ (inv.reader old)
  · intro hc
    rcases releaser hc with rfl | old
    · exact List.mem_append_right _ (List.mem_singleton_self _)
    · exact List.mem_append_left _ (inv.release old)
  · exact inOrder_of_other (by simp) (by simp) (by simp)

/-- Something happens that has no place in the order of closing. -/
theorem Marks.other {h : List Happening} {c c' : Connection} {e : Happening} (inv : Marks h c)
    (marked : ∀ who, e ≠ .marked who) (took : ∀ m, e ≠ .took m) (cleared : ∀ who, e ≠ .cleared who)
    (looked : ∀ place closed, e ≠ .looked place closed) (closed : c'.closed = c.closed)
    (reader : c'.reader = c.reader ∨ c'.reader = .dead) (release : c'.release = c.release) :
    Marks (h ++ [e]) c' := by
  refine inv.same (e := some e) (fun who same => marked who (Option.some.inj same)) closed reader
    release ?_
  rintro x hx
  obtain rfl := Option.some.inj hx
  exact inOrder_of_other took cleared looked

/-- Clearing the entries, by a reader or a release that has set the mark. -/
theorem Marks.clear {h : List Happening} {c c' : Connection} {who : Closer} (inv : Marks h c)
    (mem : .marked who ∈ h) (closed : c'.closed = c.closed) (reader : c'.reader ≠ .reading)
    (closer : c'.reader = .closing → c.reader = .closing)
    (releaser : c'.release = .closing → c.release = .closing) :
    Marks (h ++ [.cleared who]) c' := by
  refine ⟨?_, ?_, ?_, fun _ => reader, fun _ => reader, inv.order.snoc ⟨by simp, ?_, by simp⟩⟩
  · rw [closed, inv.closed_iff]
    exact exists_congr fun who => by simp
  · exact fun hc => List.mem_append_left _ (inv.reader (closer hc))
  · exact fun hc => List.mem_append_left _ (inv.release (releaser hc))
  · rintro who' he
    obtain rfl := Happening.cleared.inj he
    exact mem

/-- Every move keeps the marks in step with the history. -/
theorem marks_keep {h : List Happening} {c : Connection} {e : Option Happening} {c' : Connection}
    (inv : Marks h c) (move : Move c e c') : Marks (h ++ e.toList) c' := by
  cases move with
  | look stands =>
    refine inv.same (by simp) rfl (Or.inl rfl) rfl ?_
    rintro x hx
    obtain rfl := Option.some.inj hx
    refine ⟨by simp, by simp, ?_⟩
    rintro place closed he
    obtain ⟨rfl, rfl⟩ := Happening.looked.inj he
    exact inv.closed_iff
  | @take m rest reading read =>
    obtain ⟨-, -, closed, reader, release, -⟩ := accept_fields { c with input := rest } m
    refine inv.same (by simp) closed (Or.inl reader) release ?_
    rintro x hx
    obtain rfl := Option.some.inj hx
    refine ⟨?_, by simp, by simp⟩
    intro _ _ who mem
    exact inv.ended (inv.closed_iff.mpr ⟨who, mem⟩) reading
  | endRead reading =>
    -- a reader that still reads has not been given up
    refine inv.mark rfl (by simp) (fun _ => Or.inl rfl) ?_
    intro hr
    exact absurd reading (inv.givenUp (by
      have hr' : c.release = .closing := hr
      rw [hr']
      decide))
  | clearRead closing => exact inv.clear (inv.reader closing) rfl (by simp) (by simp) id
  | letGo held =>
    -- only a reader that reads is stopped; one that is closing goes on
    have stopped : (if c.reader = .reading then Reader.ended else c.reader) ≠ .reading := by
      split
      · decide
      · assumption
    simp only [Option.toList_none, List.append_nil]
    refine ⟨inv.closed_iff, ?_, by simp, fun _ => stopped, fun _ => stopped, inv.order⟩
    intro hr
    refine inv.reader ?_
    revert hr
    show (if c.reader = .reading then Reader.ended else c.reader) = .closing → _
    split
    · exact fun h => absurd h (by decide)
    · exact id
  | markRelease stopping =>
    have stopped : c.reader ≠ .reading := inv.givenUp (by rw [stopping]; decide)
    exact inv.mark rfl stopped Or.inr (fun _ => Or.inl rfl)
  | clearRelease closing =>
    have stopped : c.reader ≠ .reading := inv.givenUp (by rw [closing]; decide)
    exact inv.clear (inv.release closing) rfl stopped id (by simp)
  | notify same | respond same =>
    exact inv.other (by simp) (by simp) (by simp) (by simp) same.closed same.reader same.release
  | quiet same => exact inv.same (by simp) same.closed same.reader same.release (by simp)
  | call _ _ | fail _ _ | abandon _ =>
    exact inv.same (by simp) rfl (Or.inl rfl) rfl (by simp)
  | number _ | enter _ | request _ _ | withdraw _ | resolve _ _ =>
    exact inv.other (by simp) (by simp) (by simp) (by simp) rfl (Or.inl rfl) rfl

theorem marks_start : Marks [] {} := by
  refine ⟨by simp, by simp, by simp, by simp, by simp, EachAfter.nil⟩

/-- Nothing is cleared before it is marked. -/
theorem Marks.closed_of_cleared {h : List Happening} {c : Connection} (inv : Marks h c)
    {who : Closer} (mem : .cleared who ∈ h) : c.closed = true := by
  obtain ⟨past, future, rfl⟩ := List.append_of_mem mem
  have marked := (inv.order past _ future rfl).2.1 who rfl
  exact inv.closed_iff.mpr ⟨who, List.mem_append_left _ marked⟩

/-! ## What a caller saw -/

/-- What callers saw when they looked, and where they stand since. -/
structure Looks (h : List Happening) (c : Connection) : Prop where
  looked : ∀ place closed, .looked place closed ∈ h → Reached c.callers place 3
  requested : ∀ place m, .requested place m ∈ h → Reached c.callers place 4
  turned : ∀ place, .looked place true ∈ h →
    (∃ id, c.callers[place]? = some (.refused id)) ∨
      c.callers[place]? = some (.finished (.error .connectionClosed))
  unrequested : ∀ place, .looked place true ∈ h → ∀ m, .requested place m ∉ h
  admitted : ∀ place id method params, c.callers[place]? = some (.admitted id method params) →
    .looked place false ∈ h
  waiting : ∀ place id, c.callers[place]? = some (.waiting id) → .looked place false ∈ h
  finished : ∀ place result, c.callers[place]? = some (.finished result) →
    .resolved place result ∈ h

/-- Who looks had its entry put, and is turned away or admitted by what it sees. -/
theorem Move.looked {c c' : Connection} {place : Nat} {closed : Bool}
    (move : Move c (some (.looked place closed)) c') :
    closed = c.closed ∧ ∃ id method params,
      c.callers[place]? = some (.entered id method params) ∧
        c'.callers[place]? = some (if closed then .refused id else .admitted id method params) := by
  cases move with
  | @look p id method params stands =>
    refine ⟨rfl, id, method, params, stands, ?_⟩
    show (c.callers.set place _)[place]? = _
    rw [List.getElem?_set_self', stands]
    rfl

/-- Whose request is queued was admitted, and waits. -/
theorem Move.requested {c c' : Connection} {place : Nat} {m : Message}
    (move : Move c (some (.requested place m)) c') :
    ∃ id method params, c.callers[place]? = some (.admitted id method params) ∧
      c'.callers[place]? = some (.waiting id) := by
  cases move with
  | @request p id method params stands writing =>
    refine ⟨id, method, params, stands, ?_⟩
    show (c.callers.set place _)[place]? = _
    rw [List.getElem?_set_self', stands]
    rfl

/-- Who is admitted after a move was so before, or has just seen no mark. -/
theorem Move.admitted {c c' : Connection} {e : Option Happening} (move : Move c e c') {p : Nat}
    {id : UInt64} {method : String} {params : Json}
    (h : c'.callers[p]? = some (.admitted id method params)) :
    c.callers[p]? = some (.admitted id method params) ∨ e = some (.looked p false) := by
  rcases move.stood_or_came h with old | ⟨_, _, new⟩ | ⟨old, -, goes⟩
  · exact Or.inl old
  · exact absurd new (by simp)
  · cases goes with
    | letIn => exact Or.inr rfl

/-- Who waits after a move waited before, or was admitted. -/
theorem Move.waiting {c c' : Connection} {e : Option Happening} (move : Move c e c') {p : Nat}
    {id : UInt64} (h : c'.callers[p]? = some (.waiting id)) :
    c.callers[p]? = some (.waiting id) ∨
      ∃ method params, c.callers[p]? = some (.admitted id method params) := by
  rcases move.stood_or_came h with old | ⟨_, _, new⟩ | ⟨old, stood, goes⟩
  · exact Or.inl old
  · exact absurd new (by simp)
  · cases goes with
    | request => exact Or.inr ⟨_, _, stood⟩

/-- Who is done after a move was done before, or is done by it. -/
theorem Move.finished {c c' : Connection} {e : Option Happening} (move : Move c e c') {p : Nat}
    {result : Except Fault Json} (h : c'.callers[p]? = some (.finished result)) :
    c.callers[p]? = some (.finished result) ∨ e = some (.resolved p result) := by
  rcases move.stood_or_came h with old | ⟨_, _, new⟩ | ⟨old, -, goes⟩
  · exact Or.inl old
  · exact absurd new (by simp)
  · cases goes with
    | withdraw => exact Or.inr rfl
    | resolve => exact Or.inr rfl

/-- Who was turned away can only take its entry back. -/
theorem Move.turned {c c' : Connection} {e : Option Happening} (move : Move c e c') {p : Nat}
    (h : (∃ id, c.callers[p]? = some (.refused id)) ∨
      c.callers[p]? = some (.finished (.error .connectionClosed))) :
    (∃ id, c'.callers[p]? = some (.refused id)) ∨
      c'.callers[p]? = some (.finished (.error .connectionClosed)) := by
  rcases h with ⟨id, stands⟩ | ended
  · rcases move.stands_or_goes stands with same | ⟨new, goes, now⟩
    · exact Or.inl ⟨id, same⟩
    · cases goes with
      | withdraw => exact Or.inr now
  · exact Or.inr (move.stays ended rfl)

/-- Every move keeps what the callers have seen in step with the history. -/
theorem looks_keep {h : List Happening} {c : Connection} {e : Option Happening} {c' : Connection}
    (inv : Looks h c) (move : Move c e c') : Looks (h ++ e.toList) c' := by
  refine ⟨?_, ?_, ?_, ?_, ?_, ?_, ?_⟩
  · intro place closed mem
    rcases List.mem_append.mp mem with old | new
    · exact move.reached (inv.looked place closed old)
    · obtain rfl := Option.mem_toList.mp new
      obtain ⟨-, id, method, params, -, now⟩ := move.looked
      refine ⟨_, now, ?_⟩
      split <;> simp [Caller.stage]
  · intro place m mem
    rcases List.mem_append.mp mem with old | new
    · exact move.reached (inv.requested place m old)
    · obtain rfl := Option.mem_toList.mp new
      obtain ⟨id, method, params, -, now⟩ := move.requested
      exact ⟨_, now, Nat.le_refl 4⟩
  · -- whoever was turned away takes its entry back, and does nothing else
    intro place mem
    rcases List.mem_append.mp mem with old | new
    · exact move.turned (inv.turned place old)
    · obtain rfl := Option.mem_toList.mp new
      obtain ⟨-, id, method, params, -, now⟩ := move.looked
      exact Or.inl ⟨id, now⟩
  · intro place mem m mem'
    rcases List.mem_append.mp mem with old | new
    · rcases List.mem_append.mp mem' with old' | new'
      · exact inv.unrequested place old m old'
      · -- the request of a caller that was turned away is not queued
        obtain rfl := Option.mem_toList.mp new'
        obtain ⟨id, method, params, stands, -⟩ := move.requested
        rcases inv.turned place old with ⟨_, refused⟩ | ended
        · rw [stands] at refused
          exact absurd refused (by simp)
        · rw [stands] at ended
          exact absurd ended (by simp)
    · obtain rfl := Option.mem_toList.mp new
      obtain ⟨-, id, method, params, stands, -⟩ := move.looked
      rcases List.mem_append.mp mem' with old' | new'
      · exact not_reached stands (by simp [Caller.stage]) (inv.requested place m old')
      · exact absurd (Option.mem_toList.mp new') (by simp)
  · intro place id method params now
    rcases move.admitted now with old | looked
    · exact List.mem_append_left _ (inv.admitted place id method params old)
    · exact List.mem_append_right _ (Option.mem_toList.mpr looked)
  · intro place id now
    rcases move.waiting now with old | ⟨method, params, admitted⟩
    · exact List.mem_append_left _ (inv.waiting place id old)
    · exact List.mem_append_left _ (inv.admitted place id method params admitted)
  · intro place result now
    rcases move.finished now with old | resolved
    · exact List.mem_append_left _ (inv.finished place result old)
    · exact List.mem_append_right _ (Option.mem_toList.mpr resolved)

theorem looks_start : Looks [] {} := by
  refine ⟨?_, ?_, ?_, ?_, ?_, ?_, ?_⟩
  all_goals simp

theorem looks_of_run {actions : List Action} {c : Connection} (h : run actions {} = some c) :
    Looks (history actions {}) c :=
  run_induct looks_start looks_keep h

/-! ## Entries and answers -/

/-- A caller whose entry stands under this id. One that stopped waiting leaves its
entry behind. -/
def Keeps (id : UInt64) : Caller → Prop
  | .entered id' _ _ | .admitted id' _ _ | .refused id' | .waiting id' => id' = id
  | .abandoned => True
  | .fresh _ _ | .numbered _ _ _ | .finished _ => False

/-- A caller that has put its entry under this id and still counts on an answer. -/
def CountsOn (id : UInt64) : Caller → Prop
  | .entered id' _ _ | .admitted id' _ _ | .waiting id' => id' = id
  | _ => False

/-- Whose the entries are, and that none is lost. -/
structure Entries (c : Connection) : Prop where
  kept : ∀ id place, (id, place) ∈ c.pending →
    ∃ caller, c.callers[place]? = some caller ∧ Keeps id caller
  held : ∀ place id caller, c.callers[place]? = some caller → CountsOn id caller →
    (id, place) ∈ c.pending ∨ ∃ a, (place, a) ∈ c.answers
  places : (c.pending.map Prod.snd).Nodup
  apart : ∀ id place a, (id, place) ∈ c.pending → (place, a) ∉ c.answers
  reached : ∀ place a, (place, a) ∈ c.answers → Reached c.callers place 2

/-- Entries go, if at all, to where their callers find an answer. -/
structure HandsOver (c c' : Connection) : Prop where
  pending : c'.pending.Sublist c.pending
  entry : ∀ id place, (id, place) ∈ c.pending →
    (id, place) ∈ c'.pending ∨ ∃ a, (place, a) ∈ c'.answers
  old : ∀ place a, (place, a) ∈ c.answers → (place, a) ∈ c'.answers
  new : ∀ place a, (place, a) ∈ c'.answers →
    (place, a) ∈ c.answers ∨ ∃ id, (id, place) ∈ c.pending ∧ (id, place) ∉ c'.pending

/-- Where entries and answers stay, nothing is lost between them. -/
theorem handsOver_same {c c' : Connection} (pending : c'.pending = c.pending)
    (answers : c'.answers = c.answers) : HandsOver c c' := by
  refine ⟨?_, ?_, ?_, ?_⟩
  · rw [pending]
  · intro id place mem
    exact Or.inl (pending ▸ mem)
  · intro place a mem
    exact answers ▸ mem
  · intro place a mem
    exact Or.inl (answers ▸ mem)

/-- An entry that is dropped leaves its answer behind. -/
theorem handsOver_dropEntries {c c' : Connection} (p : UInt64 × Nat → Bool)
    (pending : c'.pending = (c.dropEntries p).pending)
    (answers : c'.answers = (c.dropEntries p).answers) : HandsOver c c' := by
  refine ⟨?_, ?_, ?_, ?_⟩
  · rw [pending]
    exact List.filter_sublist
  · intro id place mem
    rw [pending, answers]
    cases hp : p (id, place) with
    | true =>
      refine Or.inr ⟨.dropped, List.mem_append_left _ ?_⟩
      exact List.mem_map.mpr ⟨(id, place), List.mem_filter.mpr ⟨mem, hp⟩, rfl⟩
    | false => exact Or.inl (List.mem_filter.mpr ⟨mem, by simp [hp]⟩)
  · intro place a mem
    rw [answers]
    exact List.mem_append_right _ mem
  · intro place a mem
    rw [answers] at mem
    rcases List.mem_append.mp mem with dropped | old
    · obtain ⟨⟨id, q⟩, he, same⟩ := List.mem_map.mp dropped
      obtain ⟨rfl, rfl⟩ := Prod.mk.inj same
      obtain ⟨mem, hp⟩ := List.mem_filter.mp he
      refine Or.inr ⟨id, mem, ?_⟩
      intro still
      rw [pending] at still
      have := (mem_dropEntries_pending still).2
      rw [hp] at this
      exact absurd this (by simp)
    · exact Or.inl old

/-- A message that takes an entry leaves the answer it brought. -/
theorem handsOver_accept {c : Connection} {m : Message} (keys : (c.pending.map Prod.fst).Nodup) :
    HandsOver c (c.accept m).1 := by
  -- a message takes at most the entry that it answers
  by_cases waited : ∃ id place outcome, (id, place) ∈ c.pending ∧ m.Answers id outcome
  · obtain ⟨id, place, outcome, mem, hm⟩ := waited
    obtain ⟨pending, answers⟩ := accept_of_answered keys mem hm
    refine ⟨?_, ?_, ?_, ?_⟩
    · rw [pending]
      exact List.filter_sublist
    · intro id' place' mem'
      by_cases same : id' = id
      · subst same
        have first := find?_key keys mem
        rw [find?_key keys mem'] at first
        obtain ⟨-, rfl⟩ := Prod.mk.inj (Option.some.inj first)
        exact Or.inr ⟨_, by rw [answers]; exact List.mem_cons_self ..⟩
      · exact Or.inl (by rw [pending]; exact List.mem_filter.mpr ⟨mem', by simp [same]⟩)
    · intro place' a mem'
      rw [answers]
      exact List.mem_cons_of_mem _ mem'
    · intro place' a mem'
      rw [answers] at mem'
      rcases List.mem_cons.mp mem' with new | old
      · obtain ⟨rfl, -⟩ := Prod.mk.inj new
        refine Or.inr ⟨id, mem, ?_⟩
        rw [pending, List.mem_filter]
        simp
      · exact Or.inl old
  · obtain ⟨pending, answers⟩ := accept_of_unanswered (c := c) (m := m)
      (fun id place outcome mem hm => waited ⟨id, place, outcome, mem, hm⟩)
    exact handsOver_same pending answers

/-- A caller keeps an entry only from its second stage on. -/
theorem stage_of_keeps {id : UInt64} {caller : Caller} (h : Keeps id caller) :
    2 ≤ caller.stage := by
  cases caller <;> simp_all [Keeps, Caller.stage]

/-- Whose entry stands has put it. -/
theorem Entries.entered {c : Connection} (inv : Entries c) {id : UInt64} {place : Nat}
    (mem : (id, place) ∈ c.pending) : Reached c.callers place 2 := by
  obtain ⟨caller, stands, keeps⟩ := inv.kept id place mem
  exact ⟨caller, stands, stage_of_keeps keeps⟩

/-- A caller has one entry. -/
theorem Entries.id_eq {c : Connection} (inv : Entries c) {id id' : UInt64} {place : Nat}
    (mem : (id, place) ∈ c.pending) (mem' : (id', place) ∈ c.pending) : id = id' :=
  (Prod.mk.inj (List.inj_on_of_nodup_map inv.places mem mem' rfl)).1

/-- A move that hands entries over keeps `Entries`, if the caller that goes on keeps
its entry while that stands, and counts on no new one. -/
theorem Entries.handOver {c c' : Connection} {e : Option Happening} (inv : Entries c)
    (move : Move c e c') (hands : HandsOver c c')
    (goes : ∀ place old new, c.callers[place]? = some old → c.GoesOn place old new e →
      (∀ id, Keeps id old → (id, place) ∈ c'.pending → Keeps id new) ∧
        ∀ id, CountsOn id new → CountsOn id old) : Entries c' := by
  refine ⟨?_, ?_, ?_, ?_, ?_⟩
  · intro id place mem
    obtain ⟨caller, stands, keeps⟩ := inv.kept id place (hands.pending.subset mem)
    rcases move.stands_or_goes stands with same | ⟨new, go, now⟩
    · exact ⟨caller, same, keeps⟩
    · exact ⟨new, now, (goes place caller new stands go).1 id keeps mem⟩
  · -- whoever counts on an answer did so before, when it had an entry or an answer
    intro place id caller now counts
    have before : (id, place) ∈ c.pending ∨ ∃ a, (place, a) ∈ c.answers := by
      rcases move.stood_or_came now with stood | ⟨_, _, rfl⟩ | ⟨old, stood, go⟩
      · exact inv.held place id caller stood counts
      · exact absurd counts (by simp [CountsOn])
      · exact inv.held place id old stood ((goes place old caller stood go).2 id counts)
    rcases before with mem | ⟨a, mem⟩
    · exact hands.entry id place mem
    · exact Or.inr ⟨a, hands.old place a mem⟩
  · exact inv.places.sublist (hands.pending.map _)
  · intro id place a mem mem'
    rcases hands.new place a mem' with old | ⟨id', there, gone⟩
    · exact inv.apart id place a (hands.pending.subset mem) old
    · obtain rfl := inv.id_eq there (hands.pending.subset mem)
      exact gone mem
  · intro place a mem
    rcases hands.new place a mem with old | ⟨id, there, -⟩
    · exact move.reached (inv.reached place a old)
    · exact move.reached (inv.entered there)

/-- Putting an entry keeps `Entries`: the caller had none before. -/
theorem Entries.enter {c : Connection} {place : Nat} {id : UInt64} {method : String} {params : Json}
    (inv : Entries c) (stands : c.callers[place]? = some (.numbered id method params)) :
    Entries { c.enter id place with callers := c.callers.set place (.entered id method params) } := by
  have move : Move c _ _ := .enter stands
  have hands : HandsOver c (c.dropEntries fun e => e.1 = id) := handsOver_dropEntries _ rfl rfl
  -- the caller has come too short a way for an entry or an answer to be its own
  have early : ¬ Reached c.callers place 2 := not_reached stands (by simp [Caller.stage])
  have now : (c.callers.set place (.entered id method params))[place]? =
      some (.entered id method params) := by
    rw [List.getElem?_set_self', stands]
    rfl
  refine ⟨?_, ?_, ?_, ?_, ?_⟩
  · intro id' p mem
    rcases List.mem_cons.mp mem with new | old
    · obtain ⟨rfl, rfl⟩ := Prod.mk.inj new
      exact ⟨_, now, rfl⟩
    · have there := hands.pending.subset old
      have other : place ≠ p := fun same => early (same ▸ inv.entered there)
      obtain ⟨caller, stood, keeps⟩ := inv.kept id' p there
      exact ⟨caller, by rw [List.getElem?_set_ne other]; exact stood, keeps⟩
  · intro p id' caller stood counts
    rcases getElem?_set_cases stood with ⟨rfl, rfl⟩ | ⟨-, old⟩
    · obtain rfl : id = id' := counts
      exact Or.inl (List.mem_cons_self ..)
    · rcases inv.held p id' caller old counts with mem | ⟨a, mem⟩
      · rcases hands.entry id' p mem with kept | answered
        · exact Or.inl (List.mem_cons_of_mem _ kept)
        · exact Or.inr answered
      · exact Or.inr ⟨a, hands.old p a mem⟩
  · refine List.nodup_cons.mpr ⟨?_, inv.places.sublist (hands.pending.map _)⟩
    intro mem
    obtain ⟨⟨id', p⟩, there, rfl⟩ := List.mem_map.mp mem
    exact early (inv.entered (hands.pending.subset there))
  · intro id' p a mem mem'
    rcases List.mem_cons.mp mem with new | old
    · obtain ⟨-, rfl⟩ := Prod.mk.inj new
      rcases hands.new p a mem' with before | ⟨id'', there, -⟩
      · exact early (inv.reached p a before)
      · exact early (inv.entered there)
    · -- an answer that is new is that of an entry which has just gone
      rcases hands.new p a mem' with before | ⟨id'', there, gone⟩
      · exact inv.apart id' p a (hands.pending.subset old) before
      · obtain rfl := inv.id_eq there (hands.pending.subset old)
        exact gone old
  · intro p a mem
    rcases hands.new p a mem with before | ⟨id', there, -⟩
    · exact move.reached (inv.reached p a before)
    · exact move.reached (inv.entered there)

/-- Taking an answer keeps `Entries`: who has an answer has no entry. -/
theorem Entries.resolve {c : Connection} {place : Nat} {id : UInt64} {a : Answer} (inv : Entries c)
    (stands : c.callers[place]? = some (.waiting id)) (answer : c.answer? place = some a) :
    Entries
      { c with
        answers := c.answers.filter fun a => a.1 ≠ place
        callers := c.callers.set place (.finished a.result) } := by
  have move : Move c _ _ := .resolve stands answer
  refine ⟨?_, ?_, inv.places, ?_, ?_⟩
  · intro id' p mem
    have other : place ≠ p := fun same => inv.apart id' p a mem (same ▸ mem_of_answer? answer)
    obtain ⟨caller, stood, keeps⟩ := inv.kept id' p mem
    exact ⟨caller, by rw [List.getElem?_set_ne other]; exact stood, keeps⟩
  · intro p id' caller stood counts
    rcases getElem?_set_cases stood with ⟨rfl, rfl⟩ | ⟨other, old⟩
    · exact absurd counts (by simp [CountsOn])
    · rcases inv.held p id' caller old counts with mem | ⟨b, mem⟩
      · exact Or.inl mem
      · exact Or.inr ⟨b, List.mem_filter.mpr ⟨mem, by simp [other]⟩⟩
  · intro id' p b mem mem'
    exact inv.apart id' p b mem (List.mem_filter.mp mem').1
  · intro p b mem
    exact move.reached (inv.reached p b (List.mem_filter.mp mem).1)

/-- Who goes on without putting an entry or being done keeps its entry, and counts
on no new one. -/
theorem GoesOn.keeps {c : Connection} {place : Nat} {old new : Caller} {e : Option Happening}
    (goes : c.GoesOn place old new e) (entered : ∀ p id, e ≠ some (.entered p id))
    (resolved : ∀ p result, e ≠ some (.resolved p result)) :
    (∀ id, Keeps id old → Keeps id new) ∧ ∀ id, CountsOn id new → CountsOn id old := by
  cases goes with
  | number =>
    exact ⟨fun _ keeps => absurd keeps (by simp [Keeps]),
      fun _ counts => absurd counts (by simp [CountsOn])⟩
  | enter => exact absurd rfl (entered _ _)
  | refuse | fail => exact ⟨fun _ keeps => keeps, fun _ counts => absurd counts (by simp [CountsOn])⟩
  | letIn | request => exact ⟨fun _ keeps => keeps, fun _ counts => counts⟩
  | withdraw | resolve => exact absurd rfl (resolved _ _)
  | abandon => exact ⟨fun _ _ => trivial, fun _ counts => absurd counts (by simp [CountsOn])⟩

/-- Who is done with its entry taken back leaves none. -/
theorem Entries.withdraw {c : Connection} {place : Nat} {id : UInt64} (inv : Entries c)
    (stands : c.callers[place]? = some (.refused id)) :
    Entries
      { c.withdraw id with
        callers := c.callers.set place (.finished (.error .connectionClosed)) } := by
  have move : Move c _ _ := .withdraw stands
  refine inv.handOver move (handsOver_dropEntries (fun e => e.1 = id) rfl rfl) ?_
  intro p old new stood goes
  generalize he : some (Happening.resolved place (.error .connectionClosed)) = e at goes
  cases goes with
  | withdraw =>
    -- the one that goes on is the one that was refused
    obtain ⟨rfl, -⟩ := Happening.resolved.inj (Option.some.inj he)
    rw [stands] at stood
    obtain rfl := Caller.refused.inj (Option.some.inj stood)
    constructor
    · rintro id' rfl mem
      have gone : (id, place) ∈ (c.dropEntries fun e => e.1 = id).pending := mem
      exact absurd (mem_dropEntries_pending gone).2 (by simp)
    · exact fun _ counts => absurd counts (by simp [CountsOn])
  | resolve =>
    obtain ⟨rfl, -⟩ := Happening.resolved.inj (Option.some.inj he)
    rw [stands] at stood
    exact absurd stood (by simp)
  | _ => exact absurd he (by simp)

/-- Every move keeps each waiting caller with an entry or an answer. -/
theorem entries_keep {h : List Happening} {c : Connection} {e : Option Happening} {c' : Connection}
    (matched : Matched h c) (inv : Entries c) (move : Move c e c') : Entries c' := by
  have keeps : (∀ p id, e ≠ some (.entered p id)) → (∀ p result, e ≠ some (.resolved p result)) →
      HandsOver c c' → Entries c' := by
    intro entered resolved hands
    refine inv.handOver move hands ?_
    intro place old new _ goes
    obtain ⟨kept, counted⟩ := goes.keeps entered resolved
    exact ⟨fun id hold _ => kept id hold, counted⟩
  cases id move with
  | enter stands => exact inv.enter stands
  | withdraw stands => exact inv.withdraw stands
  | resolve stands answer => exact inv.resolve stands answer
  | @take m rest reading read =>
    have hands := handsOver_accept (c := { c with input := rest }) (m := m) matched.keys
    exact keeps (by simp) (by simp) ⟨hands.pending, hands.entry, hands.old, hands.new⟩
  | clearRead closing => exact keeps (by simp) (by simp) (handsOver_dropEntries _ rfl rfl)
  | clearRelease closing => exact keeps (by simp) (by simp) (handsOver_dropEntries _ rfl rfl)
  | notify same => exact keeps (by simp) (by simp) (handsOver_same same.pending same.answers)
  | respond same => exact keeps (by simp) (by simp) (handsOver_same same.pending same.answers)
  | quiet same => exact keeps (by simp) (by simp) (handsOver_same same.pending same.answers)
  | _ => exact keeps (by simp) (by simp) (handsOver_same rfl rfl)

theorem entries_start : Entries {} := by
  refine ⟨?_, ?_, ?_, ?_, ?_⟩
  all_goals simp

/-! ## After the clearing -/

/-- An entry that stands after a move stood before it, or has just been put. -/
theorem Move.entry {c c' : Connection} {e : Option Happening} (move : Move c e c')
    (keys : (c.pending.map Prod.fst).Nodup) {id : UInt64} {place : Nat}
    (mem : (id, place) ∈ c'.pending) :
    (id, place) ∈ c.pending ∨ e = some (.entered place id) := by
  cases move with
  | @enter p id' method params stands =>
    rcases List.mem_cons.mp mem with new | old
    · obtain ⟨rfl, rfl⟩ := Prod.mk.inj new
      exact Or.inr rfl
    · exact Or.inl (mem_dropEntries_pending old).1
  | @take m rest reading read =>
    exact Or.inl ((handsOver_accept (c := { c with input := rest }) keys).pending.subset mem)
  | withdraw stands => exact Or.inl (mem_dropEntries_pending mem).1
  | clearRead closing => exact Or.inl (mem_dropEntries_pending mem).1
  | clearRelease closing => exact Or.inl (mem_dropEntries_pending mem).1
  | notify same => exact Or.inl (same.pending ▸ mem)
  | respond same => exact Or.inl (same.pending ▸ mem)
  | quiet same => exact Or.inl (same.pending ▸ mem)
  | _ => exact Or.inl mem

/-- Clearing leaves no entry. -/
theorem Move.cleared {c c' : Connection} {who : Closer} (move : Move c (some (.cleared who)) c')
    (e : UInt64 × Nat) : e ∉ c'.pending := by
  cases move with
  | clearRead closing => exact fun mem => absurd (mem_dropEntries_pending mem).2 (by simp)
  | clearRelease closing => exact fun mem => absurd (mem_dropEntries_pending mem).2 (by simp)

/-- After the clearing, no entry is left of a caller that saw no mark. -/
def ClearedOut (h : List Happening) (c : Connection) : Prop :=
  ∀ who, .cleared who ∈ h → ∀ id place, (id, place) ∈ c.pending → .looked place false ∉ h

/-- All that is kept about closing. -/
structure Closing (h : List Happening) (c : Connection) : Prop where
  matched : Matched h c
  marks : Marks h c
  looks : Looks h c
  entries : Entries c
  clearedOut : ClearedOut h c

/-- After a clearing no move brings back the entry of a caller that saw no mark. -/
theorem clearedOut_keep {h : List Happening} {c : Connection} {e : Option Happening}
    {c' : Connection} (inv : Closing h c) (move : Move c e c') : ClearedOut (h ++ e.toList) c' := by
  intro who cleared id place mem
  rcases List.mem_append.mp cleared with before | new
  · have closed := inv.marks.closed_of_cleared before
    intro looked
    rcases List.mem_append.mp looked with old | now
    · rcases move.entry inv.matched.keys mem with stood | rfl
      · exact inv.clearedOut who before id place stood old
      · -- it puts its entry only now, so it has not looked
        have early : ∃ method params, c.callers[place]? = some (.numbered id method params) := by
          cases move with
          | enter stands => exact ⟨_, _, stands⟩
        obtain ⟨method, params, stands⟩ := early
        exact not_reached stands (by simp [Caller.stage]) (inv.looks.looked place false old)
    · obtain rfl := Option.mem_toList.mp now
      have same := move.looked.1
      rw [closed] at same
      exact absurd same (by simp)
  · obtain rfl := Option.mem_toList.mp new
    exact absurd mem (move.cleared _)

/-- Every move keeps all of this together. -/
theorem closing_keep {h : List Happening} {c : Connection} {e : Option Happening}
    {c' : Connection} (inv : Closing h c) (move : Move c e c') : Closing (h ++ e.toList) c' := by
  refine ⟨matched_keep inv.matched move, marks_keep inv.marks move, looks_keep inv.looks move, ?_,
    clearedOut_keep inv move⟩
  exact entries_keep inv.matched inv.entries move

theorem closing_of_run {actions : List Action} {c : Connection} (h : run actions {} = some c) :
    Closing (history actions {}) c := by
  refine run_induct ⟨matched_start, marks_start, looks_start, entries_start, ?_⟩ closing_keep h
  exact fun who cleared => absurd cleared List.not_mem_nil

/-! ## Coming to a result -/

/-- The caller at this place comes to this result by steps of its own. -/
def Resolves (c : Connection) (place : Nat) (result : Except Fault Json) : Prop :=
  ∃ n c', run (List.replicate n (.advance place)) c = some c' ∧ c'.result? place = some result

/-- A caller that is finished is resolved as it stands. -/
theorem resolves_of_finished {c : Connection} {place : Nat} {result : Except Fault Json}
    (stands : c.callers[place]? = some (.finished result)) : c.Resolves place result := by
  refine ⟨0, c, rfl, ?_⟩
  simp only [result?, stands]

/-- A caller comes to what it comes to after its next step. -/
theorem Resolves.step {c d : Connection} {place : Nat} {old new : Caller}
    {result : Except Fault Json} (stands : c.callers[place]? = some old)
    (hstep : c.stepCaller place old = some (d, new)) (same : d.callers = c.callers)
    (after : ∀ c' : Connection, c'.callers[place]? = some new → c'.closed = d.closed →
      c'.answers = d.answers → c'.writing = d.writing → c'.Resolves place result) :
    c.Resolves place result := by
  have now : (d.callers.set place new)[place]? = some new := by
    rw [same, List.getElem?_set_self', stands]
    rfl
  obtain ⟨n, c', hrun, hresult⟩ :=
    after { d with callers := d.callers.set place new } now rfl rfl rfl
  refine ⟨n + 1, c', ?_, hresult⟩
  simp only [List.replicate_succ, run, Connection.step, stands, hstep, Option.bind_eq_bind,
    Option.bind_some, Option.pure_def]
  exact hrun

/-- A refused caller ends with `ConnectionClosed` at its next step. -/
theorem resolves_of_refused {c : Connection} {place : Nat} {id : UInt64}
    (stands : c.callers[place]? = some (.refused id)) :
    c.Resolves place (.error .connectionClosed) :=
  Resolves.step stands rfl rfl fun _ now _ _ _ => resolves_of_finished now

/-- Who looks at the mark when it is set is turned away. -/
theorem resolves_of_entered {c : Connection} {place : Nat} {id : UInt64} {method : String}
    {params : Json} (closed : c.closed = true)
    (stands : c.callers[place]? = some (.entered id method params)) :
    c.Resolves place (.error .connectionClosed) := by
  have hstep : c.stepCaller place (.entered id method params) = some (c, .refused id) := by
    simp only [stepCaller, closed, if_true]
  exact Resolves.step stands hstep rfl fun _ now _ _ _ => resolves_of_refused now

/-- A caller that has only its number is refused once the connection is closed. -/
theorem resolves_of_numbered {c : Connection} {place : Nat} {id : UInt64} {method : String}
    {params : Json} (closed : c.closed = true)
    (stands : c.callers[place]? = some (.numbered id method params)) :
    c.Resolves place (.error .connectionClosed) :=
  Resolves.step stands rfl rfl fun _ now same _ _ => resolves_of_entered (same.trans closed) now

/-- So is a caller that has not even begun. -/
theorem resolves_of_fresh {c : Connection} {place : Nat} {method : String} {params : Json}
    (closed : c.closed = true) (stands : c.callers[place]? = some (.fresh method params)) :
    c.Resolves place (.error .connectionClosed) :=
  Resolves.step stands rfl rfl fun _ now same _ _ => resolves_of_numbered (same.trans closed) now

/-- Who waits takes the answer that lies ready. -/
theorem resolves_of_waiting {c : Connection} {place : Nat} {id : UInt64} {a : Answer}
    (answer : c.answer? place = some a) (stands : c.callers[place]? = some (.waiting id)) :
    c.Resolves place a.result := by
  have hstep : c.stepCaller place (.waiting id) =
      some ({ c with answers := c.answers.filter fun a => a.1 ≠ place }, .finished a.result) := by
    simp only [stepCaller, answer]
  exact Resolves.step stands hstep rfl fun _ now _ _ _ => resolves_of_finished now

/-- Who finds the writer gone is turned away. -/
theorem resolves_of_unwritten {c : Connection} {place : Nat} {id : UInt64} {method : String}
    {params : Json} (gone : c.writing = false)
    (stands : c.callers[place]? = some (.admitted id method params)) :
    c.Resolves place (.error .connectionClosed) := by
  have hstep : c.stepCaller place (.admitted id method params) = some (c, .refused id) := by
    simp only [stepCaller, enqueue, gone, Bool.false_eq_true, if_false]
  exact Resolves.step stands hstep rfl fun _ now _ _ _ => resolves_of_refused now

/-- Who queues its request only after its entry was cleared fails all the same. -/
theorem resolves_of_admitted {c : Connection} {place : Nat} {id : UInt64} {method : String}
    {params : Json} {a : Answer} (answer : c.answer? place = some a)
    (failed : a.result = .error .connectionClosed)
    (stands : c.callers[place]? = some (.admitted id method params)) :
    c.Resolves place (.error .connectionClosed) := by
  cases writing : c.writing with
  | true =>
    have hstep : c.stepCaller place (.admitted id method params) =
        some ({ c with queue := c.queue ++ [.request id method params] }, .waiting id) := by
      simp only [stepCaller, enqueue, writing, if_true]
    refine Resolves.step stands hstep rfl ?_
    intro c' now _ answers _
    have still : c'.answer? place = some a := by rw [← answer, answer?, answers, answer?]
    exact failed ▸ resolves_of_waiting still now
  | false => exact resolves_of_unwritten writing stands

/-- An answer that lies ready is found. -/
theorem answer?_of_mem {c : Connection} {place : Nat} {a : Answer} (mem : (place, a) ∈ c.answers) :
    ∃ b, c.answer? place = some b := by
  have found : (c.answers.find? fun a => a.1 = place).isSome = true := by
    rw [List.find?_isSome]
    exact ⟨(place, a), mem, by simp⟩
  obtain ⟨e, he⟩ := Option.isSome_iff_exists.mp found
  exact ⟨e.2, by rw [answer?, he]; rfl⟩

/-- Whose entry is gone and who was not answered finds that the conversation is over. -/
theorem Closing.dropped {h : List Happening} {c : Connection} (inv : Closing h c) {who : Closer}
    (cleared : .cleared who ∈ h) {place : Nat} {id : UInt64} {caller : Caller}
    (stands : c.callers[place]? = some caller) (counts : CountsOn id caller)
    (looked : .looked place false ∈ h) (unanswered : ∀ outcome, ¬ AnsweredBy h place outcome) :
    ∃ a, c.answer? place = some a ∧ a.result = .error .connectionClosed := by
  rcases inv.entries.held place id caller stands counts with mem | ⟨a, mem⟩
  · exact absurd looked (inv.clearedOut who cleared id place mem)
  · obtain ⟨b, found⟩ := answer?_of_mem mem
    refine ⟨b, found, ?_⟩
    cases b with
    | response outcome =>
      exact absurd (inv.matched.answered place outcome (mem_of_answer? found)) (unanswered outcome)
    | dropped => rfl

/-- After the clearing, whoever was not answered comes to know that the conversation
is over. -/
theorem Closing.resolves {h : List Happening} {c : Connection} (inv : Closing h c) {who : Closer}
    (cleared : .cleared who ∈ h) {place : Nat} {caller : Caller}
    (stands : c.callers[place]? = some caller) (waits : caller ≠ .abandoned)
    (unanswered : ∀ outcome, ¬ AnsweredBy h place outcome) :
    c.Resolves place (.error .connectionClosed) := by
  have closed := inv.marks.closed_of_cleared cleared
  -- how far the caller is tells what it still has to do; all of it ends in the same error
  cases caller with
  | fresh method params => exact resolves_of_fresh closed stands
  | numbered id method params => exact resolves_of_numbered closed stands
  | entered id method params => exact resolves_of_entered closed stands
  | admitted id method params =>
    have looked := inv.looks.admitted place id method params stands
    have counts : CountsOn id (.admitted id method params) := rfl
    obtain ⟨a, found, failed⟩ := inv.dropped cleared stands counts looked unanswered
    exact resolves_of_admitted found failed stands
  | refused id => exact resolves_of_refused stands
  | waiting id =>
    have looked := inv.looks.waiting place id stands
    have counts : CountsOn id (.waiting id) := rfl
    obtain ⟨a, found, failed⟩ := inv.dropped cleared stands counts looked unanswered
    exact failed ▸ resolves_of_waiting found stands
  | finished result =>
    have resolved := inv.looks.finished place result stands
    obtain ⟨past, future, rfl⟩ := List.append_of_mem resolved
    -- nothing has answered it, so what it is done with is that error
    obtain ⟨-, closed | ⟨outcome, -, answered⟩⟩ :=
      inv.matched.justified past _ future rfl place result rfl
    · exact resolves_of_finished (closed ▸ stands)
    · exact absurd (answered.append _) (unanswered outcome)
  | abandoned => exact absurd rfl waits

/-- What is answered at all is answered before the mark. -/
theorem Marks.answeredBy {h before after : List Happening} {c : Connection} {who : Closer}
    (inv : Marks h c) (split : h = before ++ .marked who :: after) {place : Nat}
    {outcome : Outcome} (answered : AnsweredBy h place outcome) :
    AnsweredBy before place outcome := by
  obtain ⟨id, past, m, future, eq, awaited, answers⟩ := answered
  have unmarked := (inv.order past _ future eq).1 m rfl who
  rw [split] at eq
  rcases List.append_eq_append_iff.mp eq with ⟨between, rfl, rest⟩ | ⟨between, rfl, rest⟩
  · cases between with
    | nil => exact absurd (List.cons.inj rest).1 (by simp)
    | cons e rest' =>
      obtain ⟨rfl, -⟩ := List.cons.inj rest
      exact absurd (List.mem_append_right _ (List.mem_cons_self ..)) unmarked
  · cases between with
    | nil => exact absurd (List.cons.inj rest).1 (by simp)
    | cons e rest' =>
      obtain ⟨rfl, -⟩ := List.cons.inj rest
      exact ⟨id, past, m, rest', rfl, awaited, answers⟩

/-- **Closing loses nobody**, whoever closes, and whatever happens in between. At every
moment of every run:

* once the entries were cleared, which comes after the mark, no caller that saw no
  mark has an entry, and every caller that was not answered before comes, by steps
  of its own, to know that the conversation is over;
* a caller that looks after the mark was set sees it: it learns that the
  conversation is over, its request is never queued, and when it is done it has no
  entry. -/
theorem closing_loses_nobody {actions : List Action} {c : Connection}
    (hrun : run actions {} = some c) :
    (∀ who before after, history actions {} = before ++ .cleared who :: after →
      .marked who ∈ before ∧
      (∀ place, .looked place false ∈ history actions {} → ∀ id, (id, place) ∉ c.pending) ∧
      ∀ place caller, c.callers[place]? = some caller → caller ≠ .abandoned →
        (∀ outcome, ¬ AnsweredBy before place outcome) →
        c.Resolves place (.error .connectionClosed)) ∧
    ∀ who before after, history actions {} = before ++ .marked who :: after →
      ∀ place closed, .looked place closed ∈ after →
        closed = true ∧ c.Resolves place (.error .connectionClosed) ∧
        (∀ m, .requested place m ∉ history actions {}) ∧
        ((c.result? place).isSome → ∀ id, (id, place) ∉ c.pending) := by
  have inv := closing_of_run hrun
  constructor
  · intro who before after eq
    -- whoever clears has set the mark before
    have marked := (inv.marks.order before _ after eq).2.1 who rfl
    have cleared : .cleared who ∈ history actions {} := by
      rw [eq]
      exact List.mem_append_right _ (List.mem_cons_self ..)
    refine ⟨marked, ?_, ?_⟩
    · intro place looked id mem
      exact inv.clearedOut who cleared id place mem looked
    · intro place caller stands waits unanswered
      refine inv.resolves cleared stands waits ?_
      intro outcome answered
      -- nothing is taken after the mark, so what answers the caller would have come before the
      -- clearing
      obtain ⟨early, between, rfl⟩ := List.append_of_mem marked
      rw [List.append_assoc, List.cons_append] at eq
      exact unanswered outcome ((inv.marks.answeredBy eq answered).append _)
  · intro who before after eq place closed mem
    obtain ⟨between, rest, rfl⟩ := List.append_of_mem mem
    have order := inv.marks.order (before ++ .marked who :: between) (.looked place closed) rest
      (by rw [eq, List.append_assoc, List.cons_append])
    -- it looks after the mark was set, so it sees it
    have saw : closed = true :=
      (order.2.2 place closed rfl).mpr ⟨who, List.mem_append_right _ (List.mem_cons_self ..)⟩
    subst saw
    have looked : .looked place true ∈ history actions {} := by
      rw [eq]
      exact List.mem_append_right _ (List.mem_cons_of_mem _ mem)
    refine ⟨rfl, ?_, inv.looks.unrequested place looked, ?_⟩
    · rcases inv.looks.turned place looked with ⟨id, refused⟩ | ended
      · exact resolves_of_refused refused
      · exact resolves_of_finished ended
    · intro done id entry
      obtain ⟨caller, stands, keeps⟩ := inv.entries.kept id place entry
      cases caller with
      | finished result => exact keeps
      | _ => exact absurd done (by simp [result?, stands])

/-- One caller waits when the connection is given up; another looks at the mark
just after it was set. -/
def lateCallers : List Action :=
  [.call "a" .null, .advance 0, .advance 0, .advance 0, .advance 0,
    .call "b" .null, .advance 1, .advance 1, .release, .release, .advance 1, .release]

theorem history_lateCallers :
    history lateCallers {} =
      [.numbered 0 1, .entered 0 1, .looked 0 false, .requested 0 (.request 1 "a" .null),
        .numbered 1 2, .entered 1 2, .marked .release, .looked 1 true, .cleared .release] := rfl

/-- `closing_loses_nobody` at these two: both come to know that it is over, and
nothing is sent for the second. -/
theorem closing_loses_nobody_late :
    ∃ c, run lateCallers {} = some c ∧ c.Resolves 0 (.error .connectionClosed) ∧
      c.Resolves 1 (.error .connectionClosed) ∧
      ∀ m, .requested 1 m ∉ history lateCallers {} := by
  obtain ⟨c, hrun⟩ : ∃ c, run lateCallers {} = some c := ⟨_, rfl⟩
  have waits : c.callers[0]? = some (.waiting 1) := by
    obtain rfl := Option.some.inj hrun
    rfl
  obtain ⟨cleared, marked⟩ := closing_loses_nobody hrun
  obtain ⟨-, -, first⟩ := cleared .release ((history lateCallers {}).take 8) [] rfl
  obtain ⟨-, second, unsent, -⟩ :=
    marked .release ((history lateCallers {}).take 6) ((history lateCallers {}).drop 7) rfl 1 true
      (by rw [history_lateCallers]; exact List.mem_cons_self ..)
  refine ⟨c, hrun, first 0 _ waits (by simp) ?_, second, unsent⟩
  -- nothing is taken from the server in this run
  rintro outcome ⟨id, past, m, future, eq, -⟩
  have took : .took m ∈ past ++ .took m :: future :=
    List.mem_append_right _ (List.mem_cons_self ..)
  rw [← eq, history_lateCallers] at took
  simp at took

end EmberClient.Connection
