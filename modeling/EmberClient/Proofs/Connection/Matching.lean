import EmberClient.Proofs.Connection.History
import Mathlib.Data.List.Perm.Subperm
import Mathlib.Data.List.Nodup

/-!
# Whose answer a caller gets

Many callers share one connection, and the server may answer in any order, twice,
or under an id that nobody waits under. Two invariants settle who gets what:

* `Numbering`: the ids that were given out are one, two, three, and so on, so up to
  `UInt64.size` callers no two have the same.
* `Matched`: under each entry a caller waits that put it there itself, and since then
  the reader took no response with its id; each answer that lies ready is the first
  response of that kind.

`request_matching` reads the fate of every request off them.
-/

namespace EmberClient

/-! ## Ids of responses -/

namespace Json

/-- An id that is written as a number is read back as the same id. -/
@[simp]
theorem word?_ofNat (id : UInt64) : (ofNat id.toNat).word? = some id := by
  have small : id.toNat < Decimal.twoTo 64 := id.toNat_lt
  have fits : Decimal.fitsUnsigned 64 (id.toNat : Int) = true :=
    Decimal.fitsUnsigned_iff.mpr ⟨Int.natCast_nonneg _, by exact_mod_cast small⟩
  simp only [ofNat, word?, fits, if_true, Int.toNat_natCast, UInt64.ofNat_toNat]

/-- Only the whole number itself is read as a word. -/
theorem eq_ofNat_of_word? {v : Json} {id : UInt64} (h : v.word? = some id) :
    v = ofNat id.toNat := by
  unfold word? at h
  split at h
  next n =>
    split at h
    next fits =>
      obtain ⟨nonneg, small⟩ := Decimal.fitsUnsigned_iff.mp fits
      obtain rfl := Option.some.inj h
      have below : n.toNat < 2 ^ 64 := by
        have : (Decimal.twoTo 64 : Int) = 2 ^ 64 := by decide
        omega
      rw [UInt64.toNat_ofNat_of_lt' below, ofNat, Int.toNat_of_nonneg nonneg]
    next => exact absurd h (by simp)
  next => exact absurd h (by simp)

end Json

/-- A message is a response whose id is this very number, with this outcome. -/
def Message.Answers (m : Message) (id : UInt64) (outcome : Outcome) : Prop :=
  m.incoming = .ok (.response (.ofNat id.toNat) outcome)

/-- A response has an id and no method. An error in it wins over a result, and without either the
result is null. -/
theorem Message.answers_iff {m : Message} {id : UInt64} {outcome : Outcome} :
    m.Answers id outcome ↔ m.method = none ∧ m.id = some (.ofNat id.toNat) ∧
      ((∃ error, m.error = some error ∧ outcome = .error error) ∨
        (m.error = none ∧ outcome = .ok (m.result.getD .null))) := by
  obtain ⟨jsonrpc, given, method, params, result, error⟩ := m
  unfold Answers incoming
  match given, method, error with
  | some v, none, some error => simp [eq_comm]
  | some v, none, none => simp [eq_comm]
  | some v, some method, _ => simp
  | none, some method, _ => simp
  | none, none, _ => simp

/-- A message answers one id at most. -/
theorem Message.Answers.id_eq {m : Message} {id id' : UInt64} {o o' : Outcome}
    (h : m.Answers id o) (h' : m.Answers id' o') : id = id' := by
  have same := h.symm.trans h'
  simp only [Except.ok.injEq, Incoming.response.injEq] at same
  have words := congrArg Json.word? same.1
  rw [Json.word?_ofNat, Json.word?_ofNat] at words
  exact Option.some.inj words

namespace Connection

/-! ## What taking a message does to the entries -/

/-- Where a response goes whose id is a word. -/
theorem deliver_of_word? {c : Connection} {v : Json} {id : UInt64} {outcome : Outcome}
    (h : v.word? = some id) :
    c.deliver v outcome =
      match c.pending.find? fun e => e.1 = id with
      | none => c
      | some (_, place) =>
        { c with
          pending := c.pending.filter fun e => e.1 ≠ id
          answers := (place, .response outcome) :: c.answers } := by
  unfold deliver
  split
  next unread =>
    rw [h] at unread
    exact absurd unread (by simp)
  next id' read =>
    obtain rfl := Option.some.inj (h.symm.trans read)
    rfl

/-- A message that answers nobody who waits leaves entries and answers alone. -/
theorem accept_of_unanswered {c : Connection} {m : Message}
    (unanswered : ∀ id place outcome, (id, place) ∈ c.pending → ¬ m.Answers id outcome) :
    (c.accept m).1.pending = c.pending ∧ (c.accept m).1.answers = c.answers := by
  unfold accept
  split
  next id outcome hm =>
    cases hid : id.word? with
    | none =>
      simp only [deliver, hid]
      exact ⟨trivial, trivial⟩
    | some word =>
      have hm' : m.Answers word outcome := by
        rw [Message.Answers, hm, Json.eq_ofNat_of_word? hid]
      have nobody : (c.pending.find? fun e => e.1 = word) = none := by
        rw [List.find?_eq_none]
        rintro ⟨key, place⟩ mem same
        obtain rfl := of_decide_eq_true same
        exact unanswered _ _ _ mem hm'
      simp only [deliver_of_word? hid, nobody, and_self]
  · exact ⟨rfl, rfl⟩
  · exact ⟨rfl, rfl⟩
  · exact ⟨rfl, rfl⟩

/-- The entry under a key, where keys stand once. -/
theorem find?_key {l : List (UInt64 × Nat)} {id : UInt64} {place : Nat}
    (keys : (l.map Prod.fst).Nodup) (mem : (id, place) ∈ l) :
    (l.find? fun e => e.1 = id) = some (id, place) := by
  induction l with
  | nil => exact absurd mem (List.not_mem_nil)
  | cons e rest ih =>
    rw [List.map_cons, List.nodup_cons] at keys
    rw [List.find?_cons]
    rcases List.mem_cons.mp mem with rfl | later
    · simp
    · have other : e.1 ≠ id := fun same => keys.1 (same ▸ List.mem_map_of_mem later)
      simp only [other, decide_false]
      exact ih keys.2 later

/-- A message that answers one who waits takes that entry, and nothing else. -/
theorem accept_of_answered {c : Connection} {m : Message} {id : UInt64} {place : Nat}
    {outcome : Outcome} (keys : (c.pending.map Prod.fst).Nodup) (mem : (id, place) ∈ c.pending)
    (answers : m.Answers id outcome) :
    (c.accept m).1.pending = c.pending.filter (fun e => e.1 ≠ id) ∧
      (c.accept m).1.answers = (place, .response outcome) :: c.answers := by
  unfold accept
  rw [Message.Answers] at answers
  simp only [answers, deliver_of_word? (Json.word?_ofNat id), find?_key keys mem, and_self]

/-! ## Ids are given once -/

/-- The callers that were given ids, in order, with their ids. -/
def numbers (h : List Happening) : List (Nat × UInt64) :=
  h.filterMap fun
    | .numbered place id => some (place, id)
    | _ => none

/-- The ids given out are one, two, three and so on, each to a caller of its own. -/
structure Numbering (h : List Happening) (c : Connection) : Prop where
  ids : (numbers h).map Prod.snd =
    (List.range (numbers h).length).map fun i => UInt64.ofNat (i + 1)
  next : c.nextId = UInt64.ofNat ((numbers h).length + 1)
  places : ((numbers h).map Prod.fst).Nodup
  begun : ∀ e ∈ numbers h, Reached c.callers e.1 1

/-- What happens next adds at most one number. -/
theorem numbers_append (h : List Happening) (e : Option Happening) :
    numbers (h ++ e.toList) = numbers h ++ numbers e.toList :=
  List.filterMap_append

/-- The numbering stays as it is while nobody is given an id. -/
theorem Numbering.same {h : List Happening} {c c' : Connection} {e : Option Happening}
    (inv : Numbering h c) (move : Move c e c') (quiet : numbers e.toList = [])
    (next : c'.nextId = c.nextId) : Numbering (h ++ e.toList) c' := by
  have same : numbers (h ++ e.toList) = numbers h := by
    rw [numbers_append, quiet, List.append_nil]
  refine ⟨?_, ?_, ?_, ?_⟩
  · rw [same]; exact inv.ids
  · rw [same, next]; exact inv.next
  · rw [same]; exact inv.places
  · rw [same]
    intro e he
    exact move.reached (inv.begun e he)

/-- Every move keeps the ids one, two, three and so on, each for a caller of its own. -/
theorem numbering_keep {h : List Happening} {c : Connection} {e : Option Happening}
    {c' : Connection} (inv : Numbering h c) (move : Move c e c') :
    Numbering (h ++ e.toList) c' := by
  cases id move with
  | @number place method params stands =>
    have grown : numbers (h ++ (some (Happening.numbered place c.nextId)).toList) =
        numbers h ++ [(place, c.nextId)] := numbers_append h _
    refine ⟨?_, ?_, ?_, ?_⟩
    · rw [grown, List.map_append, List.length_append, List.length_singleton, List.range_succ,
        List.map_append, inv.ids, inv.next]
      rfl
    · rw [grown, List.length_append, List.length_singleton]
      show c.nextId + 1 = _
      rw [inv.next]
      exact (UInt64.ofNat_add _ 1).symm
    · rw [grown, List.map_append, List.map_singleton]
      refine List.nodup_append.mpr ⟨inv.places, List.nodup_singleton _, ?_⟩
      -- the caller was fresh, so it is none of those that have ids
      intro p hp q hq same
      obtain rfl := List.mem_singleton.mp hq
      obtain ⟨e, he, rfl⟩ := List.mem_map.mp hp
      have begun := inv.begun e he
      rw [same] at begun
      exact not_reached stands Nat.zero_lt_one begun
    · rw [grown]
      intro e he
      rcases List.mem_append.mp he with old | new
      · exact move.reached (inv.begun e old)
      · obtain rfl := List.mem_singleton.mp new
        refine ⟨.numbered c.nextId method params, ?_, Nat.le_refl 1⟩
        show (c.callers.set place _)[place]? = _
        rw [List.getElem?_set_self', stands]
        rfl
  | @take m rest reading read =>
    exact inv.same move rfl (accept_fields { c with input := rest } m).2.1
  | notify same => exact inv.same move rfl same.nextId
  | respond same => exact inv.same move rfl same.nextId
  | quiet same => exact inv.same move rfl same.nextId
  | _ => exact inv.same move rfl rfl

theorem numbering_start : Numbering [] {} :=
  ⟨rfl, rfl, List.nodup_nil, fun _ he => absurd he (List.not_mem_nil)⟩

/-- No more ids are given than there are callers. -/
theorem Numbering.length_le {h : List Happening} {c : Connection} (inv : Numbering h c) :
    (numbers h).length ≤ c.callers.length := by
  have inside : (numbers h).map Prod.fst ⊆ List.range c.callers.length := by
    intro p hp
    obtain ⟨e, he, rfl⟩ := List.mem_map.mp hp
    obtain ⟨caller, stands, -⟩ := inv.begun e he
    exact List.mem_range.mpr (List.getElem?_eq_some_iff.mp stands).1
  have bound := (List.subperm_of_subset inv.places inside).length_le
  rwa [List.length_map, List.length_range] at bound

/-- Among fewer callers than there are ids, no id is given twice. -/
theorem Numbering.ids_nodup {h : List Happening} {c : Connection} (inv : Numbering h c)
    (few : c.callers.length < UInt64.size) : ((numbers h).map Prod.snd).Nodup := by
  rw [inv.ids]
  refine List.Nodup.map_on ?_ List.nodup_range
  intro i hi j hj same
  have hk := inv.length_le
  have hi' : i + 1 < UInt64.size := by have := List.mem_range.mp hi; omega
  have hj' : j + 1 < UInt64.size := by have := List.mem_range.mp hj; omega
  have words := congrArg UInt64.toNat same
  rw [UInt64.toNat_ofNat_of_lt' hi', UInt64.toNat_ofNat_of_lt' hj'] at words
  omega

/-! ## Who put an entry, and what came since -/

/-- The caller put its entry under its own id, and since then the reader took no
response with that id. -/
def Awaited (h : List Happening) (place : Nat) (id : UInt64) : Prop :=
  ∃ before between, h = before ++ .entered place id :: between ∧ .numbered place id ∈ before ∧
    ∀ m outcome, .took m ∈ between → ¬ m.Answers id outcome

/-- The reader took a response with this outcome for the caller's own id, the first
since the caller put its entry. -/
def AnsweredBy (h : List Happening) (place : Nat) (outcome : Outcome) : Prop :=
  ∃ id past m future, h = past ++ .took m :: future ∧ Awaited past place id ∧ m.Answers id outcome

/-- A caller is still awaited after what does not answer it. -/
theorem Awaited.append {h : List Happening} {place : Nat} {id : UInt64} {e : Option Happening}
    (old : Awaited h place id) (other : ∀ m outcome, e = some (.took m) → ¬ m.Answers id outcome) :
    Awaited (h ++ e.toList) place id := by
  obtain ⟨before, between, rfl, numbered, none⟩ := old
  refine ⟨before, between ++ e.toList, by simp, numbered, ?_⟩
  intro m outcome hm
  rcases List.mem_append.mp hm with hm | hm
  · exact none m outcome hm
  · exact other m outcome (Option.mem_toList.mp hm)

/-- What has been answered stays answered. -/
theorem AnsweredBy.append {h : List Happening} {place : Nat} {outcome : Outcome}
    (old : AnsweredBy h place outcome) (more : List Happening) :
    AnsweredBy (h ++ more) place outcome := by
  obtain ⟨id, past, m, future, rfl, awaited, answers⟩ := old
  exact ⟨id, past, m, future ++ more, by simp, awaited, answers⟩

/-- Where nothing was taken from the server, nobody is answered. -/
theorem not_answeredBy {h : List Happening} (untaken : ∀ m, .took m ∉ h) (place : Nat)
    (outcome : Outcome) : ¬ AnsweredBy h place outcome := by
  rintro ⟨id, past, m, future, rfl, -⟩
  exact untaken m (List.mem_append_right _ List.mem_cons_self)

/-- Why a caller may be done with this result: it was not done before, and either
the conversation is over or its own answer came. -/
def Justified (past : List Happening) (e : Happening) : Prop :=
  ∀ place result, e = .resolved place result →
    (∀ earlier, .resolved place earlier ∉ past) ∧
      (result = .error .connectionClosed ∨
        ∃ outcome, result = (Answer.response outcome).result ∧ AnsweredBy past place outcome)

/-- A result that is no error came as an answer. -/
theorem Justified.ok {past : List Happening} {place : Nat} {v : Json}
    (just : Justified past (.resolved place (.ok v))) : AnsweredBy past place (.ok v) := by
  rcases (just place _ rfl).2 with closed | ⟨outcome, same, answered⟩
  · exact absurd closed (by simp)
  · cases outcome with
    | ok w =>
      obtain rfl := Except.ok.inj same
      exact answered
    | error e => exact absurd same (by simp [Answer.result])

/-- An error of the server came as an answer. -/
theorem Justified.rpc {past : List Happening} {place : Nat} {error : ResponseError}
    (just : Justified past (.resolved place (.error (.rpc error)))) :
    AnsweredBy past place (.error error) := by
  rcases (just place _ rfl).2 with closed | ⟨outcome, same, answered⟩
  · exact absurd closed (by simp)
  · cases outcome with
    | ok w => exact absurd same (by simp [Answer.result])
    | error e =>
      obtain rfl := Fault.rpc.inj (Except.error.inj same)
      exact answered

/-- Every entry is awaited by the caller that it belongs to, and every answer that
lies ready is that caller's own. -/
structure Matched (h : List Happening) (c : Connection) : Prop where
  keys : (c.pending.map Prod.fst).Nodup
  awaited : ∀ id place, (id, place) ∈ c.pending → Awaited h place id
  answered : ∀ place outcome, (place, .response outcome) ∈ c.answers → AnsweredBy h place outcome
  numbered : ∀ place id method params, c.callers[place]? = some (.numbered id method params) →
    .numbered place id ∈ h
  finished : ∀ place result, .resolved place result ∈ h →
    c.callers[place]? = some (.finished result)
  justified : EachAfter Justified h

/-- A caller is done with one result. -/
theorem Matched.result_eq {h : List Happening} {c : Connection} {place : Nat}
    {first second : Except Fault Json} (inv : Matched h c) (one : .resolved place first ∈ h)
    (other : .resolved place second ∈ h) : first = second := by
  have same := inv.finished place second other
  rw [inv.finished place first one] at same
  exact Caller.finished.inj (Option.some.inj same)

/-- Who is done without an error has been answered. -/
theorem Matched.answeredBy {h : List Happening} {c : Connection} {place : Nat} {v : Json}
    (inv : Matched h c) (done : .resolved place (.ok v) ∈ h) : AnsweredBy h place (.ok v) := by
  obtain ⟨past, future, rfl⟩ := List.append_of_mem done
  exact (inv.justified past _ future rfl).ok.append _

/-! ## Entries and answers after an operation -/

/-- Dropping entries makes no response. -/
theorem mem_dropEntries_answers {c : Connection} {p : UInt64 × Nat → Bool} {place : Nat}
    {outcome : Outcome} (h : (place, .response outcome) ∈ (c.dropEntries p).answers) :
    (place, .response outcome) ∈ c.answers := by
  rcases List.mem_append.mp h with dropped | kept
  · obtain ⟨e, -, he⟩ := List.mem_map.mp dropped
    exact absurd (Prod.mk.inj he).2 (by simp)
  · exact kept

/-- The entries that are left were there before, and were not to be dropped. -/
theorem mem_dropEntries_pending {c : Connection} {p : UInt64 × Nat → Bool} {e : UInt64 × Nat}
    (h : e ∈ (c.dropEntries p).pending) : e ∈ c.pending ∧ p e = false := by
  have := List.mem_filter.mp h
  exact ⟨this.1, by simpa using this.2⟩

/-- The entries that are left have distinct ids. -/
theorem dropEntries_keys {c : Connection} (p : UInt64 × Nat → Bool)
    (keys : (c.pending.map Prod.fst).Nodup) : ((c.dropEntries p).pending.map Prod.fst).Nodup :=
  keys.sublist (List.filter_sublist.map _)

/-- Entering under an id leaves one entry under it. -/
theorem enter_keys {c : Connection} (id : UInt64) (place : Nat)
    (keys : (c.pending.map Prod.fst).Nodup) :
    ((c.enter id place).pending.map Prod.fst).Nodup := by
  show (id :: (c.dropEntries fun e => e.1 = id).pending.map Prod.fst).Nodup
  refine List.nodup_cons.mpr ⟨?_, dropEntries_keys _ keys⟩
  intro mem
  obtain ⟨e, he, same⟩ := List.mem_map.mp mem
  have other := (mem_dropEntries_pending he).2
  exact of_decide_eq_false other same

/-- The answer that a caller finds is one that lies ready. -/
theorem mem_of_answer? {c : Connection} {place : Nat} {a : Answer}
    (h : c.answer? place = some a) : (place, a) ∈ c.answers := by
  obtain ⟨e, he, rfl⟩ := Option.map_eq_some_iff.mp h
  have same := List.find?_some he
  rw [decide_eq_true_eq] at same
  rw [← same]
  exact List.mem_of_find?_eq_some he

/-! ## What every move keeps -/

/-- A caller with a new id got it in this move. -/
theorem Move.numbered {c c' : Connection} {e : Option Happening} (move : Move c e c') {p : Nat}
    {id : UInt64} {method : String} {params : Json}
    (h : c'.callers[p]? = some (.numbered id method params)) :
    c.callers[p]? = some (.numbered id method params) ∨ e = some (.numbered p id) := by
  rcases move.stood_or_came h with old | ⟨_, _, new⟩ | ⟨old, -, goes⟩
  · exact Or.inl old
  · exact absurd new (by simp)
  · cases goes with
    | number => exact Or.inr rfl

/-- Who is done in a move was not done before, and takes the result that lies
ready, or learns that the connection closed. -/
theorem Move.resolved {c c' : Connection} {p : Nat} {result : Except Fault Json}
    (move : Move c (some (.resolved p result)) c') :
    c'.callers[p]? = some (.finished result) ∧
      (∃ caller, c.callers[p]? = some caller ∧ caller.stage < 5) ∧
      (result = .error .connectionClosed ∨ ∃ a, c.answer? p = some a ∧ result = a.result) := by
  cases move with
  | withdraw stands =>
    refine ⟨?_, ⟨_, stands, Nat.lt_succ_self 4⟩, Or.inl rfl⟩
    show (c.callers.set p _)[p]? = _
    rw [List.getElem?_set_self', stands]
    rfl
  | resolve stands answer =>
    refine ⟨?_, ⟨_, stands, Nat.lt_succ_self 4⟩, Or.inr ⟨_, answer, rfl⟩⟩
    show (c.callers.set p _)[p]? = _
    rw [List.getElem?_set_self', stands]
    rfl

/-- Whoever is done in a move has a reason in the past. -/
theorem Matched.justifies {h : List Happening} {c c' : Connection} {e : Happening}
    (inv : Matched h c) (move : Move c (some e) c') : Justified h e := by
  rintro place result rfl
  obtain ⟨-, ⟨caller, stands, notDone⟩, why⟩ := move.resolved
  constructor
  · intro earlier mem
    rw [inv.finished place earlier mem] at stands
    obtain rfl := Option.some.inj stands
    exact Nat.lt_irrefl 5 notDone
  · rcases why with closed | ⟨a, found, rfl⟩
    · exact Or.inl closed
    · cases a with
      | response outcome =>
        exact Or.inr ⟨outcome, rfl, inv.answered place outcome (mem_of_answer? found)⟩
      | dropped => exact Or.inl rfl

/-- A move keeps `Matched` if it does so for the entries and for the answers. -/
theorem Matched.step {h : List Happening} {c c' : Connection} {e : Option Happening}
    (inv : Matched h c) (move : Move c e c') (keys : (c'.pending.map Prod.fst).Nodup)
    (awaited : ∀ id place, (id, place) ∈ c'.pending → Awaited (h ++ e.toList) place id)
    (answered : ∀ place outcome, (place, .response outcome) ∈ c'.answers →
      AnsweredBy (h ++ e.toList) place outcome) :
    Matched (h ++ e.toList) c' := by
  refine ⟨keys, awaited, answered, ?_, ?_, ?_⟩
  · intro place id method params stands
    rcases move.numbered stands with old | new
    · exact List.mem_append_left _ (inv.numbered place id method params old)
    · exact List.mem_append_right _ (Option.mem_toList.mpr new)
  · intro place result mem
    rcases List.mem_append.mp mem with old | new
    · exact move.stays (inv.finished place result old) rfl
    · obtain rfl := Option.mem_toList.mp new
      exact move.resolved.1
  · refine inv.justified.append ?_
    rintro x rfl
    exact inv.justifies move

/-- Entries that were there before a move in which no message is taken are still
awaited after it. -/
theorem Matched.awaited_of_subset {h : List Happening} {c c' : Connection} {e : Option Happening}
    (inv : Matched h c) (fewer : ∀ x ∈ c'.pending, x ∈ c.pending)
    (other : ∀ m, e ≠ some (.took m)) (id : UInt64) (place : Nat)
    (mem : (id, place) ∈ c'.pending) : Awaited (h ++ e.toList) place id :=
  (inv.awaited id place (fewer _ mem)).append fun m _ took _ => other m took

/-- Where no response is added, those that are there stay accounted for. -/
theorem Matched.answered_of_subset {h : List Happening} {c c' : Connection} {e : Option Happening}
    (inv : Matched h c)
    (fewer : ∀ place outcome, (place, .response outcome) ∈ c'.answers →
      (place, .response outcome) ∈ c.answers) (place : Nat) (outcome : Outcome)
    (mem : (place, .response outcome) ∈ c'.answers) : AnsweredBy (h ++ e.toList) place outcome :=
  (inv.answered place outcome (fewer place outcome mem)).append _

/-- Dropping entries keeps `Matched`. -/
theorem Matched.of_dropEntries {h : List Happening} {c c' : Connection} {e : Option Happening}
    (inv : Matched h c) (move : Move c e c') (p : UInt64 × Nat → Bool)
    (other : ∀ m, e ≠ some (.took m)) (pending : c'.pending = (c.dropEntries p).pending)
    (answers : c'.answers = (c.dropEntries p).answers) : Matched (h ++ e.toList) c' := by
  refine inv.step move ?_ (inv.awaited_of_subset ?_ other) (inv.answered_of_subset ?_)
  · rw [pending]; exact dropEntries_keys p inv.keys
  · intro x mem
    rw [pending] at mem
    exact (mem_dropEntries_pending mem).1
  · intro place outcome mem
    rw [answers] at mem
    exact mem_dropEntries_answers mem

/-- Leaving entries and answers alone keeps `Matched`. -/
theorem Matched.of_same {h : List Happening} {c c' : Connection} {e : Option Happening}
    (inv : Matched h c) (move : Move c e c') (other : ∀ m, e ≠ some (.took m))
    (pending : c'.pending = c.pending) (answers : c'.answers = c.answers) :
    Matched (h ++ e.toList) c' := by
  refine inv.step move ?_ (inv.awaited_of_subset ?_ other) (inv.answered_of_subset ?_)
  · rw [pending]; exact inv.keys
  · intro x mem
    rwa [pending] at mem
  · intro place outcome mem
    rwa [answers] at mem

/-- The reader's move: either nobody is answered, or exactly the caller whose entry
goes. -/
theorem Matched.of_take {h : List Happening} {c c' : Connection} {m : Message}
    (inv : Matched h c) (move : Move c (some (.took m)) c') {d : Connection}
    (before : d.pending = c.pending ∧ d.answers = c.answers) (after : c' = (d.accept m).1) :
    Matched (h ++ [.took m]) c' := by
  have keys : (d.pending.map Prod.fst).Nodup := by rw [before.1]; exact inv.keys
  by_cases waited : ∃ id place outcome, (id, place) ∈ c.pending ∧ m.Answers id outcome
  · obtain ⟨id, place, outcome, mem, hm⟩ := waited
    obtain ⟨pending, answers⟩ := accept_of_answered keys (before.1.symm ▸ mem) hm
    rw [← after, before.1] at pending
    rw [← after, before.2] at answers
    refine inv.step move ?_ ?_ ?_
    · rw [pending]; exact inv.keys.sublist (List.filter_sublist.map _)
    · intro id' place' mem'
      rw [pending, List.mem_filter] at mem'
      refine (inv.awaited id' place' mem'.1).append ?_
      rintro m' outcome' took hm'
      obtain rfl := Happening.took.inj (Option.some.inj took)
      -- one message answers one id, and that entry is gone
      exact of_decide_eq_true mem'.2 (hm'.id_eq hm)
    · intro place' outcome' mem'
      rw [answers] at mem'
      rcases List.mem_cons.mp mem' with new | old
      · obtain ⟨rfl, ho⟩ := Prod.mk.inj new
        obtain rfl := Answer.response.inj ho
        exact ⟨id, h, m, [], rfl, inv.awaited id place' mem, hm⟩
      · exact (inv.answered place' outcome' old).append _
  · obtain ⟨pending, answers⟩ := accept_of_unanswered (c := d) (m := m)
      (fun id place outcome mem hm => waited ⟨id, place, outcome, before.1 ▸ mem, hm⟩)
    rw [← after, before.1] at pending
    rw [← after, before.2] at answers
    refine inv.step move ?_ ?_ (inv.answered_of_subset ?_)
    · rw [pending]; exact inv.keys
    · intro id place mem
      rw [pending] at mem
      refine (inv.awaited id place mem).append ?_
      rintro m' outcome took hm'
      obtain rfl := Happening.took.inj (Option.some.inj took)
      exact waited ⟨id, place, outcome, mem, hm'⟩
    · intro place outcome mem
      rwa [answers] at mem

/-- Every move keeps each entry with its caller and each response with its message. -/
theorem matched_keep {h : List Happening} {c : Connection} {e : Option Happening}
    {c' : Connection} (inv : Matched h c) (move : Move c e c') : Matched (h ++ e.toList) c' := by
  cases id move with
  | @enter place id method params stands =>
    refine inv.step move (enter_keys id place inv.keys) ?_ (inv.answered_of_subset ?_)
    · intro id' place' mem
      rcases List.mem_cons.mp mem with new | old
      · obtain ⟨rfl, rfl⟩ := Prod.mk.inj new
        refine ⟨h, [], rfl, inv.numbered place' id' method params stands, ?_⟩
        exact fun m _ took => absurd took (List.not_mem_nil)
      · refine (inv.awaited id' place' (mem_dropEntries_pending old).1).append ?_
        exact fun m _ took => absurd took (by simp)
    · exact fun place' outcome mem => mem_dropEntries_answers mem
  | withdraw stands => exact inv.of_dropEntries move _ (by simp) rfl rfl
  | clearRead closing => exact inv.of_dropEntries move _ (by simp) rfl rfl
  | clearRelease closing => exact inv.of_dropEntries move _ (by simp) rfl rfl
  | resolve stands answer =>
    refine inv.step move inv.keys (inv.awaited_of_subset (fun x => id) (by simp))
      (inv.answered_of_subset ?_)
    exact fun place outcome mem => (List.mem_filter.mp mem).1
  | @take m rest reading read => exact inv.of_take move (d := { c with input := rest }) ⟨rfl, rfl⟩ rfl
  | notify same => exact inv.of_same move (by simp) same.pending same.answers
  | respond same => exact inv.of_same move (by simp) same.pending same.answers
  | quiet same => exact inv.of_same move (by simp) same.pending same.answers
  | _ => exact inv.of_same move (by simp) rfl rfl

theorem matched_start : Matched [] {} := by
  refine ⟨List.nodup_nil, ?_, ?_, ?_, ?_, EachAfter.nil⟩
  · exact fun id place mem => absurd mem (List.not_mem_nil)
  · exact fun place outcome mem => absurd mem (List.not_mem_nil)
  · exact fun place id method params stands => absurd stands (by simp)
  · exact fun place result mem => absurd mem (List.not_mem_nil)

theorem numbering_of_run {actions : List Action} {c : Connection} (h : run actions {} = some c) :
    Numbering (history actions {}) c :=
  run_induct numbering_start numbering_keep h

/-- In every run entries and responses are matched with callers and messages. -/
theorem matched_of_run {actions : List Action} {c : Connection} (h : run actions {} = some c) :
    Matched (history actions {}) c :=
  run_induct matched_start matched_keep h

/-- **Every caller gets its own answer.** In every run of a connection:

* no id is given twice among fewer callers than there are ids;
* a caller is done once, with the outcome of the first response for its own id that
  the reader took after its entry was put, or because the conversation is over;
* a response takes the entry that it is for, and leaves the others; any other
  message leaves all of them, and the callers, as they were;
* a response is a message with an id and without a method, and its outcome is its error if it has
  one, else its result. -/
theorem request_matching {actions : List Action} {c : Connection}
    (hrun : run actions {} = some c) :
    (c.callers.length < UInt64.size → ((numbers (history actions {})).map Prod.snd).Nodup) ∧
      EachAfter
        (fun past e => ∀ place result, e = .resolved place result →
          (∀ earlier, .resolved place earlier ∉ past) ∧
            (∀ v, result = .ok v → AnsweredBy past place (.ok v)) ∧
            (∀ error, result = .error (.rpc error) → AnsweredBy past place (.error error)) ∧
            ((∃ v, result = .ok v) ∨ (∃ error, result = .error (.rpc error)) ∨
              result = .error .connectionClosed))
        (history actions {}) ∧
      (∀ m c' events, c.happening .read = some (.took m) → c.step .read = some (c', events) →
        (∀ id place outcome, (id, place) ∈ c.pending → m.Answers id outcome →
          c'.pending = c.pending.filter (fun e => e.1 ≠ id) ∧
            c'.answer? place = some (.response outcome)) ∧
        ((∀ id place outcome, (id, place) ∈ c.pending → ¬ m.Answers id outcome) →
          c'.pending = c.pending ∧ c'.answers = c.answers) ∧
        c'.callers = c.callers) ∧
      ∀ (m : Message) id outcome, m.Answers id outcome ↔
        m.method = none ∧ m.id = some (.ofNat id.toNat) ∧
          ((∃ error, m.error = some error ∧ outcome = .error error) ∨
            (m.error = none ∧ outcome = .ok (m.result.getD .null))) := by
  have inv := matched_of_run hrun
  refine ⟨(numbering_of_run hrun).ids_nodup, inv.justified.imp ?_, ?_,
    fun _ _ _ => Message.answers_iff⟩
  · intro past e just place result he
    subst he
    obtain ⟨once, why⟩ := just place result rfl
    refine ⟨once, ?_, ?_, ?_⟩
    · rintro v rfl
      exact just.ok
    · rintro error rfl
      exact just.rpc
    · rcases why with closed | ⟨outcome, same, -⟩
      · exact Or.inr (Or.inr closed)
      · cases outcome with
        | ok w => exact Or.inl ⟨w, same⟩
        | error e => exact Or.inr (Or.inl ⟨e, same⟩)
  · intro m c' events took hstep
    have move := move_of_step hstep
    rw [took] at move
    -- of all moves only one takes a message
    generalize he : some (Happening.took m) = e at move
    cases move with
    | @take m' rest reading read =>
      obtain rfl := Happening.took.inj (Option.some.inj he)
      refine ⟨?_, ?_, (accept_fields { c with input := rest } m).1⟩
      · intro id place outcome mem answers
        obtain ⟨pending, given⟩ :=
          accept_of_answered (c := { c with input := rest }) inv.keys mem answers
        refine ⟨pending, ?_⟩
        rw [answer?, given, List.find?_cons]
        simp
      · exact accept_of_unanswered (c := { c with input := rest })
    | _ => exact absurd he (by simp)

/-- Two callers send requests, and the server answers the second first: with eight, and the first
one with seven. -/
def crossing : List Action :=
  List.flatten [[.call "m" .null, .call "n" .null], List.replicate 4 (.advance 0),
    List.replicate 4 (.advance 1),
    [.receive (Frame.encode (.response (.ofNat 2) (.ok (.ofNat 8)))), .read,
      .receive (Frame.encode (.response (.ofNat 1) (.ok (.ofNat 7)))), .read,
      .advance 1, .advance 0]]

/-- The caller that came to a number, and which. -/
def Happening.number? : Happening → Option (Nat × UInt64)
  | .resolved place (.ok v) => v.word?.map (place, ·)
  | _ => none

/-- The happening that is counted as a number says its place and its word. -/
theorem Happening.eq_of_number? {e : Happening} {place : Nat} {word : UInt64}
    (number : e.number? = some (place, word)) : e = .resolved place (.ok (.ofNat word.toNat)) := by
  unfold number? at number
  split at number
  next place' v =>
    obtain ⟨w, reads, same⟩ := Option.map_eq_some_iff.mp number
    obtain ⟨rfl, rfl⟩ := Prod.mk.inj same
    rw [Json.eq_ofNat_of_word? reads]
  next => contradiction

/-- `request_matching` where answers cross: each caller gets its own. -/
theorem request_matching_crossing :
    ∃ c past, run crossing {} = some c ∧
      history crossing {} =
        past ++ [.resolved 1 (.ok (.ofNat 8)), .resolved 0 (.ok (.ofNat 7))] ∧
      ((numbers (history crossing {})).map Prod.snd).Nodup ∧
      AnsweredBy past 1 (.ok (.ofNat 8)) ∧
      AnsweredBy (past ++ [.resolved 1 (.ok (.ofNat 8))]) 0 (.ok (.ofNat 7)) := by
  have two : ((run crossing {}).any fun c => c.callers.length = 2) = true := by decide +kernel
  -- the last things that happen are that the callers are told their numbers
  have last : ((history crossing {}).drop 10).map Happening.number? =
      [some (1, 8), some (0, 7)] := by decide +kernel
  obtain ⟨c, hrun, htwo⟩ := (Option.any_eq_true _ _).mp two
  have few : c.callers.length < UInt64.size := by
    rw [of_decide_eq_true htwo]
    decide
  obtain ⟨first, rest, split, eight, others⟩ := List.map_eq_cons_iff.mp last
  obtain ⟨second, rfl, seven⟩ := List.map_eq_singleton_iff.mp others
  obtain rfl := Happening.eq_of_number? eight
  obtain rfl := Happening.eq_of_number? seven
  obtain ⟨past, whole⟩ : ∃ past, history crossing {} =
      past ++ [.resolved 1 (.ok (.ofNat 8)), .resolved 0 (.ok (.ofNat 7))] :=
    ⟨_, ((List.take_append_drop 10 _).symm.trans (congrArg _ split))⟩
  obtain ⟨numbered, done, -⟩ := request_matching hrun
  have later : history crossing {} =
      (past ++ [.resolved 1 (.ok (.ofNat 8))]) ++ [.resolved 0 (.ok (.ofNat 7))] := by
    rw [whole, List.append_assoc]
    rfl
  refine ⟨c, past, hrun, whole, numbered few, ?_, ?_⟩
  · exact (done past _ _ whole 1 _ rfl).2.1 _ rfl
  · exact (done _ _ [] later 0 _ rfl).2.1 _ rfl

end Connection

end EmberClient
