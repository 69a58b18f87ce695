import EmberClient.Proofs.Connection.WriterEnd
import EmberClient.Proofs.Rpc.Delimiting

/-!
# When the reader stops

The reader takes messages until the server's output ends or breaks. Then it sets the mark and
clears the entries, and with them everybody learns that the conversation is over. There is
one way past that. A length of `2 ^ 63` or more that is still a word reads as a length, but
no vector of bytes is that long: the reader dies where it asks for one, and marks and clears
nothing. Below that the memory is taken to be there, whatever machine the client runs on.

What it comes to depends on nothing but the bytes that the server sends. A reading that has
settled while the stream was open stays the same whatever follows (`read_settled`), so what
the reader took, and what it met behind that, is what the whole stream reads as (`Reads`),
however it came in pieces and whatever the callers did in between.

> `reader_end`: no other output of the server kills the reader, and unless it died, its end
> leaves nobody waiting.

`oversized_length_strands` is a run in which it dies: nothing goes on any more, the
connection does not count as closed, and a caller waits for ever.
-/

namespace EmberClient

open Text

namespace Frame

/-! ## What has settled -/

/-- A block with these bytes behind all that was there. -/
def Block.before : Block → Bytes → Block
  | .complete length rest, following => .complete length (rest ++ following)
  | block, _ => block

/-- A reading with these bytes behind all that was there. -/
def Reading.before : Reading → Bytes → Reading
  | .message m rest, following => .message m (rest ++ following)
  | reading, _ => reading

/-- While the stream is open a line is taken only with its line feed, so it ends there
whatever follows. -/
theorem readBlock_settledLine {input line rest : Bytes}
    (taken : takeLine false input = some (line, rest)) (ended seen : Bool) (length : Option Nat)
    (following : Bytes) :
    readBlock ended length seen (input ++ following) =
      passLine ended length seen line (rest ++ following) := by
  rcases takeLine_cases false input with ⟨front, behind, inside, rfl, first⟩ | ⟨-, whole⟩
  · obtain ⟨rfl, rfl⟩ := Prod.mk.inj (Option.some.inj (first.symm.trans taken))
    have more : (ended && (front ++ 10 :: behind ++ following).isEmpty) = false := by simp
    rw [readBlock_eq, more, if_neg Bool.false_ne_true, List.append_assoc, List.cons_append,
      takeLine_lineFeed ended inside]
  · rw [whole] at taken
    contradiction

/-- A block of an open stream is the same whatever follows. -/
theorem readBlock_settled {isOpen seen : Bool} {length : Option Nat} {input : Bytes}
    (unended : isOpen = false) (settled : readBlock isOpen length seen input ≠ .waiting)
    (ended : Bool) (following : Bytes) :
    readBlock ended length seen (input ++ following) =
      (readBlock isOpen length seen input).before following := by
  subst unended
  -- along the lines of the block: a line that is there in full reads the same with more behind it
  fun_induction readBlock false length seen input with
  | case1 length input nothing | case2 length seen input nothing => simp at nothing
  | case3 => contradiction
  | case4 length seen input more line rest taken undecoded =>
    rw [readBlock_settledLine taken]
    simp only [passLine, undecoded]
    rfl
  | case5 length input more line rest taken text decoded content blank =>
    rw [readBlock_settledLine taken]
    simp only [passLine, decoded]
    exact if_pos blank
  | case6 length seen input more line rest taken text decoded content blank unseen ih =>
    rw [readBlock_settledLine taken]
    simp only [passLine, decoded]
    rw [if_pos blank, if_neg unseen]
    exact ih settled
  | case7 length seen input more line rest taken text decoded content filled fault wrong =>
    rw [readBlock_settledLine taken]
    simp only [passLine, decoded]
    rw [if_neg filled, wrong]
    rfl
  | case8 length seen input more line rest taken text decoded content filled known said ih =>
    rw [readBlock_settledLine taken]
    simp only [passLine, decoded]
    rw [if_neg filled, said]
    exact ih settled

/-- A body that needs no more bytes reads the same with more behind it. -/
theorem readBody_settled {length : Nat} {input : Bytes}
    (settled : readBody false length input ≠ .waiting) (ended : Bool) (following : Bytes) :
    readBody ended length (input ++ following) = (readBody false length input).before following := by
  unfold readBody at settled ⊢
  by_cases tooLong : maxBody < length
  · rw [if_pos tooLong, if_pos tooLong]
    rfl
  · by_cases short : input.length < length
    · simp [tooLong, short] at settled
    · have there : ¬(input ++ following).length < length := by
        rw [List.length_append]
        omega
      have inside : length ≤ input.length := Nat.le_of_not_lt short
      rw [if_neg tooLong, if_neg tooLong, if_neg short, if_neg there,
        List.take_append_of_le_length inside, List.drop_append_of_le_length inside]
      cases decodeBody (input.take length) <;> rfl

/-- Whatever an open stream reads as, it reads as that whatever follows. -/
theorem read_settled {input : Bytes} (settled : read false input ≠ .waiting) (ended : Bool)
    (following : Bytes) : read ended (input ++ following) = (read false input).before following := by
  have block : readBlock false none false input ≠ .waiting := by
    intro waits
    exact settled (by simp only [read, waits])
  have same := readBlock_settled rfl block ended following
  unfold read at settled ⊢
  rw [same]
  cases front : readBlock false none false input with
  | complete length rest =>
    cases length with
    | none => rfl
    | some length =>
      rw [front] at settled
      exact readBody_settled settled ended following
  | finished | failed | waiting => rfl

/-- A message that stands in front is the same whatever follows. -/
theorem read_message_append {ended : Bool} {input rest : Bytes} {m : Message}
    (front : read ended input = .message m rest) (following : Bytes) :
    read true (input ++ following) = .message m (rest ++ following) := by
  cases ended with
  | true => exact read_append front following
  | false =>
    rw [read_settled (front ▸ nofun) true following, front]
    rfl

/-! ## Lengths that no body can have -/

/-- A body is oversized when its length is beyond what a buffer may hold. -/
theorem readBody_eq_oversized {ended : Bool} {length n : Nat} {input : Bytes} :
    readBody ended length input = .oversized n ↔ maxBody < length ∧ length = n := by
  unfold readBody
  by_cases tooLong : maxBody < length
  · simp [tooLong]
  · rw [if_neg tooLong]
    refine iff_of_false ?_ fun both => tooLong both.1
    split
    · split <;> simp
    · split <;> simp

/-- The block in front of a body is there, and this is the length that it says. -/
def AnnouncesBody (ended : Bool) (input : Bytes) (length : Nat) : Prop :=
  ∃ rest, readBlock ended none false input = .complete (some length) rest

/-- Reading gives a message, an end or a failure, or waits, but for one case: a body is
announced that is longer than one can be. -/
theorem read_eq_oversized {ended : Bool} {input : Bytes} {length : Nat} :
    read ended input = .oversized length ↔ AnnouncesBody ended input length ∧ maxBody < length := by
  unfold read AnnouncesBody
  cases readBlock ended none false input with
  | complete known rest =>
    cases known with
    | none => simp
    | some known =>
      dsimp only
      rw [readBody_eq_oversized]
      constructor
      · rintro ⟨tooLong, rfl⟩
        exact ⟨⟨rest, rfl⟩, tooLong⟩
      · rintro ⟨⟨rest, same⟩, tooLong⟩
        obtain ⟨rfl, -⟩ : known = length ∧ _ := by simpa using same
        exact ⟨tooLong, rfl⟩
  | finished | failed | waiting => simp

/-- A length is a word. -/
theorem lt_of_word? {cs : List Char} {n : Nat} (word : word? cs = some n) :
    n < Decimal.twoTo 64 := by
  simp only [word?, Option.bind_eq_bind] at word
  split at word
  all_goals
    obtain ⟨-, word⟩ := Option.ite_none_left_eq_some.mp word
    obtain ⟨ds, -, word⟩ := Option.bind_eq_some_iff.mp word
    obtain ⟨fits, same⟩ := Option.ite_none_right_eq_some.mp word
    exact Option.some.inj same ▸ fits

/-- A length that is read off a header fits in a machine word. -/
theorem lt_of_lengthAfter {content : List Char} {length known : Option Nat}
    (said : lengthAfter content length = .ok known) (fits : ∀ n ∈ length, n < Decimal.twoTo 64) :
    ∀ n ∈ known, n < Decimal.twoTo 64 := by
  unfold lengthAfter at said
  split at said
  · obtain rfl := Except.ok.inj said
    exact fits
  · split at said
    · next word =>
      obtain rfl := Except.ok.inj said
      intro n same
      obtain rfl := Option.mem_some.mp same
      exact lt_of_word? word
    · contradiction

/-- So does the length that a whole block announces. -/
theorem lt_of_readBlock {ended seen : Bool} {length known : Option Nat} {input rest : Bytes}
    (complete : readBlock ended length seen input = .complete known rest)
    (fits : ∀ n ∈ length, n < Decimal.twoTo 64) : ∀ n ∈ known, n < Decimal.twoTo 64 := by
  fun_induction readBlock ended length seen input with
  | case1 | case2 | case3 | case4 | case7 => contradiction
  | case5 =>
    obtain ⟨rfl, -⟩ := Block.complete.inj complete
    exact fits
  | case6 length seen input more line rest taken text decoded content blank unseen ih =>
    exact ih complete fits
  | case8 length seen input more line rest taken text decoded content filled known said ih =>
    exact ih complete (lt_of_lengthAfter said fits)

/-- A length that no body can have is within the upper half of the words. -/
theorem bounds_of_oversized {ended : Bool} {input : Bytes} {length : Nat}
    (oversized : read ended input = .oversized length) :
    maxBody < length ∧ length < Decimal.twoTo 64 := by
  obtain ⟨⟨rest, complete⟩, tooLong⟩ := read_eq_oversized.mp oversized
  exact ⟨tooLong, lt_of_readBlock complete (by simp) length rfl⟩

end Frame

namespace Connection

/-! ## The stream -/

/-- All that the server sends in a sequence of actions. -/
def received (actions : List Action) : Bytes :=
  actions.flatMap fun
    | .receive bytes => bytes
    | _ => []

/-- The message that is taken when this happens. -/
def taken? : Happening → Option Message
  | .took m => some m
  | _ => none

/-- The messages that the reader took, in order. -/
def taken (h : List Happening) : List Message := h.filterMap taken?

/-- What happens next adds at most one message to those taken. -/
theorem taken_append (h : List Happening) (e : Option Happening) :
    taken (h ++ e.toList) = taken h ++ (e.bind taken?).toList :=
  filterMap_append_toList taken? h e

theorem mem_taken {h : List Happening} {m : Message} (took : .took m ∈ h) : m ∈ taken h :=
  List.mem_filterMap.mpr ⟨_, took, rfl⟩

/-- Whatever can still come, this is what the reader meets where it stands. -/
def Meets (c : Connection) (last : Frame.Reading) : Prop :=
  ∀ following, (c.inputEnded = true → following = []) →
    Frame.read true (c.input ++ following) = last

/-- What only a step of the reader makes happen. -/
def ReadersOwn (e : Happening) : Prop := (∃ m, e = .took m) ∨ e = .marked .reader

/-- What is not the reader's own takes no message. -/
theorem taken?_of_apart {e : Happening} (apart : ¬ ReadersOwn e) : taken? e = none := by
  cases e with
  | took m => exact absurd (Or.inl ⟨m, rfl⟩) apart
  | _ => rfl

/-- Only a read makes a happening of the reader. -/
theorem happening_apart {c : Connection} {a : Action} {e : Happening}
    (happens : c.happening a = some e) (other : a ≠ .read) : ¬ ReadersOwn e := by
  obtain ⟨c', events, stepped⟩ := stepped_of_happening happens
  cases stepped with
  | takes | ends | breaks | clears => exact absurd rfl other
  | _ => simp [ReadersOwn]

/-- What an action does on the side from which the server's bytes come, if the reader does
not move. -/
structure Hears (c : Connection) (a : Action) (c' : Connection) : Prop where
  input : c'.input = c.input ++ received [a]
  ended : c.inputEnded = true → received [a] = [] ∧ c'.inputEnded = true
  reader : c'.reader = c.reader ∨ c.reader = .reading ∧ c'.reader = .ended

/-- The side from which the server's bytes come is left alone. -/
def SameIncoming (c c' : Connection) : Prop :=
  c'.input = c.input ∧ c'.inputEnded = c.inputEnded ∧ c'.reader = c.reader

/-- An action that brings no bytes and leaves the incoming side alone is heard as nothing. -/
theorem hears_of_same {c c' : Connection} {a : Action} (nothing : received [a] = [])
    (same : SameIncoming c c') : c.Hears a c' := by
  obtain ⟨input, ended, reader⟩ := same
  exact ⟨by rw [input, nothing, List.append_nil], fun spent => ⟨nothing, ended.trans spent⟩,
    Or.inl reader⟩

/-- Every action but a read is heard as the bytes it brings. -/
theorem hears_of_step {c c' : Connection} {a : Action} {events : List Event}
    (hstep : c.step a = some (c', events)) (other : a ≠ .read) : c.Hears a c' := by
  have stepped := stepped_of_step hstep
  generalize c.happening a = e at stepped
  cases stepped with
  | takes | ends | breaks | dies | clears => exact absurd rfl other
  | letsGo =>
    refine ⟨(List.append_nil _).symm, fun spent => ⟨rfl, spent⟩, ?_⟩
    by_cases reading : c.reader = .reading
    · exact Or.inr ⟨reading, if_pos reading⟩
    · exact Or.inl (if_neg reading)
  | receives bytes unended =>
    exact ⟨by simp [received], fun spent => absurd (unended.symm.trans spent) (by simp), Or.inl rfl⟩
  | closesInput => exact ⟨(List.append_nil _).symm, fun _ => ⟨rfl, rfl⟩, Or.inl rfl⟩
  | _ => exact hears_of_same rfl ⟨rfl, rfl, rfl⟩

/-! ## What the stream reads as -/

/-- What the reader took and what it stands before is what the stream reads as. -/
structure Reads (h : List Happening) (stream : Bytes) (c : Connection) : Prop where
  /-- The messages that were taken stand at the front of the stream, and the rest is left. -/
  taken : ∀ following, Frame.readAll (stream ++ following) =
    (taken h ++ (Frame.readAll (c.input ++ following)).1, (Frame.readAll (c.input ++ following)).2)
  /-- Who died met a length that no body can have, and had set no mark. -/
  dead : c.reader = .dead →
    .marked .reader ∉ h ∧ ∃ length, c.Meets (.oversized length)
  /-- Who set the mark met an end or a failure. -/
  marked : .marked .reader ∈ h → (c.reader = .closing ∨ c.reader = .ended) ∧
    (c.Meets .finished ∨ ∃ fault, c.Meets (.failed fault))

theorem reads_start : Reads [] [] {} := by
  refine ⟨fun following => rfl, fun dead => ?_, fun marked => absurd marked List.not_mem_nil⟩
  exact absurd dead (by decide)

/-- What stands before the reader settles, if it is no message. -/
theorem meets_of_read {c c' : Connection} {last : Frame.Reading}
    (front : Frame.read c.inputEnded c.input = last) (settled : last ≠ .waiting)
    (other : ∀ m rest, last ≠ .message m rest) (input : c'.input = c.input)
    (ended : c'.inputEnded = c.inputEnded) : c'.Meets last := by
  intro following nothing
  rw [input]
  rw [ended] at nothing
  cases spent : c.inputEnded with
  | true =>
    rw [nothing spent, List.append_nil, ← spent]
    exact front
  | false =>
    rw [spent] at front
    have same := Frame.read_settled (front ▸ settled) true following
    rw [same, front]
    cases last with
    | message m rest => exact absurd rfl (other m rest)
    | _ => rfl

/-- What stands at the front of the stream stays there while bytes arrive behind. -/
theorem Meets.hears {c c' : Connection} {a : Action} {last : Frame.Reading} (meets : c.Meets last)
    (hears : c.Hears a c') : c'.Meets last := by
  intro following nothing
  rw [hears.input, List.append_assoc]
  refine meets _ fun spent => ?_
  obtain ⟨silent, still⟩ := hears.ended spent
  rw [silent, nothing still, List.append_nil]

/-- Where the reader meets the end of what it can read, so does the stream. -/
theorem Reads.of_meets {h : List Happening} {stream : Bytes} {c : Connection} {last : Frame.Reading}
    (inv : Reads h stream c) (meets : c.Meets last) (other : ∀ m rest, last ≠ .message m rest) :
    Frame.readAll stream = (Connection.taken h, last) := by
  have front : Frame.read true c.input = last := by simpa using meets [] fun _ => rfl
  have whole := inv.taken []
  rwa [List.append_nil, List.append_nil, Frame.readAll_last front other, List.append_nil] at whole

/-- When the reader does not move, what comes goes behind what is there. -/
theorem Reads.hears {h : List Happening} {stream : Bytes} {c c' : Connection} {a : Action}
    (inv : Reads h stream c) (hears : c.Hears a c') (other : a ≠ .read) :
    Reads (h ++ (c.happening a).toList) (stream ++ received [a]) c' := by
  have apart {e : Happening} (new : e ∈ (c.happening a).toList) : ¬ ReadersOwn e :=
    happening_apart (Option.mem_toList.mp new) other
  have unmarked : .marked .reader ∉ (c.happening a).toList := fun new => apart new (Or.inr rfl)
  have untaken : (c.happening a).bind taken? = none :=
    Option.bind_eq_none_iff.mpr fun e happens => taken?_of_apart (happening_apart happens other)
  refine ⟨fun following => ?_, fun dead => ?_, fun marked => ?_⟩
  · rw [taken_append, untaken, hears.input, Option.toList_none, List.append_nil,
      List.append_assoc, List.append_assoc]
    exact inv.taken _
  · rcases hears.reader with same | ⟨-, ended⟩
    · obtain ⟨old, length, meets⟩ := inv.dead (same ▸ dead)
      exact ⟨fun mem => (List.mem_append.mp mem).elim old unmarked, length, meets.hears hears⟩
    · rw [ended] at dead
      contradiction
  · have old : .marked .reader ∈ h := (List.mem_append.mp marked).resolve_right unmarked
    obtain ⟨stopped, met⟩ := inv.marked old
    refine ⟨?_, met.imp (·.hears hears) fun ⟨fault, meets⟩ => ⟨fault, meets.hears hears⟩⟩
    rcases hears.reader with same | ⟨reading, -⟩
    · rwa [same]
    · rw [reading] at stopped
      exact absurd stopped (by decide)

/-- The reader goes on, so it has not stopped before. -/
theorem Reads.unmarked {h : List Happening} {stream : Bytes} {c : Connection}
    (inv : Reads h stream c) (reading : c.reader = .reading) : .marked .reader ∉ h := by
  intro mem
  obtain ⟨stopped, -⟩ := inv.marked mem
  rw [reading] at stopped
  exact absurd stopped (by decide)

/-- A message goes over from what is left to what was taken. -/
theorem Reads.take {h : List Happening} {stream rest : Bytes} {c : Connection} {m : Message}
    (inv : Reads h stream c) (reading : c.reader = .reading)
    (front : Frame.read c.inputEnded c.input = .message m rest) :
    Reads (h ++ [.took m]) stream ({ c with input := rest }.accept m).1 := by
  obtain ⟨-, -, -, reader, -, -⟩ := accept_fields { c with input := rest } m
  obtain ⟨input, -⟩ := accept_input { c with input := rest } m
  have still : ({ c with input := rest }.accept m).1.reader = .reading := reader.trans reading
  refine ⟨fun following => ?_, fun dead => ?_, fun marked => ?_⟩
  · rw [inv.taken following, Frame.readAll_message (Frame.read_message_append front following),
      input]
    simp [Connection.taken, taken?]
  · rw [still] at dead
    contradiction
  · exact absurd (by simpa using marked) (inv.unmarked reading)

/-- The reader stops before what it met. -/
theorem Reads.stop {h : List Happening} {stream : Bytes} {c c' : Connection} {e : Option Happening}
    (inv : Reads h stream c) (input : c'.input = c.input) (untaken : e.bind taken? = none)
    (dead : c'.reader = .dead →
      .marked .reader ∉ h ++ e.toList ∧ ∃ length, c'.Meets (.oversized length))
    (marked : .marked .reader ∈ h ++ e.toList → (c'.reader = .closing ∨ c'.reader = .ended) ∧
      (c'.Meets .finished ∨ ∃ fault, c'.Meets (.failed fault))) :
    Reads (h ++ e.toList) stream c' := by
  refine ⟨fun following => ?_, dead, marked⟩
  rw [taken_append, untaken, input, Option.toList_none, List.append_nil]
  exact inv.taken following

/-- A read takes what stands at the front of the stream. -/
theorem Reads.read {h : List Happening} {stream : Bytes} {c c' : Connection} {events : List Event}
    (inv : Reads h stream c) (hstep : c.step .read = some (c', events)) :
    Reads (h ++ (c.happening .read).toList) stream c' := by
  have stepped := stepped_of_step hstep
  generalize c.happening .read = e at stepped ⊢
  cases stepped with
  | takes reading front => exact inv.take reading front
  | ends reading front =>
    refine inv.stop rfl rfl (fun dead => absurd dead (by simp)) fun _ => ⟨Or.inl rfl, Or.inl ?_⟩
    exact meets_of_read front (by simp) (by simp) rfl rfl
  | @breaks fault reading front =>
    refine inv.stop rfl rfl (fun dead => absurd dead (by simp)) fun _ =>
      ⟨Or.inl rfl, Or.inr ⟨fault, ?_⟩⟩
    exact meets_of_read front (by simp) (by simp) rfl rfl
  | @dies length reading front =>
    have unmarked := inv.unmarked reading
    refine inv.stop rfl rfl (fun _ => ⟨by simpa using unmarked, length, ?_⟩) fun marked =>
      absurd marked (by simpa using unmarked)
    exact meets_of_read front (by simp) (by simp) rfl rfl
  | clears closing =>
    refine inv.stop rfl rfl (fun dead => absurd dead (by simp)) fun marked => ⟨Or.inr rfl, ?_⟩
    exact (inv.marked (by simpa using marked)).2

/-- Every action keeps the messages taken in step with the stream received. -/
theorem Reads.step {h : List Happening} {stream : Bytes} {c c' : Connection} {a : Action}
    {events : List Event} (inv : Reads h stream c) (hstep : c.step a = some (c', events)) :
    Reads (h ++ (c.happening a).toList) (stream ++ received [a]) c' := by
  by_cases reads : a = .read
  · subst reads
    have nothing : received [.read] = [] := rfl
    rw [nothing, List.append_nil]
    exact inv.read hstep
  · exact inv.hears (hears_of_step hstep reads) reads

theorem Reads.run {actions : List Action} {h : List Happening} {stream : Bytes} {c c' : Connection}
    (inv : Reads h stream c) (hrun : run actions c = some c') :
    Reads (h ++ history actions c) (stream ++ received actions) c' := by
  -- along the actions, with the stream so far
  induction actions generalizing h stream c with
  | nil =>
    obtain rfl := Option.some.inj hrun
    simpa [history, received] using inv
  | cons a rest ih =>
    simp only [Connection.run, Option.bind_eq_some_iff] at hrun
    obtain ⟨⟨d, events⟩, hstep, hrun⟩ := hrun
    have split : received (a :: rest) = received [a] ++ received rest := by simp [received]
    have onward := ih (inv.step hstep) hrun
    rw [List.append_assoc, List.append_assoc] at onward
    simpa only [history, hstep, split] using onward

theorem reads_of_run {actions : List Action} {c : Connection} (hrun : run actions {} = some c) :
    Reads (history actions {}) (received actions) c :=
  reads_start.run hrun

/-! ## What the callers come to know -/

/-- As long as the connection is held nobody but the reader has closed it. -/
def ClosedByReader (h : List Happening) (c : Connection) : Prop :=
  c.release = .held → .marked .release ∉ h ∧ .cleared .release ∉ h

/-- No move lets anybody but the reader close a connection that is held. -/
theorem closedByReader_keep {h : List Happening} {c c' : Connection} {e : Option Happening}
    (inv : ClosedByReader h c) (move : Move c e c') : ClosedByReader (h ++ e.toList) c' := by
  have same (held : c'.release = .held → c.release = .held) (unmarked : e ≠ some (.marked .release))
      (uncleared : e ≠ some (.cleared .release)) : ClosedByReader (h ++ e.toList) c' := by
    intro holds
    obtain ⟨noMark, noClearing⟩ := inv (held holds)
    simp only [List.mem_append, Option.mem_toList, not_or]
    exact ⟨⟨noMark, unmarked⟩, noClearing, uncleared⟩
  cases move with
  | @take m rest reading front =>
    obtain ⟨-, -, -, -, release, -⟩ := accept_fields { c with input := rest } m
    exact same release.symm.trans (by simp) (by simp)
  | letGo | markRelease | clearRelease => exact fun holds => absurd holds (by simp)
  | notify core | respond core | quiet core =>
    exact same core.release.symm.trans (by simp) (by simp)
  | _ => exact same id (by simp) (by simp)

theorem closedByReader_of_run {actions : List Action} {c : Connection}
    (hrun : run actions {} = some c) : ClosedByReader (history actions {}) c :=
  run_induct (fun _ => ⟨List.not_mem_nil, List.not_mem_nil⟩) closedByReader_keep hrun

/-- Where the reader stands at a moment at which `h` has happened and the server has sent
`stream`, and what that means for the callers of a connection that is not given up. -/
structure ReaderEnd (h : List Happening) (stream : Bytes) (c : Connection) : Prop where
  /-- It has taken the messages at the front of the stream, in order, and the rest is left. -/
  reads : Frame.readAll stream =
    (taken h ++ (Frame.readAll c.input).1, (Frame.readAll c.input).2)
  /-- It dies only behind them, of a length that no body can have. -/
  dies : c.reader = .dead → ∃ length, Frame.maxBody < length ∧ length < Decimal.twoTo 64 ∧
    Frame.readAll stream = (taken h, .oversized length)
  /-- Then the connection does not count as closed. Who waits keeps its entry, and can only
  wait, until it is answered. -/
  strands : c.reader = .dead → c.release = .held → c.closed = false ∧
    (c.callers.length < UInt64.size → ∀ place id, c.callers[place]? = some (.waiting id) →
      (∀ outcome, ¬ AnsweredBy h place outcome) →
        (id, place) ∈ c.pending ∧ ∀ result, ¬ c.Resolves place result)
  /-- It ends behind them, because the stream does or because it is broken there. -/
  ends : c.reader = .ended → c.release = .held →
    Frame.readAll stream = (taken h, .finished) ∨
      ∃ fault, Frame.readAll stream = (taken h, .failed fault)
  /-- Then the connection counts as closed, no entry is left of a caller that saw no mark, and
  whoever was not answered fails. -/
  closes : c.reader = .ended → c.release = .held → c.closed = true ∧
    (∀ place, .looked place false ∈ h → ∀ id, (id, place) ∉ c.pending) ∧
    ∀ place caller, c.callers[place]? = some caller → caller ≠ .abandoned →
      (∀ outcome, ¬ AnsweredBy h place outcome) → c.Resolves place (.error .connectionClosed)

/-- In every run the reader has ended in one of the ways listed, or goes on. -/
theorem readerEnd_of_run {actions : List Action} {c : Connection}
    (hrun : run actions {} = some c) :
    ReaderEnd (history actions {}) (received actions) c := by
  have inv := reads_of_run hrun
  have tracked := tracked_of_run hrun
  have closing := tracked.closing
  have cleared (ended : c.reader = .ended) (held : c.release = .held) :
      .cleared .reader ∈ history actions {} :=
    (finishes_of_run hrun ended).resolve_right (absurd held)
  refine ⟨?_, ?_, ?_, ?_, ?_⟩
  · simpa using inv.taken []
  · intro dead
    obtain ⟨-, length, meets⟩ := inv.dead dead
    have front : Frame.read true c.input = .oversized length := by simpa using meets [] fun _ => rfl
    obtain ⟨tooLong, fits⟩ := Frame.bounds_of_oversized front
    exact ⟨length, tooLong, fits, inv.of_meets meets (by simp)⟩
  · intro dead held
    obtain ⟨unmarked, -⟩ := inv.dead dead
    obtain ⟨noMark, noClearing⟩ := closedByReader_of_run hrun held
    -- neither side has set the mark: the reader died before it could, and the connection is held
    have open_ : c.closed = false := by
      refine Bool.eq_false_iff.mpr fun closed => ?_
      obtain ⟨who, mem⟩ := closing.marks.closed_iff.mp closed
      cases who with
      | reader => exact unmarked mem
      | release => exact noMark mem
    refine ⟨open_, fun few place id stands unanswered => ?_⟩
    refine tracked.stands_on ((numbering_of_run hrun).ids_nodup few) stands unanswered ?_
    intro who mem
    have closed := closing.marks.closed_of_cleared mem
    rw [open_] at closed
    contradiction
  · intro ended held
    obtain ⟨past, future, split⟩ := List.append_of_mem (cleared ended held)
    have marked : .marked .reader ∈ history actions {} := by
      rw [split]
      exact List.mem_append_left _ ((closing.marks.order past _ future split).2.1 _ rfl)
    rcases (inv.marked marked).2 with finished | ⟨fault, failed⟩
    · exact Or.inl (inv.of_meets finished (by simp))
    · exact Or.inr ⟨fault, inv.of_meets failed (by simp)⟩
  · intro ended held
    have mem := cleared ended held
    exact ⟨closing.marks.closed_of_cleared mem,
      fun place looked id entry => closing.clearedOut _ mem id place entry looked,
      fun place caller stands waits unanswered => closing.resolves mem stands waits unanswered⟩

/-! ## Coming to the end -/

/-- A read leaves the release, the end of the input and the callers alone. -/
theorem read_spares {c c' : Connection} {events : List Event}
    (hstep : c.step .read = some (c', events)) :
    c'.release = c.release ∧ c'.inputEnded = c.inputEnded ∧ c'.callers = c.callers := by
  have stepped := stepped_of_step hstep
  generalize c.happening .read = e at stepped
  cases stepped with
  | @takes m rest =>
    obtain ⟨callers, -, -, -, release, -⟩ := accept_fields { c with input := rest } m
    exact ⟨release, (accept_input { c with input := rest } m).2, callers⟩
  | _ => exact ⟨rfl, rfl, rfl⟩

theorem reads_spare {n : Nat} {c c' : Connection}
    (hrun : run (List.replicate n .read) c = some c') :
    c'.release = c.release ∧ c'.inputEnded = c.inputEnded ∧ c'.callers = c.callers := by
  induction n generalizing c with
  | zero =>
    obtain rfl := Option.some.inj hrun
    exact ⟨rfl, rfl, rfl⟩
  | succ n ih =>
    simp only [List.replicate_succ, run, Option.bind_eq_some_iff] at hrun
    obtain ⟨⟨d, events⟩, hstep, hrun⟩ := hrun
    obtain ⟨release, ended, callers⟩ := ih hrun
    obtain ⟨release', ended', callers'⟩ := read_spares hstep
    exact ⟨release.trans release', ended.trans ended', callers.trans callers'⟩

theorem received_reads (actions : List Action) (n : Nat) :
    received (actions ++ List.replicate n .read) = received actions := by
  simp [received, List.flatMap_replicate]

/-- **No output but an oversized length kills the reader.** Reading the front of a stream
gives a message, an end or a failure, or waits, unless the header block there announces a body
of `2 ^ 63` bytes or more. So at every moment of every run the reader is where its stream
leads it (`ReaderEnd`), and when the output of the server has ended, it comes to its end by
steps of its own: dead, if the stream comes to such a length, and otherwise having told
everybody that the conversation is over. -/
theorem reader_end {actions : List Action} {c : Connection} (hrun : run actions {} = some c) :
    (∀ ended input length, Frame.read ended input = .oversized length ↔
      Frame.AnnouncesBody ended input length ∧ Frame.maxBody < length) ∧
    ReaderEnd (history actions {}) (received actions) c ∧
    (c.inputEnded = true → c.release = .held →
      ∃ n c', run (actions ++ List.replicate n .read) {} = some c' ∧ c'.release = .held ∧
        ReaderEnd (history (actions ++ List.replicate n .read) {}) (received actions) c' ∧
        ((∃ length, (Frame.readAll (received actions)).2 = .oversized length) ∧
            c'.reader = .dead ∨
          (∀ length, (Frame.readAll (received actions)).2 ≠ .oversized length) ∧
            c'.reader = .ended)) := by
  refine ⟨fun _ _ _ => Frame.read_eq_oversized, readerEnd_of_run hrun, fun spent held => ?_⟩
  obtain ⟨n, c', goesOn, rest⟩ := reads_out spent
  have whole : run (actions ++ List.replicate n .read) {} = some c' :=
    (run_append hrun).trans goesOn
  obtain ⟨release, ended, -⟩ := reads_spare goesOn
  have held' := release.trans held
  have fate := readerEnd_of_run whole
  rw [received_reads] at fate
  refine ⟨n, c', whole, held', fate, ?_⟩
  -- with its input ended the reader reads on until it dies or comes to the end
  by_cases dead : c'.reader = .dead
  · obtain ⟨length, -, -, reads⟩ := fate.dies dead
    exact Or.inl ⟨⟨length, by rw [reads]⟩, dead⟩
  · have stopped := reader_of_rest (ended.trans spent) rest dead
    refine Or.inr ⟨fun length => ?_, stopped⟩
    rcases fate.ends stopped held' with reads | ⟨fault, reads⟩
    · simp [reads]
    · simp [reads]

/-- A caller waits when the server announces a body of so many bytes and closes its output. -/
def announced (length : Nat) : List Action :=
  [.call "a" .null, .advance 0, .advance 0, .advance 0, .advance 0,
    .receive (Frame.header length), .endInput]

/-- Where that leads to. -/
def waitingFor (length : Nat) : Connection where
  nextId := 2
  pending := [(1, 0)]
  queue := [.request 1 "a" .null]
  input := Frame.header length
  inputEnded := true
  callers := [.waiting 1]

theorem run_announced (length : Nat) : run (announced length) {} = some (waitingFor length) := rfl

theorem received_announced (length : Nat) : received (announced length) = Frame.header length := by
  simp [received, announced]

/-- The first length that no body can have. The reader dies of it, and then neither it nor
the caller can go on. The output has ended, but the connection does not count as closed; the
entry stands, and the caller comes to nothing. -/
theorem oversized_length_strands :
    ∃ c, run (announced (2 ^ 63) ++ [.read]) {} = some c ∧ c.inputEnded = true ∧ c.AtRest ∧
      c.reader = .dead ∧ c.closed = false ∧ c.pending = [(1, 0)] ∧
      ∀ result, ¬ c.Resolves 0 result := by
  have front : Frame.read true (Frame.header (2 ^ 63)) = .oversized (2 ^ 63) := by
    refine Frame.read_eq_oversized.mpr ⟨⟨[], ?_⟩, by decide⟩
    have block := Frame.readBlock_header true (show 2 ^ 63 < Decimal.twoTo 64 by decide) []
    rwa [List.append_nil] at block
  have dies : run [.read] (waitingFor (2 ^ 63)) =
      some { waitingFor (2 ^ 63) with reader := .dead } := by
    simp only [run, Connection.step, Connection.read, waitingFor, front, Option.bind_some]
  refine ⟨_, (run_append (run_announced _)).trans dies, rfl, ?_, rfl, rfl, rfl,
    not_resolves_of_waiting rfl rfl⟩
  exact (atRest_iff _).mp ⟨rfl, by decide⟩

/-- `reader_end` where a body of a mebibyte is announced and not a byte of it comes: the caller
comes to know that the conversation is over. -/
theorem reader_end_missing_body :
    ∃ n c, run (announced (2 ^ 20) ++ List.replicate n .read) {} = some c ∧
      c.reader = .ended ∧ c.closed = true ∧ c.Resolves 0 (.error .connectionClosed) := by
  have front : Frame.read true (Frame.header (2 ^ 20)) =
      .failed (.io .unexpectedEof "early eof") := by
    have block := Frame.readBlock_header true (show 2 ^ 20 < Decimal.twoTo 64 by decide) []
    rw [List.append_nil] at block
    rw [Frame.read, block]
    rfl
  have reads : Frame.readAll (Frame.header (2 ^ 20)) =
      ([], .failed (.io .unexpectedEof "early eof")) := Frame.readAll_last front (by simp)
  obtain ⟨-, -, comes⟩ := reader_end (run_announced (2 ^ 20))
  obtain ⟨n, c, hrun, held, fate, which⟩ := comes rfl rfl
  rw [received_announced] at fate which
  rw [reads] at which
  rcases which with ⟨⟨length, oversized⟩, -⟩ | ⟨-, ended⟩
  · simp at oversized
  · have goesOn := (run_append (run_announced (2 ^ 20))).symm.trans hrun
    obtain ⟨-, -, callers⟩ := reads_spare goesOn
    have waits : c.callers[0]? = some (.waiting 1) := by
      rw [callers]
      rfl
    obtain ⟨closed, -, resolves⟩ := fate.closes ended held
    refine ⟨n, c, hrun, ended, closed, resolves 0 _ waits (by simp) (not_answeredBy ?_ 0)⟩
    -- nothing was taken, for there is no message in the stream
    intro m took
    have mem := List.mem_append_left (Frame.readAll c.input).1 (mem_taken took)
    rw [← (Prod.mk.inj fate.reads).1, reads] at mem
    exact absurd mem List.not_mem_nil

end EmberClient.Connection
