import EmberClient.Proofs.Rpc.Delimiting
import Mathlib.Data.List.Forall2

/-!
# A stream that is cut off is not taken for a whole one

What is left of a stream of frames when it breaks off anywhere is some whole frames and a
part of the next one (`exists_parts`). The whole ones read as before; the part is told from
a clean end by what it lacks.

* Without the blank line it is header lines that do not end: whatever the last of them says,
  also with a length cut short, the stream ended among them (`read_headPart`).
* From the carriage return of the blank line on the block counts as complete, and it is the
  body that is too short (`read_bodyPart`). No body is empty, so at least one byte is missing.

> `cut_stream_reads`: so only between two frames does a stream end cleanly, and no cut makes
> a message out of a part of one.
-/

namespace EmberClient

namespace Text

/-! ## Parts of texts -/

/-- A text of characters within ASCII has one byte for each of them. -/
theorem utf8_ofList_ascii {cs : List Char} (ascii : ∀ c ∈ cs, c.toNat < 0x80) :
    utf8 (String.ofList cs) = cs.map fun c => UInt8.ofNat c.toNat := by
  rw [utf8_eq_flatMap, String.toList_ofList]
  induction cs with
  | nil => rfl
  | cons c cs ih =>
    have one : String.utf8EncodeChar c = [UInt8.ofNat c.toNat] := by
      unfold String.utf8EncodeChar
      exact if_pos (Nat.le_of_lt_succ (ascii c List.mem_cons_self))
    rw [List.flatMap_cons, one, ih fun d member => ascii d (List.mem_cons_of_mem _ member)]
    rfl

/-- What stands at the front of such a text is a text. -/
theorem exists_of_prefix_utf8 {cs : List Char} (ascii : ∀ c ∈ cs, c.toNat < 0x80) {front : Bytes}
    (isFront : front <+: utf8 (String.ofList cs)) :
    ∃ cs', cs' <+: cs ∧ front = utf8 (String.ofList cs') := by
  rw [utf8_ofList_ascii ascii, List.prefix_iff_eq_take, ← List.map_take] at isFront
  have fewer : cs.take front.length <+: cs := List.take_prefix _ _
  refine ⟨cs.take front.length, fewer, isFront.trans ?_⟩
  exact (utf8_ofList_ascii fun c member => ascii c (fewer.subset member)).symm

end Text

namespace Frame

open Text

/-! ## Frames -/

/-- The bytes behind the header of a message. -/
def body (m : Message) : Bytes := utf8 m.toJson.text

/-- The body of the first message is not longer than a body can be, and decodes as the second. -/
structure Decodes (m m' : Message) : Prop where
  short : (body m).length ≤ maxBody
  decoded : decodeBody (body m) = .ok m'

/-- How many bytes of a frame stand in front of the carriage return of its blank line. -/
def blankAt (m : Message) : Nat := (header (body m).length).length - 2

/-- Where the frame begins that stands behind the first `k`. -/
def boundary (sent : List Message) (k : Nat) : Nat := ((sent.take k).flatMap encode).length

/-- A frame is its length line, a blank line and the body. -/
theorem encode_eq (m : Message) :
    encode m = utf8 (lengthLine (body m).length ++ "\n") ++ ([13, 10] ++ body m) := by
  show header (body m).length ++ body m = _
  rw [header_eq, List.append_assoc]
  rfl

theorem blankAt_eq (m : Message) :
    blankAt m = (utf8 (lengthLine (body m).length ++ "\n")).length := by
  have blank : (utf8 ("\r" ++ "\n")).length = 2 := rfl
  rw [blankAt, header_eq, List.length_append, blank, Nat.add_sub_cancel]

theorem Decodes.of_readable {m m' : Message} (decodes : Decodes m m') (readable : Readable m) :
    m' = m.settled :=
  Except.ok.inj (decodes.decoded.symm.trans (decodeBody_text readable))

/-- The frame at the front of a stream reads as what its body decodes as. -/
theorem Decodes.read {m m' : Message} (decodes : Decodes m m') (rest : Bytes) :
    Frame.read true (encode m ++ rest) = .message m' rest := by
  show Frame.read true (header (body m).length ++ body m ++ rest) = _
  rw [List.append_assoc]
  exact read_header true decodes.short decodes.decoded rest

/-- Frames at the front of a stream read as what their bodies decode as, and then comes
whatever stands behind them. -/
theorem readAll_frames {sent back : List Message} (decodes : List.Forall₂ Decodes sent back)
    (rest : Bytes) :
    readAll (sent.flatMap encode ++ rest) = (back ++ (readAll rest).1, (readAll rest).2) := by
  induction decodes with
  | nil => rfl
  | cons first _ ih =>
    rw [List.flatMap_cons, List.append_assoc, readAll_message (first.read _), ih]
    rfl

/-! ## Parts of a frame -/

/-- A length that is none breaks the protocol. -/
theorem protocol_of_lengthAfter {content : List Char} {length : Option Nat} {fault : Fault}
    (wrong : lengthAfter content length = .error fault) : ∃ detail, fault = .protocol detail := by
  unfold lengthAfter at wrong
  split at wrong
  · contradiction
  · split at wrong
    · contradiction
    · exact ⟨_, (Except.error.inj wrong).symm⟩

/-- A stream that ends behind a filled line ends among header lines, whatever the line
says. -/
theorem passLine_last {line : Bytes} {text : String} (decoded : ofUtf8? line = some text)
    (filled : (lineContent text).isEmpty = false) (length : Option Nat) (seen : Bool) :
    ∃ detail, passLine true length seen line [] = .failed (.protocol detail) := by
  simp only [passLine, decoded, filled, Bool.false_eq_true, if_false]
  cases said : lengthAfter (lineContent text) length with
  | error fault =>
    obtain ⟨detail, rfl⟩ := protocol_of_lengthAfter said
    exact ⟨detail, rfl⟩
  | ok length =>
    refine ⟨"stream ended inside message headers", ?_⟩
    show readBlock true length true [] = _
    rw [readBlock_eq]
    rfl

theorem toList_lengthLine_ascii (n : Nat) : ∀ c ∈ (lengthLine n).toList, c.toNat < 0x80 := by
  rw [toList_lengthLine]
  intro c member
  rcases List.mem_append.mp member with member | member
  · rcases List.mem_append.mp member with member | member
    · have fixed : ("Content-Length: ".toList.all fun c => c.toNat < 0x80) = true := by decide
      exact of_decide_eq_true (List.all_eq_true.mp fixed c member)
    · have digit : c.isDigit = true := Nat.isDigit_of_mem_toDigits (by decide) (by decide) member
      have range : 48 ≤ c.toNat ∧ c.toNat ≤ 57 := by
        simpa [Char.isDigit, UInt32.le_iff_toNat_le] using digit
      omega
  · obtain rfl := List.mem_singleton.mp member
    decide

/-- A line with a letter in it is filled. -/
theorem filled_of_mem {text : String} (letter : 'C' ∈ text.toList) :
    (lineContent text).isEmpty = false :=
  Bool.eq_false_iff.mpr fun blank => absurd (lineContent_isEmpty.mp blank 'C' letter) (by decide)

/-- A part of a frame that ends in front of the blank line is one line, if it is anything. -/
theorem takeLine_headPart {n : Nat} {part : Bytes} (isFront : part <+: utf8 (lengthLine n ++ "\n"))
    (started : part ≠ []) :
    takeLine true part = some (part, []) ∧
      ∃ text, ofUtf8? part = some text ∧ (lineContent text).isEmpty = false := by
  have letters : (lengthLine n).toList = 'C' :: ("ontent-Length: ".toList ++ Nat.toDigits 10 n ++ ['\r']) :=
    toList_lengthLine n
  have shape : utf8 (lengthLine n ++ "\n") = utf8 (lengthLine n) ++ [10] := utf8_append _ _
  -- the part is the whole line, or breaks off before its end
  rcases List.prefix_concat_iff.mp (shape ▸ isFront) with whole | inside
  · obtain rfl : part = utf8 (lengthLine n ++ "\n") := whole.trans shape.symm
    have taken := takeLine_utf8 true (lineFeed_notMem_lengthLine n) []
    rw [List.append_nil] at taken
    exact ⟨taken, _, ofUtf8?_utf8 _, filled_of_mem (by simp [letters])⟩
  · have feed : 10 ∉ part := fun member =>
      lineFeed_notMem_utf8 (lineFeed_notMem_lengthLine n) (inside.subset member)
    refine ⟨?_, ?_⟩
    · rcases takeLine_cases true part with ⟨front, rest, -, rfl, -⟩ | ⟨-, taken⟩
      · exact absurd (by simp) feed
      · exact taken
    · rw [← String.ofList_toList (s := lengthLine n)] at inside
      obtain ⟨cs, fewer, rfl⟩ := exists_of_prefix_utf8 (toList_lengthLine_ascii n) inside
      refine ⟨_, ofUtf8?_utf8 _, filled_of_mem ?_⟩
      rw [String.toList_ofList]
      rw [letters] at fewer
      cases cs with
      | nil => exact absurd rfl started
      | cons c cs =>
        obtain ⟨rfl, -⟩ := List.cons_prefix_cons.mp fewer
        exact List.mem_cons_self

/-- A part of a frame that ends in front of the blank line breaks the protocol. -/
theorem read_headPart {n : Nat} {part : Bytes} (isFront : part <+: utf8 (lengthLine n ++ "\n"))
    (started : part ≠ []) : ∃ detail, read true part = .failed (.protocol detail) := by
  obtain ⟨taken, text, decoded, filled⟩ := takeLine_headPart isFront started
  obtain ⟨detail, last⟩ := passLine_last decoded filled none false
  have nonempty : (true && part.isEmpty) = false := by simpa using started
  refine ⟨detail, ?_⟩
  rw [read, readBlock_eq, nonempty, if_neg Bool.false_ne_true, taken]
  simp only [last]

/-- A part of a frame that ends behind the carriage return of the blank line lacks bytes of
the body. -/
theorem read_bodyPart {m m' : Message} (decodes : Decodes m m') {more : Bytes}
    (isFront : more <+: [13, 10] ++ body m) (started : more ≠ [])
    (proper : more ≠ [13, 10] ++ body m) :
    read true (utf8 (lengthLine (body m).length ++ "\n") ++ more) =
      .failed (.io .unexpectedEof "early eof") := by
  have fits : (body m).length < Decimal.twoTo 64 := Nat.lt_of_le_of_lt decodes.short (by decide)
  -- the blank line is there, and of the body less than its length
  obtain ⟨part, complete, less⟩ : ∃ part, readBlock true (some (body m).length) true more =
      .complete (some (body m).length) part ∧ part.length < (body m).length := by
    rcases List.prefix_cons_iff.mp isFront with nothing | ⟨rest, rfl, behind⟩
    · exact absurd nothing started
    · have behind : rest <+: 10 :: body m := behind
      rcases List.prefix_cons_iff.mp behind with rfl | ⟨part, rfl, inside⟩
      · refine ⟨[], ?_, List.length_pos_iff.mpr (ne_nil_of_decodeBody decodes.decoded)⟩
        rw [readBlock_eq]
        exact passLine_cons_return true _ true [] []
      · refine ⟨part, ?_, ?_⟩
        · have oneLine : '\n' ∉ ("\r" : String).toList := by decide
          exact readBlock_line true true _ oneLine part
        · refine Nat.lt_of_le_of_ne inside.length_le fun same => proper ?_
          rw [inside.eq_of_length same]
          rfl
  have room : ¬maxBody < (body m).length := Nat.not_lt.mpr decodes.short
  rw [read, readBlock_lengthLine true fits, complete]
  simp only [readBody, if_neg room, if_pos less, if_true]

/-! ## Cuts -/

/-- What is left of a stream of frames is some whole frames and a part of the next one. -/
theorem exists_parts {sent : List Message} {cut : Bytes} (isFront : cut <+: sent.flatMap encode) :
    ∃ k ≤ sent.length, ∃ part, cut = (sent.take k).flatMap encode ++ part ∧
      (part = [] ∨ ∃ m, sent[k]? = some m ∧ part <+: encode m ∧ part ≠ encode m) := by
  -- along the messages: the cut is behind the first frame or within it
  induction sent generalizing cut with
  | nil => exact ⟨0, Nat.le_refl 0, [], List.prefix_nil.mp isFront, .inl rfl⟩
  | cons m sent ih =>
    rw [List.flatMap_cons] at isFront
    by_cases whole : encode m <+: cut
    · obtain ⟨rest, rfl⟩ := whole
      obtain ⟨k, inside, part, rfl, next⟩ := ih ((List.prefix_append_right_inj _).mp isFront)
      refine ⟨k + 1, Nat.succ_le_succ inside, part, ?_, next⟩
      rw [List.take_succ_cons, List.flatMap_cons, List.append_assoc]
    · refine ⟨0, Nat.zero_le _, cut, rfl, .inr ⟨m, rfl, ?_, ?_⟩⟩
      · exact (List.prefix_or_prefix_of_prefix isFront (List.prefix_append _ _)).resolve_right whole
      · rintro rfl
        exact whole List.prefix_rfl

/-- A part of a frame is a failure: of the protocol up to the blank line, of the stream from
its carriage return on. -/
theorem read_part {m m' : Message} (decodes : Decodes m m') {part : Bytes}
    (isFront : part <+: encode m) (started : part ≠ []) (proper : part ≠ encode m) :
    ∃ fault, read true part = .failed fault ∧
      (part.length ≤ blankAt m → ∃ detail, fault = .protocol detail) ∧
      (blankAt m < part.length → fault = .io .unexpectedEof "early eof") := by
  rw [encode_eq] at isFront proper
  rw [blankAt_eq]
  rcases Nat.lt_or_ge (utf8 (lengthLine (body m).length ++ "\n")).length part.length with behind | inside
  · obtain ⟨more, rfl⟩ :=
      List.prefix_of_prefix_length_le (List.prefix_append _ _) isFront (Nat.le_of_lt behind)
    have isFront : more <+: [13, 10] ++ body m := (List.prefix_append_right_inj _).mp isFront
    have further : more ≠ [] := by
      rintro rfl
      simp at behind
    have lacking : more ≠ [13, 10] ++ body m := by
      rintro rfl
      exact proper rfl
    exact ⟨_, read_bodyPart decodes isFront further lacking,
      fun inside => absurd inside (Nat.not_le.mpr behind), fun _ => rfl⟩
  · have isFront : part <+: utf8 (lengthLine (body m).length ++ "\n") :=
      List.prefix_of_prefix_length_le isFront (List.prefix_append _ _) inside
    obtain ⟨detail, failed⟩ := read_headPart isFront started
    exact ⟨_, failed, fun _ => ⟨detail, rfl⟩, fun behind => absurd inside (Nat.not_le.mpr behind)⟩

/-! ## Boundaries -/

theorem boundary_succ {sent : List Message} {j : Nat} {m : Message} (next : sent[j]? = some m) :
    boundary sent (j + 1) = boundary sent j + (encode m).length := by
  rw [boundary, boundary, List.take_add_one, next, List.flatMap_append, List.length_append]
  simp

theorem boundary_mono (sent : List Message) {i j : Nat} (le : i ≤ j) :
    boundary sent i ≤ boundary sent j := by
  obtain ⟨more, front⟩ := List.take_prefix_take_left (l := sent) le
  rw [boundary, boundary, ← front, List.flatMap_append, List.length_append]
  exact Nat.le_add_right _ _

/-- No frame is empty. -/
theorem length_encode_pos (m : Message) : 0 < (encode m).length := by
  rw [encode_eq, List.length_append]
  exact Nat.add_pos_right _ (Nat.succ_pos _)

/-- The frames up to one are shorter than the frames with it. -/
theorem boundary_lt {sent : List Message} {i j : Nat} (lt : i < j) (inside : i < sent.length) :
    boundary sent i < boundary sent j := by
  have step := boundary_succ (List.getElem?_eq_getElem inside)
  have := length_encode_pos sent[i]
  have := boundary_mono sent (show i + 1 ≤ j from lt)
  omega

/-- A frame that begins before another stands before it. -/
theorem lt_of_boundary_lt {sent : List Message} {i j : Nat}
    (less : boundary sent i < boundary sent j) : i < j :=
  Nat.lt_of_not_le fun le => absurd (boundary_mono sent le) (Nat.not_le.mpr less)

/-- The frames that lie wholly inside so many bytes are those in front of the last boundary
that is reached. -/
theorem whole_iff {sent : List Message} {k n : Nat} (reached : boundary sent k ≤ n)
    (below : k < sent.length → n < boundary sent (k + 1)) {i : Nat} (there : i < sent.length) :
    boundary sent (i + 1) ≤ n ↔ i < k := by
  constructor
  · intro whole
    by_contra beyond
    have last : k < sent.length := Nat.lt_of_le_of_lt (Nat.le_of_not_lt beyond) there
    exact absurd (lt_of_boundary_lt (Nat.lt_of_le_of_lt whole (below last))) (by omega)
  · intro before
    exact Nat.le_trans (boundary_mono sent before) reached

/-- No boundary stands inside a frame. -/
theorem ne_boundary {sent : List Message} {k n : Nat} (above : boundary sent k < n)
    (below : n < boundary sent (k + 1)) (j : Nat) : n ≠ boundary sent j := by
  rintro rfl
  have lower := lt_of_boundary_lt above
  have upper := lt_of_boundary_lt below
  omega

/-- No two frames overlap. -/
theorem frame_unique {sent : List Message} {j k n : Nat} (jAbove : boundary sent j < n)
    (jBelow : n < boundary sent (j + 1)) (kAbove : boundary sent k < n)
    (kBelow : n < boundary sent (k + 1)) : j = k := by
  have upper := lt_of_boundary_lt (Nat.lt_trans jAbove kBelow)
  have lower := lt_of_boundary_lt (Nat.lt_trans kAbove jBelow)
  omega

theorem decodes_of_getElem? {sent back : List Message} (decodes : List.Forall₂ Decodes sent back)
    {k : Nat} {m : Message} (here : sent[k]? = some m) : ∃ m', Decodes m m' := by
  obtain ⟨inside, rfl⟩ := List.getElem?_eq_some_iff.mp here
  exact ⟨_, decodes.get inside (decodes.length_eq ▸ inside)⟩

theorem decodes_of_readable {sent : List Message} (readable : ∀ m ∈ sent, Readable m) :
    List.Forall₂ Decodes sent (sent.map Message.settled) :=
  List.forall₂_map_right_iff.mpr (List.forall₂_same.mpr fun m member =>
    ⟨(readable m member).short, decodeBody_text (readable m member)⟩)

/-- Readable messages come back as they settle. -/
theorem back_of_readable {sent back : List Message} (decodes : List.Forall₂ Decodes sent back)
    (readable : ∀ m ∈ sent, Readable m) : back = sent.map Message.settled := by
  induction decodes with
  | nil => rfl
  | cons first _ ih =>
    rw [first.of_readable (readable _ List.mem_cons_self),
      ih fun m member => readable m (List.mem_cons_of_mem _ member), List.map_cons]

/-- **A truncated stream is never mistaken for a complete one.** Whatever is left of the
frames of messages whose bodies decode again, the reader finds the messages whose frames
are whole and no others. Then it comes to a clean end just at a boundary between two frames.
Inside a frame it fails: up to the carriage return of the blank line because the protocol is
broken, and from there on because the stream ends too early. -/
theorem cut_stream_reads {sent back : List Message} (decodes : List.Forall₂ Decodes sent back)
    {cut : Bytes} (isFront : cut <+: sent.flatMap encode) :
    ∃ k ≤ sent.length,
      (∀ i < sent.length, boundary sent (i + 1) ≤ cut.length ↔ i < k) ∧
      (readAll cut).1 = back.take k ∧
      ((∀ m ∈ sent, Readable m) → back.take k = (sent.take k).map Message.settled) ∧
      ((readAll cut).2 = .finished ↔ ∃ j ≤ sent.length, cut.length = boundary sent j) ∧
      ∀ j m, sent[j]? = some m → boundary sent j < cut.length → cut.length < boundary sent (j + 1) →
        (cut.length ≤ boundary sent j + blankAt m →
          ∃ detail, (readAll cut).2 = .failed (.protocol detail)) ∧
        (boundary sent j + blankAt m < cut.length →
          (readAll cut).2 = .failed (.io .unexpectedEof "early eof")) := by
  obtain ⟨k, inside, part, rfl, next⟩ := exists_parts isFront
  have size : ((sent.take k).flatMap encode ++ part).length = boundary sent k + part.length :=
    List.length_append
  have written : (∀ m ∈ sent, Readable m) → back.take k = (sent.take k).map Message.settled :=
    fun readable => by rw [back_of_readable decodes readable, List.map_take]
  rw [size, readAll_frames (List.forall₂_take k decodes) part]
  rcases eq_or_ne part [] with rfl | started
  · -- at a boundary every frame that has begun is whole
    have whole : ∀ i < sent.length, boundary sent (i + 1) ≤ boundary sent k ↔ i < k := fun i there =>
      whole_iff (Nat.le_refl _) (boundary_lt (Nat.lt_succ_self k)) there
    rw [readAll_nil, List.append_nil, List.length_nil, Nat.add_zero]
    refine ⟨k, inside, whole, rfl, written, iff_of_true rfl ⟨k, inside, rfl⟩,
      fun j m there above below => ?_⟩
    have there : j < sent.length := (List.getElem?_eq_some_iff.mp there).1
    exact absurd ((whole j there).mpr (lt_of_boundary_lt above)) (Nat.not_le.mpr below)
  · -- behind it the next frame has begun, and is a failure
    obtain ⟨m, here, front, proper⟩ := next.resolve_left started
    obtain ⟨m', decoded⟩ := decodes_of_getElem? decodes here
    obtain ⟨fault, failed, header, behind⟩ := read_part decoded front started proper
    have above : boundary sent k < boundary sent k + part.length :=
      Nat.lt_add_of_pos_right (List.length_pos_iff.mpr started)
    have below : boundary sent k + part.length < boundary sent (k + 1) := by
      rw [boundary_succ here]
      exact Nat.add_lt_add_left
        (Nat.lt_of_le_of_ne front.length_le fun same => proper (front.eq_of_length same)) _
    rw [readAll_last failed (by simp), List.append_nil]
    refine ⟨k, inside, fun i there => whole_iff (Nat.le_of_lt above) (fun _ => below) there, rfl,
      written, iff_of_false (by simp) fun ⟨j, _, same⟩ => ne_boundary above below j same,
      fun j n there jAbove jBelow => ?_⟩
    obtain rfl := frame_unique jAbove jBelow above below
    obtain rfl := Option.some.inj (there.symm.trans here)
    refine ⟨fun before => ?_, fun after => ?_⟩
    · obtain ⟨detail, rfl⟩ := header (Nat.le_of_add_le_add_left before)
      exact ⟨detail, rfl⟩
    · rw [behind (Nat.lt_of_add_lt_add_left after)]

/-- `cut_stream_reads` in the middle of a number: of the length 89 of the last of four bodies
only the first digit is left. -/
theorem cut_stream_reads_digits :
    List.Forall₂ Decodes exchange (exchange.map Message.settled) ∧
      (exchange.take 3).flatMap encode ++ utf8 "Content-Length: 8" <+: exchange.flatMap encode ∧
      (readAll ((exchange.take 3).flatMap encode ++ utf8 "Content-Length: 8")).1 =
        (exchange.take 3).map Message.settled ∧
      ∃ detail, (readAll ((exchange.take 3).flatMap encode ++ utf8 "Content-Length: 8")).2 =
        .failed (.protocol detail) := by
  have readable : ∀ m ∈ exchange, Readable m := by decide +kernel
  have decodes := decodes_of_readable readable
  have isFront : (exchange.take 3).flatMap encode ++ utf8 "Content-Length: 8" <+:
      exchange.flatMap encode := by decide +kernel
  have size : ((exchange.take 3).flatMap encode ++ utf8 "Content-Length: 8").length = 245 ∧
      boundary exchange 3 = 228 ∧ boundary exchange 4 = 339 ∧
      blankAt (.response (.ofNat 7) (.error ⟨-32601, "unhandled method", some (.arr [.ofInt (-5)])⟩)) =
        20 := by decide +kernel
  obtain ⟨size, third, fourth, blank⟩ := size
  obtain ⟨k, inside, whole, front, same, -, failures⟩ := cut_stream_reads decodes isFront
  rw [size] at whole failures
  have many : k = 3 := by
    have before : boundary exchange 3 ≤ 245 ↔ 2 < k := whole 2 (by decide)
    have last : boundary exchange 4 ≤ 245 ↔ 3 < k := whole 3 (by decide)
    omega
  subst many
  refine ⟨decodes, isFront, front.trans (same readable), ?_⟩
  exact (failures 3 _ rfl (by omega) (show 245 < boundary exchange 4 by omega)).1 (by omega)

end Frame
end EmberClient
