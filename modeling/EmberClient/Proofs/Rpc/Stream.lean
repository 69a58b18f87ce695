import EmberClient.Proofs.Lists
import EmberClient.Proofs.Rpc.Envelope
import EmberClient.Rpc.Frame

/-!
# What is written on a stream is read from it

`Frame.encode` counts the bytes of a body and writes the count in front of it in decimal
digits; `Frame.read` knows nothing of that and takes header lines as they come. The two
meet in three steps.

* A line is a line for the reader because no byte of it is a line feed, and that is so
  because no character but the line feed has that byte (`lineFeed_notMem_utf8`).
* The block that is written is one line with the length and one blank line, and the
  digits of the length are read as the length (`readBlock_header`).
* So many bytes behind it are the body, which reads back as the message
  (`read_encode`), and what stands behind the body is left alone.

`readAll` repeats this to the end of a stream, and by induction on the list of messages

> `written_stream_reads_back`: the messages come out as they went in, as many and in
> their order, and behind them the clean end.
-/

namespace EmberClient.Text

/-! ## Bytes of a line -/

/-- A byte of a character is the character itself or no byte of the ASCII range. -/
theorem byte_of_mem_utf8EncodeChar {b : UInt8} {c : Char} (h : b ∈ String.utf8EncodeChar c) :
    b.toNat = c.toNat ∨ 0x80 ≤ b.toNat := by
  unfold String.utf8EncodeChar at h
  simp only at h
  split_ifs at h <;> simp only [List.mem_cons, List.not_mem_nil, or_false] at h
  · left
    rw [h, UInt8.toNat_ofNat', Char.toNat]
    omega
  · rcases h with h | h <;> rw [h, UInt8.toNat_ofNat'] <;> omega
  · rcases h with h | h | h <;> rw [h, UInt8.toNat_ofNat'] <;> omega
  · rcases h with h | h | h | h <;> rw [h, UInt8.toNat_ofNat'] <;> omega

theorem utf8_eq_flatMap (s : String) : utf8 s = s.toList.flatMap String.utf8EncodeChar := by
  have bytes : s.toUTF8 = s.toList.utf8Encode := String.utf8Encode_toList.symm
  rw [utf8, bytes, List.utf8Encode]
  simp

/-- Only a line feed has the byte of a line feed. -/
theorem lineFeed_notMem_utf8 {s : String} (oneLine : '\n' ∉ s.toList) : 10 ∉ utf8 s := by
  rw [utf8_eq_flatMap, List.mem_flatMap]
  rintro ⟨c, member, byte⟩
  rcases byte_of_mem_utf8EncodeChar byte with same | high
  · have : c = '\n' := Char.toNat_inj.mp same.symm
    exact oneLine (this ▸ member)
  · exact absurd high (by decide)

end EmberClient.Text

namespace EmberClient.Frame

open Text

/-! ## Header lines -/

/-- Up to its first line feed a stream is one line, whether or not more can come. -/
theorem takeLine_lineFeed (ended : Bool) {front : Bytes} (inside : 10 ∉ front) (rest : Bytes) :
    takeLine ended (front ++ 10 :: rest) = some (front ++ [10], rest) := by
  have other : ∀ b ∈ front, decide (b ≠ 10) = true := fun b member =>
    decide_eq_true fun same => inside (same ▸ member)
  have taken : (front ++ 10 :: rest).takeWhile (· ≠ 10) = front := by
    rw [List.takeWhile_append_of_pos other]
    simp
  rw [takeLine, taken, List.drop_left]

theorem takeLine_utf8 (ended : Bool) {line : String} (oneLine : '\n' ∉ line.toList) (rest : Bytes) :
    takeLine ended (utf8 (line ++ "\n") ++ rest) = some (utf8 (line ++ "\n"), rest) := by
  have shape : utf8 (line ++ "\n") = utf8 line ++ [10] := utf8_append line "\n"
  rw [shape, List.append_assoc, List.singleton_append]
  exact takeLine_lineFeed ended (lineFeed_notMem_utf8 oneLine) rest

/-- What a line at the front of a block leads to. -/
def passLine (ended : Bool) (length : Option Nat) (seen : Bool) (line rest : Bytes) : Block :=
  match ofUtf8? line with
  | none => .failed (.io .invalidData "stream did not contain valid UTF-8")
  | some text =>
    if (lineContent text).isEmpty then
      if seen then .complete length rest else readBlock ended length seen rest
    else
      match lengthAfter (lineContent text) length with
      | .error fault => .failed fault
      | .ok length => readBlock ended length true rest

/-- A block is read line by line. -/
theorem readBlock_eq (ended : Bool) (length : Option Nat) (seen : Bool) (input : Bytes) :
    readBlock ended length seen input =
      if ended && input.isEmpty then
        if seen then .failed (.protocol "stream ended inside message headers") else .finished
      else
        match takeLine ended input with
        | none => .waiting
        | some (line, rest) => passLine ended length seen line rest := by
  rw [readBlock]
  split
  · rfl
  · split
    · next none => rw [none]
    · next line rest taken =>
      rw [taken]
      rfl

/-- A block goes on with its first line, whatever stands behind it. -/
theorem readBlock_line (ended seen : Bool) (length : Option Nat) {line : String}
    (oneLine : '\n' ∉ line.toList) (rest : Bytes) :
    readBlock ended length seen (utf8 (line ++ "\n") ++ rest) =
      if (lineContent (line ++ "\n")).isEmpty then
        if seen then .complete length rest else readBlock ended length seen rest
      else
        match lengthAfter (lineContent (line ++ "\n")) length with
        | .error fault => .failed fault
        | .ok length => readBlock ended length true rest := by
  have shape : utf8 (line ++ "\n") = utf8 line ++ [10] := utf8_append line "\n"
  have more : (ended && (utf8 (line ++ "\n") ++ rest).isEmpty) = false := by simp [shape]
  rw [readBlock_eq, more, if_neg Bool.false_ne_true, takeLine_utf8 ended oneLine]
  simp only [passLine, ofUtf8?_utf8]

/-! ## The block that is written -/

/-- The first line of a block that is written. -/
def lengthLine (n : Nat) : String := "Content-Length: " ++ toString n ++ "\r"

theorem header_eq (n : Nat) : header n = utf8 (lengthLine n ++ "\n") ++ utf8 ("\r" ++ "\n") := by
  unfold header lengthLine
  rw [← utf8_append]
  congr 1
  simp [String.append_assoc]

theorem toList_lengthLine (n : Nat) :
    (lengthLine n).toList = "Content-Length: ".toList ++ Nat.toDigits 10 n ++ ['\r'] := by
  unfold lengthLine
  simp

/-- A digit is neither blank nor the end of a line nor a sign. -/
theorem plain_of_isDigit {c : Char} (digit : c.isDigit = true) :
    isBlank c = false ∧ isLineEnd c = false ∧ c ≠ '\n' ∧ c ≠ '+' := by
  have range : 48 ≤ c.toNat ∧ c.toNat ≤ 57 := by
    simpa [Char.isDigit, UInt32.le_iff_toNat_le] using digit
  have other : ∀ d : Char, d.toNat < 48 → c ≠ d := by
    rintro d below rfl
    omega
  refine ⟨?_, ?_, other _ (by decide), other _ (by decide)⟩
  · simp only [isBlank, blankRanges, List.any_cons, List.any_nil, Bool.or_false,
      Bool.or_eq_false_iff, Bool.and_eq_false_iff, decide_eq_false_iff_not]
    omega
  · simp [isLineEnd, other _ (show '\r'.toNat < 48 by decide), other _ (show '\n'.toNat < 48 by decide)]

/-- The digits of a number, none of which a reader of header lines takes for padding. -/
theorem plain_of_mem_toDigits {n : Nat} {c : Char} (member : c ∈ Nat.toDigits 10 n) :
    isBlank c = false ∧ isLineEnd c = false ∧ c ≠ '\n' ∧ c ≠ '+' :=
  plain_of_isDigit (Nat.isDigit_of_mem_toDigits (by decide) (by decide) member)

theorem dropEndWhile_append {p : Char → Bool} {front tail : List Char}
    (dropped : ∀ c ∈ tail, p c = true) (kept : ∀ c ∈ front.getLast?, p c = false) :
    dropEndWhile p (front ++ tail) = front := by
  rw [dropEndWhile, List.reverse_append,
    List.dropWhile_append_of_pos fun c member => dropped c (List.mem_reverse.mp member)]
  cases shape : front.reverse with
  | nil => simpa using shape.symm
  | cons c more =>
    have last : front.getLast? = some c := by rw [← List.head?_reverse, shape]; rfl
    rw [List.dropWhile_cons_of_neg (by simp [kept c last]), ← shape, List.reverse_reverse]

/-- The length line without its end is the name and the digits. -/
theorem content_lengthLine (n : Nat) :
    lineContent (lengthLine n ++ "\n") = "Content-Length: ".toList ++ Nat.toDigits 10 n := by
  rw [lineContent, String.toList_append, toList_lengthLine, List.append_assoc]
  apply dropEndWhile_append (by simp [isLineEnd])
  intro c last
  rw [List.getLast?_append, List.getLast?_eq_some_getLast Nat.toDigits_ne_nil] at last
  obtain rfl := Option.some.inj last
  exact (plain_of_mem_toDigits (List.getLast_mem Nat.toDigits_ne_nil)).2.1

theorem trimChars_toDigits (n : Nat) : trimChars (' ' :: Nat.toDigits 10 n) = Nat.toDigits 10 n := by
  have front : (' ' :: Nat.toDigits 10 n).dropWhile isBlank = Nat.toDigits 10 n := by
    cases shape : Nat.toDigits 10 n with
    | nil => rfl
    | cons c more =>
      have first : isBlank c = false := (plain_of_mem_toDigits (n := n) (by simp [shape])).1
      rw [List.dropWhile_cons_of_pos (by decide), List.dropWhile_cons_of_neg (by simp [first])]
  have back : dropEndWhile isBlank (Nat.toDigits 10 n ++ []) = Nat.toDigits 10 n :=
    dropEndWhile_append (by simp) fun c last =>
      (plain_of_mem_toDigits (List.mem_of_getLast? last)).1
  rw [trimChars, front]
  simpa using back

theorem digitValue?_of_isDigit {c : Char} (digit : c.isDigit = true) :
    digitValue? c = some (c.toNat - '0'.toNat) := by
  simp only [Char.isDigit, Bool.and_eq_true, decide_eq_true_eq] at digit
  exact if_pos digit

theorem isDigit_of_digitValue? {c : Char} (value : (digitValue? c).isSome = true) :
    c.isDigit = true := by
  unfold digitValue? at value
  split at value
  · next range =>
    simp only [Char.isDigit, Bool.and_eq_true, decide_eq_true_eq]
    exact range
  · contradiction

/-- What is read behind the sign of a number. -/
def unsigned? (digits : List Char) : Option Nat := do
  if digits.isEmpty then none
  else
    let ds ← digits.mapM digitValue?
    let n := ds.foldl (fun n d => n * 10 + d) 0
    if n < Decimal.twoTo 64 then some n else none

theorem word?_plus (cs : List Char) : word? ('+' :: cs) = unsigned? cs := rfl

theorem word?_of_ne_plus {cs : List Char} (unsigned : ∀ more, cs ≠ '+' :: more) :
    word? cs = unsigned? cs := by
  unfold word?
  split
  · next more => exact absurd rfl (unsigned more)
  · rfl

/-- A number without a sign is digits, at least one, and no more than fit a word. -/
theorem unsigned?_eq_some_iff {cs : List Char} {n : Nat} :
    unsigned? cs = some n ↔
      cs ≠ [] ∧ (∀ c ∈ cs, c.isDigit = true) ∧ Nat.ofDigitChars 10 cs 0 = n ∧
        n < Decimal.twoTo 64 := by
  have value : (cs.map fun c => c.toNat - '0'.toNat).foldl (fun n d => n * 10 + d) 0 =
      Nat.ofDigitChars 10 cs 0 := by
    rw [List.foldl_map, Nat.ofDigitChars_eq_foldl]
    simp only [Nat.mul_comm]
  unfold unsigned?
  split
  · next none => simp [List.isEmpty_iff.mp none]
  · next some =>
    have some : cs ≠ [] := fun none => some (List.isEmpty_iff.mpr none)
    -- one character that is no digit is enough to refuse the text
    by_cases digits : ∀ c ∈ cs, c.isDigit = true
    · rw [mapM_eq_some_map fun c member => digitValue?_of_isDigit (digits c member),
        Option.bind_eq_bind, Option.bind_some, value]
      constructor
      · intro read
        obtain ⟨fits, same⟩ := Option.ite_none_right_eq_some.mp read
        obtain rfl := Option.some.inj same
        exact ⟨some, digits, rfl, fits⟩
      · rintro ⟨-, -, rfl, fits⟩
        exact if_pos fits
    · have unread : cs.mapM digitValue? = none := by
        obtain ⟨c, member, other⟩ := not_forall₂.mp digits
        refine mapM_eq_none member (Option.eq_none_iff_forall_ne_some.mpr fun d read => other ?_)
        exact isDigit_of_digitValue? (by rw [read]; rfl)
      simp [unread, digits]

/-- A number written in digits is read back, as long as it fits. -/
theorem word?_toDigits {n : Nat} (fits : n < Decimal.twoTo 64) :
    word? (Nat.toDigits 10 n) = some n := by
  rw [word?_of_ne_plus, unsigned?_eq_some_iff]
  · exact ⟨Nat.toDigits_ne_nil, fun _ => Nat.isDigit_of_mem_toDigits (by decide) (by decide),
      Nat.ofDigitChars_ten_toDigits, fits⟩
  · intro more shape
    have sign : '+' ∈ Nat.toDigits 10 n := by rw [shape]; exact List.mem_cons_self
    exact (plain_of_mem_toDigits sign).2.2.2 rfl

/-- The length line says the length, whatever was said before. -/
theorem lengthAfter_lengthLine {n : Nat} (fits : n < Decimal.twoTo 64) (known : Option Nat) :
    lengthAfter ("Content-Length: ".toList ++ Nat.toDigits 10 n) known = .ok (some n) := by
  have value : lengthText? ("Content-Length: ".toList ++ Nat.toDigits 10 n) =
      some (trimChars (' ' :: Nat.toDigits 10 n)) := rfl
  rw [lengthAfter, value, trimChars_toDigits]
  simp only [word?_toDigits fits]

theorem lineFeed_notMem_lengthLine (n : Nat) : '\n' ∉ (lengthLine n).toList := by
  rw [toList_lengthLine]
  intro member
  rcases List.mem_append.mp member with member | member
  · rcases List.mem_append.mp member with member | member
    · exact absurd member (by decide)
    · exact (plain_of_mem_toDigits member).2.2.1 rfl
  · exact absurd member (by decide)

/-- Behind the first line of a block that is written the length is known. -/
theorem readBlock_lengthLine (ended : Bool) {n : Nat} (fits : n < Decimal.twoTo 64) (rest : Bytes) :
    readBlock ended none false (utf8 (lengthLine n ++ "\n") ++ rest) =
      readBlock ended (some n) true rest := by
  have oneLine := lineFeed_notMem_lengthLine n
  have filled : (lineContent (lengthLine n ++ "\n")).isEmpty = false := by
    rw [content_lengthLine]
    rfl
  rw [readBlock_line _ _ _ oneLine, filled, content_lengthLine, lengthAfter_lengthLine fits]
  rfl

/-- The block in front of a body is read to its end, and the length is known. -/
theorem readBlock_header (ended : Bool) {n : Nat} (fits : n < Decimal.twoTo 64) (rest : Bytes) :
    readBlock ended none false (header n ++ rest) = .complete (some n) rest := by
  have blank : (lineContent ("\r" ++ "\n")).isEmpty = true := by decide
  rw [header_eq, List.append_assoc, readBlock_lengthLine ended fits,
    readBlock_line _ _ _ (by decide), blank]
  rfl

/-! ## One message -/

/-- A message that can be read again from what is written for it: the numbers in it are
whole, its brackets nest no deeper than the reader follows them, it is no longer than a body
can be, and the code of an error is a signed word. -/
structure Readable (m : Message) : Prop where
  whole : m.toJson.isWhole = true
  deep : m.toJson.depth ≤ Json.maxDepth
  short : (utf8 m.toJson.text).length ≤ maxBody
  code : m.error.all (fun e => Decimal.fitsSigned 64 e.code) = true

instance (m : Message) : Decidable (Readable m) :=
  decidable_of_iff
    (m.toJson.isWhole = true ∧ m.toJson.depth ≤ Json.maxDepth ∧
      (utf8 m.toJson.text).length ≤ maxBody ∧
      m.error.all (fun e => Decimal.fitsSigned 64 e.code) = true)
    ⟨fun ⟨whole, deep, short, code⟩ => ⟨whole, deep, short, code⟩,
      fun ⟨whole, deep, short, code⟩ => ⟨whole, deep, short, code⟩⟩

/-- The text of a readable message decodes to the message. -/
theorem decodeBody_text {m : Message} (readable : Readable m) :
    decodeBody (utf8 m.toJson.text) = .ok m.settled := by
  have document : Json.ofBytes? (utf8 m.toJson.text) = some m.toJson := by
    rw [Json.ofBytes?, ofUtf8?_utf8, Option.bind_some]
    exact Json.read?_text readable.whole readable.deep
  rw [decodeBody, Message.ofBytes?, Json.readOutlined?, document, Option.some_or,
    Option.bind_some, Message.ofJson?_toJson readable.code]

/-- A body is taken whole, and what stands behind it is left. -/
theorem readBody_append (ended : Bool) {body : Bytes} {m : Message} (short : body.length ≤ maxBody)
    (decoded : decodeBody body = .ok m) (rest : Bytes) :
    readBody ended body.length (body ++ rest) = .message m rest := by
  have room : ¬maxBody < body.length := Nat.not_lt.mpr short
  have there : ¬(body ++ rest).length < body.length := by simp
  simp only [readBody, if_neg room, if_neg there, List.take_left, List.drop_left, decoded]

/-- The message at the front of a stream is read, and the stream is left behind it,
whatever comes next. -/
theorem read_header (ended : Bool) {body : Bytes} {m : Message} (short : body.length ≤ maxBody)
    (decoded : decodeBody body = .ok m) (rest : Bytes) :
    read ended (header body.length ++ (body ++ rest)) = .message m rest := by
  have fits : body.length < Decimal.twoTo 64 := Nat.lt_of_le_of_lt short (by decide)
  rw [read, readBlock_header ended fits]
  exact readBody_append ended short decoded rest

/-- A frame reads as its message and leaves what stands behind it. -/
theorem read_encode (ended : Bool) {m : Message} (readable : Readable m) (rest : Bytes) :
    read ended (encode m ++ rest) = .message m.settled rest := by
  rw [encode, List.append_assoc]
  exact read_header ended readable.short (decodeBody_text readable) rest

/-! ## Whole streams -/

/-- A complete block takes at least one byte. -/
theorem length_lt_of_readBlock {ended seen : Bool} {length known : Option Nat} {input rest : Bytes}
    (complete : readBlock ended length seen input = .complete known rest) :
    rest.length < input.length := by
  fun_induction readBlock ended length seen input with
  | case1 | case2 | case3 | case4 | case7 => contradiction
  | case5 length input more line after taken =>
    obtain ⟨-, rfl⟩ := Block.complete.inj complete
    exact length_lt_of_takeLine taken more
  | case6 length _ input more line after taken text decoded content blank unseen ih =>
    exact Nat.lt_trans (ih complete) (length_lt_of_takeLine taken more)
  | case8 length _ input more line after taken text decoded content filled known lengthKnown ih =>
    exact Nat.lt_trans (ih complete) (length_lt_of_takeLine taken more)

/-- A message takes at least one byte. -/
theorem length_lt_of_read {ended : Bool} {input rest : Bytes} {m : Message}
    (message : read ended input = .message m rest) : rest.length < input.length := by
  unfold read at message
  split at message
  case h_5 length behind complete =>
    have consumed := length_lt_of_readBlock complete
    unfold readBody at message
    split_ifs at message
    split at message
    · obtain ⟨-, rfl⟩ := Reading.message.inj message
      rw [List.length_drop]
      omega
    · contradiction
  all_goals contradiction

/-- Reads a stream that has ended: the messages in it, and what the reader meets behind
the last of them. -/
def readAll (input : Bytes) : List Message × Reading :=
  match _read : read true input with
  | .message m rest => (m :: (readAll rest).1, (readAll rest).2)
  | last => ([], last)
  termination_by input.length
  decreasing_by all_goals exact length_lt_of_read _read

theorem readAll_message {input rest : Bytes} {m : Message}
    (message : read true input = .message m rest) :
    readAll input = (m :: (readAll rest).1, (readAll rest).2) := by
  rw [readAll]
  split <;> simp_all

theorem readAll_nil : readAll [] = ([], .finished) := by
  have ended : read true [] = .finished := by rw [read, readBlock]; rfl
  rw [readAll]
  split <;> simp_all

/-- A frame at the front of a stream reads as its message, then the rest is read. -/
theorem readAll_encode {m : Message} (readable : Readable m) (rest : Bytes) :
    readAll (encode m ++ rest) = (m.settled :: (readAll rest).1, (readAll rest).2) :=
  readAll_message (read_encode true readable rest)

/-- What is written for a list of messages is read as that list, and then whatever stands
behind it. -/
theorem readAll_flatMap_encode {ms : List Message} (readable : ∀ m ∈ ms, Readable m)
    (rest : Bytes) :
    readAll (ms.flatMap encode ++ rest) =
      (ms.map Message.settled ++ (readAll rest).1, (readAll rest).2) := by
  induction ms with
  | nil => rfl
  | cons m ms ih =>
    rw [List.flatMap_cons, List.append_assoc, readAll_encode (readable m List.mem_cons_self),
      ih fun m member => readable m (List.mem_cons_of_mem _ member), List.map_cons,
      List.cons_append]

/-- Messages that the client makes and writes one behind the other are read one by one, each
saying what it said, and then the stream has come to a clean end. Documents come back
canonical, so canonical ones come back as they are. -/
theorem written_stream_reads_back {sent : List Message} (made : ∀ m ∈ sent, m.Made)
    (readable : ∀ m ∈ sent, Readable m) :
    ∃ received : List Message,
      readAll (sent.flatMap encode) = (received, .finished) ∧
      received.length = sent.length ∧
      received.map Message.incoming =
        sent.map (fun m => m.incoming.map Incoming.canonical) ∧
      ((∀ m ∈ sent, ∀ v ∈ m.carried, v.canonical = v) →
        received.map Message.incoming = sent.map Message.incoming) := by
  have said : (sent.map Message.settled).map Message.incoming =
      sent.map fun m => m.incoming.map Incoming.canonical := by
    rw [List.map_map]
    exact List.map_congr_left fun m member => (made m member).incoming_settled
  refine ⟨sent.map Message.settled, ?_, List.length_map _, said, fun canonical => ?_⟩
  · have read := readAll_flatMap_encode readable []
    rwa [List.append_nil, readAll_nil, List.append_nil] at read
  · rw [said]
    exact List.map_congr_left fun m member =>
      (made m member).canonical_incoming (canonical m member)

/-- A request with text beyond ASCII, a notification without parameters, an empty result
and an error with data, on one stream. -/
def exchange : List Message :=
  [.request 1 "initialize" (.obj [("rootUri", .str "file:///\u00e9\"")]),
   .notification "initialized" .null,
   .response (.str "a") (.ok .null),
   .response (.ofNat 7) (.error ⟨-32601, "unhandled method", some (.arr [.ofInt (-5)])⟩)]

theorem written_stream_reads_back_exchange :
    (∀ m ∈ exchange, m.Made) ∧ (∀ m ∈ exchange, Readable m) ∧
    ∃ received : List Message,
      readAll (exchange.flatMap encode) = (received, .finished) ∧ received.length = 4 ∧
      received.map Message.incoming = exchange.map Message.incoming := by
  have made : ∀ m ∈ exchange, m.Made := by
    simp only [exchange, List.forall_mem_cons]
    exact ⟨.request _ _ _, .notification _ _, .result _ _ rfl, .error _ _ rfl rfl, by simp⟩
  have readable : ∀ m ∈ exchange, Readable m := by decide +kernel
  have canonical : ∀ m ∈ exchange, ∀ v ∈ m.carried, v.canonical = v := by
    have documents : exchange.flatMap Message.carried =
        [.ofNat 1, .obj [("rootUri", .str "file:///\u00e9\"")], .str "a", .null, .ofNat 7,
          .arr [.ofInt (-5)]] := rfl
    intro m member v carried
    have : v ∈ exchange.flatMap Message.carried := List.mem_flatMap.mpr ⟨m, member, carried⟩
    rw [documents] at this
    simp only [List.mem_cons, List.not_mem_nil, or_false] at this
    rcases this with rfl | rfl | rfl | rfl | rfl | rfl <;> rfl
  obtain ⟨received, read, many, -, same⟩ := written_stream_reads_back made readable
  exact ⟨made, readable, received, read, many, same canonical⟩

end EmberClient.Frame
