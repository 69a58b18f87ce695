import EmberClient.Proofs.Rpc.Stream
import Mathlib.Data.List.DropRight

/-!
# No message bears on how the next one is read

A stream that has come to a clean end may go on after all: then what came first reads as
before, and the rest as if it had come alone. Two things could leak across the seam, and
neither does.

* A line that has no line feed at the end of the first part becomes one line with the first
  line of the second. At a clean end all that is left are carriage returns
  (`padding_of_finished`), and those make no difference at the front of a line: it stays
  blank or filled, its name is trimmed, and its value stands behind the colon
  (`readBlock_padding`).
* The length of a body counts from the blank line. A block that leaves something over has
  ended with a line feed, so it ends there whatever follows (`readBlock_append`), and a body
  is as long as the block says (`read_append`).

> `clean_end_delimits`: so a clean end between two messages, or between any two byte
> strings, leaves no trace.
-/

namespace EmberClient

namespace Text

/-! ## Carriage returns in texts -/

/-- Only what is written for a text reads as that text. -/
theorem eq_utf8_of_ofUtf8? {bytes : Bytes} {s : String} (text : ofUtf8? bytes = some s) :
    bytes = utf8 s := by
  unfold ofUtf8? String.fromUTF8? at text
  split at text
  · obtain rfl := Option.some.inj text
    rfl
  · contradiction

/-- A carriage return in front of bytes is a character of its own. -/
theorem ofUtf8?_cons_return (bytes : Bytes) :
    ofUtf8? (13 :: bytes) = (ofUtf8? bytes).map ("\r" ++ ·) := by
  cases text : ofUtf8? bytes with
  | some s =>
    rw [eq_utf8_of_ofUtf8? text]
    exact (congrArg ofUtf8? (utf8_append "\r" s).symm).trans (ofUtf8?_utf8 _)
  | none =>
    refine dif_neg fun valid => ?_
    have front : ['\r'].utf8Encode = [13].toByteArray := List.utf8Encode_singleton
    have shape : (⟨(13 :: bytes).toArray⟩ : ByteArray) = ['\r'].utf8Encode ++ ⟨bytes.toArray⟩ := by
      rw [front]
      exact ByteArray.ext (Array.ext' (by simp))
    rw [shape, ByteArray.isValidUTF8_utf8Encode_singleton_append_iff] at valid
    unfold ofUtf8? String.fromUTF8? at text
    rw [dif_pos valid] at text
    contradiction

theorem dropEndWhile_eq_nil {p : Char → Bool} {cs : List Char} :
    dropEndWhile p cs = [] ↔ ∀ c ∈ cs, p c = true :=
  List.rdropWhile_eq_nil_iff

/-- Where something is kept, so is all in front of it. -/
theorem dropEndWhile_cons {p : Char → Bool} {cs : List Char} (kept : dropEndWhile p cs ≠ [])
    (c : Char) : dropEndWhile p (c :: cs) = c :: dropEndWhile p cs := by
  rw [dropEndWhile, Ne, List.reverse_eq_nil_iff] at kept
  have rest : (cs.reverse.dropWhile p).isEmpty = false := by simpa using kept
  rw [dropEndWhile, List.reverse_cons, List.dropWhile_append, rest, if_neg (by simp),
    List.reverse_append]
  rfl

theorem trimChars_cons {c : Char} (blank : isBlank c = true) (cs : List Char) :
    trimChars (c :: cs) = trimChars cs := by
  rw [trimChars, List.dropWhile_cons_of_pos blank, trimChars]

end Text

namespace Frame

open Text

/-! ## Lines -/

/-- How a line is taken from the front of a stream: up to the first line feed, or all there
is. -/
theorem takeLine_cases (ended : Bool) (input : Bytes) :
    (∃ front rest, 10 ∉ front ∧ input = front ++ 10 :: rest ∧
      takeLine ended input = some (front ++ [10], rest)) ∨
    (10 ∉ input ∧ takeLine ended input = if ended then some (input, []) else none) := by
  by_cases feed : 10 ∈ input
  · obtain ⟨front, rest, rfl, inside⟩ := List.eq_append_cons_of_mem feed
    exact .inl ⟨front, rest, inside, rfl, takeLine_lineFeed ended inside rest⟩
  · have all : input.takeWhile (· ≠ 10) = input :=
      List.takeWhile_eq_self_iff.mpr fun b member =>
        decide_eq_true fun same => feed (same ▸ member)
    refine .inr ⟨feed, ?_⟩
    rw [takeLine, all, List.drop_length]

/-- A line and what is left of the input are the input. -/
theorem eq_append_of_takeLine {ended : Bool} {input line rest : Bytes}
    (taken : takeLine ended input = some (line, rest)) : input = line ++ rest := by
  rcases takeLine_cases ended input with ⟨front, behind, -, rfl, first⟩ | ⟨-, whole⟩
  · obtain ⟨rfl, rfl⟩ := Prod.mk.inj (Option.some.inj (first.symm.trans taken))
    simp
  · rw [whole] at taken
    split at taken
    · obtain ⟨rfl, rfl⟩ := Prod.mk.inj (Option.some.inj taken)
      exact (List.append_nil _).symm
    · contradiction

/-- A line that leaves something over has ended with a line feed, so it ends there whatever
follows. -/
theorem takeLine_append {ended : Bool} {input line rest : Bytes}
    (taken : takeLine ended input = some (line, rest)) (more : rest ≠ []) (following : Bytes) :
    takeLine ended (input ++ following) = some (line, rest ++ following) := by
  rcases takeLine_cases ended input with ⟨front, behind, inside, rfl, first⟩ | ⟨-, whole⟩
  · obtain ⟨rfl, rfl⟩ := Prod.mk.inj (Option.some.inj (first.symm.trans taken))
    rw [List.append_assoc, List.cons_append]
    exact takeLine_lineFeed ended inside _
  · rw [whole] at taken
    split at taken
    · obtain ⟨-, rfl⟩ := Prod.mk.inj (Option.some.inj taken)
      contradiction
    · contradiction

/-- A carriage return in front of a stream is one in front of its first line. -/
theorem takeLine_cons_return (ended : Bool) (input : Bytes) :
    takeLine ended (13 :: input) = (takeLine ended input).map fun (line, rest) => (13 :: line, rest) := by
  rcases takeLine_cases ended input with ⟨front, rest, inside, rfl, first⟩ | ⟨feed, whole⟩
  · rw [first]
    have inside' : 10 ∉ 13 :: front := by simp [inside]
    exact takeLine_lineFeed ended inside' rest
  · rcases takeLine_cases ended (13 :: input) with ⟨front, rest, -, split, -⟩ | ⟨-, whole'⟩
    · have : 10 ∈ 13 :: input := split ▸ by simp
      exact absurd this (by simp [feed])
    · rw [whole, whole']
      cases ended <;> rfl

/-- A line is blank when there is nothing in it but carriage returns and line feeds. -/
theorem lineContent_isEmpty {line : String} :
    (lineContent line).isEmpty = true ↔ ∀ c ∈ line.toList, isLineEnd c = true := by
  rw [List.isEmpty_iff, lineContent]
  exact dropEndWhile_eq_nil

/-! ## Carriage returns in front of a line -/

/-- A carriage return in front of a line does not change its length. -/
theorem lengthText?_cons_return (content : List Char) :
    lengthText? ('\r' :: content) = lengthText? content := by
  have name : ('\r' :: content).takeWhile (· ≠ ':') = '\r' :: content.takeWhile (· ≠ ':') :=
    List.takeWhile_cons_of_pos (by decide)
  simp only [lengthText?, name, List.length_cons, List.drop_succ_cons,
    trimChars_cons (show isBlank '\r' = true by decide)]

/-- A carriage return in front of a line makes no difference. -/
theorem passLine_cons_return (ended : Bool) (length : Option Nat) (seen : Bool) (line rest : Bytes) :
    passLine ended length seen (13 :: line) rest = passLine ended length seen line rest := by
  unfold passLine
  rw [ofUtf8?_cons_return]
  cases ofUtf8? line with
  | none => rfl
  | some text =>
    rw [Option.map_some]
    dsimp only
    have same : (lineContent ("\r" ++ text)).isEmpty = (lineContent text).isEmpty := by
      rw [Bool.eq_iff_iff, lineContent_isEmpty, lineContent_isEmpty, String.toList_append]
      simp [isLineEnd]
    rw [same]
    split
    · rfl
    · next filled =>
      have content : lineContent ("\r" ++ text) = '\r' :: lineContent text := by
        rw [lineContent, String.toList_append]
        exact dropEndWhile_cons (fun none => filled (List.isEmpty_iff.mpr none)) _
      rw [content, lengthAfter, lengthText?_cons_return]
      rfl

/-- The bytes that blank lines are made of. -/
def IsPadding (bytes : Bytes) : Prop := ∀ b ∈ bytes, b = 13 ∨ b = 10

/-- In front of a block it is passed over. -/
theorem readBlock_cons_return (ended : Bool) (length : Option Nat) (input : Bytes) :
    readBlock ended length false (13 :: input) = readBlock ended length false input := by
  have more : (ended && (13 :: input).isEmpty) = false := by simp
  rw [readBlock_eq, more, if_neg Bool.false_ne_true, takeLine_cons_return]
  by_cases nothing : (ended && input.isEmpty) = true
  · -- the carriage return is a blank line of its own
    obtain ⟨rfl, rfl⟩ : ended = true ∧ input = [] := by simpa using nothing
    exact passLine_cons_return true length false [] []
  · rw [readBlock_eq ended length false input, if_neg nothing]
    cases takeLine ended input with
    | none => rfl
    | some taken => exact passLine_cons_return ended length false taken.1 taken.2

/-- Blank lines in front of a block, and carriage returns in front of its first line, make
no difference. -/
theorem readBlock_padding (ended : Bool) (length : Option Nat) {padding : Bytes}
    (blank : IsPadding padding) (input : Bytes) :
    readBlock ended length false (padding ++ input) = readBlock ended length false input := by
  induction padding with
  | nil => rfl
  | cons b padding ih =>
    refine Eq.trans ?_ (ih fun c member => blank c (List.mem_cons_of_mem _ member))
    rcases blank b List.mem_cons_self with rfl | rfl
    · exact readBlock_cons_return ended length (padding ++ input)
    · have oneLine : '\n' ∉ ("" : String).toList := by simp
      exact readBlock_line ended false length oneLine (padding ++ input)

theorem read_padding (ended : Bool) {padding : Bytes} (blank : IsPadding padding) (input : Bytes) :
    read ended (padding ++ input) = read ended input := by
  rw [read, readBlock_padding ended none blank, read]

/-! ## What is left at a clean end -/

/-- A line without content is padding. -/
theorem padding_of_line {line : Bytes} {text : String} (decoded : ofUtf8? line = some text)
    (blank : (lineContent text).isEmpty = true) : IsPadding line := by
  intro b member
  rw [eq_utf8_of_ofUtf8? decoded, utf8_eq_flatMap, List.mem_flatMap] at member
  obtain ⟨c, inside, byte⟩ := member
  have ends := lineContent_isEmpty.mp blank c inside
  simp only [isLineEnd, Bool.or_eq_true, decide_eq_true_eq] at ends
  rcases ends with rfl | rfl
  · exact .inl (List.mem_singleton.mp byte)
  · exact .inr (List.mem_singleton.mp byte)

/-- A stream that comes to a clean end before the next message holds nothing but blank
lines, the last of which may lack its line feed. -/
theorem padding_of_finished {ended seen : Bool} {length : Option Nat} {input : Bytes}
    (finished : readBlock ended length seen input = .finished) :
    seen = false ∧ IsPadding input := by
  -- along the lines: the reader finishes here only if all that came was blank
  fun_induction readBlock ended length seen input with
  | case1 | case3 | case4 | case5 | case7 => contradiction
  | case2 length seen input nothing unseen =>
    obtain ⟨-, rfl⟩ : ended = true ∧ input = [] := by simpa using nothing
    exact ⟨Bool.eq_false_iff.mpr unseen, fun b member => absurd member List.not_mem_nil⟩
  | case6 length seen input more line after taken text decoded content blank unseen ih =>
    refine ⟨Bool.eq_false_iff.mpr unseen, ?_⟩
    rw [eq_append_of_takeLine taken]
    intro b member
    rcases List.mem_append.mp member with first | rest
    · exact padding_of_line decoded blank b first
    · exact (ih finished).2 b rest
  | case8 length seen input more line after taken text decoded content filled known lengthKnown ih =>
    exact absurd (ih finished).1 (by simp)

/-- Only padding reads as a clean end. -/
theorem padding_of_read {ended : Bool} {input : Bytes} (finished : read ended input = .finished) :
    IsPadding input := by
  unfold read at finished
  split at finished
  · next block => exact (padding_of_finished block).2
  · contradiction
  · contradiction
  · contradiction
  · unfold readBody at finished
    split_ifs at finished
    split at finished <;> contradiction

/-! ## What stands behind a message -/

/-- The first line of a block is passed before anything behind the input matters. -/
theorem readBlock_takeLine {ended : Bool} {input line rest : Bytes}
    (taken : takeLine ended input = some (line, rest)) (more : rest ≠ []) (length : Option Nat)
    (seen : Bool) (following : Bytes) :
    readBlock ended length seen (input ++ following) =
      passLine ended length seen line (rest ++ following) := by
  have nonempty : (ended && (input ++ following).isEmpty) = false := by
    rw [eq_append_of_takeLine taken]
    simp [more]
  rw [readBlock_eq, nonempty, if_neg Bool.false_ne_true, takeLine_append taken more]

/-- A block that leaves something over is the same whatever follows. -/
theorem readBlock_append {ended seen : Bool} {length known : Option Nat} {input rest : Bytes}
    (complete : readBlock ended length seen input = .complete known rest) (more : rest ≠ [])
    (following : Bytes) :
    readBlock ended length seen (input ++ following) = .complete known (rest ++ following) := by
  -- the lines after this one are not all of the block, so something is left behind it
  have left : ∀ {seen : Bool} {length : Option Nat} {after : Bytes},
      readBlock ended length seen after = .complete known rest → after ≠ [] := by
    rintro seen length _ complete rfl
    exact absurd (length_lt_of_readBlock complete) (Nat.not_lt_zero _)
  fun_induction readBlock ended length seen input with
  | case1 | case2 | case3 | case4 | case7 => contradiction
  | case5 length input nonempty line after taken text decoded content blank =>
    obtain ⟨rfl, rfl⟩ := Block.complete.inj complete
    rw [readBlock_takeLine taken more]
    simp only [passLine, decoded]
    exact if_pos blank
  | case6 length seen input nonempty line after taken text decoded content blank unseen ih =>
    rw [readBlock_takeLine taken (left complete)]
    simp only [passLine, decoded]
    rw [if_pos blank, if_neg unseen]
    exact ih complete
  | case8 length seen input nonempty line after taken text decoded content filled known' said ih =>
    rw [readBlock_takeLine taken (left complete)]
    simp only [passLine, decoded]
    rw [if_neg filled, said]
    exact ih complete

/-- What makes a body a message: it is there, of the length that the block says. -/
theorem readBody_eq_message {ended : Bool} {length : Nat} {input rest : Bytes} {m : Message}
    (message : readBody ended length input = .message m rest) :
    length ≤ maxBody ∧ ∃ body, body.length = length ∧ input = body ++ rest ∧
      decodeBody body = .ok m := by
  unfold readBody at message
  split_ifs at message with tooLong short
  split at message
  · next m' decoded =>
    obtain ⟨rfl, rfl⟩ := Reading.message.inj message
    exact ⟨Nat.le_of_not_lt tooLong, input.take length,
      List.length_take_of_le (Nat.le_of_not_lt short), (List.take_append_drop ..).symm, decoded⟩
  · contradiction

/-- An empty body is no message. -/
theorem ne_nil_of_decodeBody {body : Bytes} {m : Message} (decoded : decodeBody body = .ok m) :
    body ≠ [] := by
  rintro rfl
  have nothing : Message.ofBytes? [] = none := rfl
  rw [decodeBody, nothing] at decoded
  contradiction

/-- A message at the front of a stream is the same whatever follows. -/
theorem read_append {ended : Bool} {input rest : Bytes} {m : Message}
    (message : read ended input = .message m rest) (following : Bytes) :
    read ended (input ++ following) = .message m (rest ++ following) := by
  unfold read at message
  split at message
  case h_5 length behind complete =>
    obtain ⟨short, body, rfl, rfl, decoded⟩ := readBody_eq_message message
    have more : body ++ rest ≠ [] := by simp [ne_nil_of_decodeBody decoded]
    rw [read, readBlock_append complete more, List.append_assoc]
    exact readBody_append ended short decoded _
  all_goals contradiction

/-! ## Streams in two parts -/

/-- Reading goes no further than to what is no message. -/
theorem readAll_last {input : Bytes} {last : Reading} (reads : read true input = last)
    (other : ∀ m rest, last ≠ .message m rest) : readAll input = ([], last) := by
  rw [readAll]
  split
  · next m rest message => exact absurd (reads.symm.trans message) (other m rest)
  · rw [reads]

/-- Streams with the same front are the same throughout. -/
theorem readAll_congr {input other : Bytes} (same : read true input = read true other) :
    readAll input = readAll other := by
  cases front : read true other with
  | message m rest =>
    rw [readAll_message (same.trans front), readAll_message front]
  | finished | failed | oversized | waiting =>
    rw [readAll_last (same.trans front) (by simp), readAll_last front (by simp)]

/-- A stream that has come to a clean end may go on: nothing that came first bears on what
comes then. -/
theorem readAll_append {first : Bytes} {ms : List Message} (clean : readAll first = (ms, .finished))
    (second : Bytes) :
    readAll (first ++ second) = (ms ++ (readAll second).1, (readAll second).2) := by
  fun_induction readAll first generalizing ms with
  | case1 first m rest message ih =>
    obtain ⟨rfl, last⟩ := Prod.mk.inj clean
    rw [readAll_message (read_append message second), ih (Prod.ext rfl last)]
    rfl
  | case2 first last =>
    obtain ⟨rfl, finished⟩ := Prod.mk.inj clean
    exact readAll_congr (read_padding true (padding_of_read finished) second)

/-- Blank lines alone are a stream without a message. -/
theorem readAll_padding {padding : Bytes} (blank : IsPadding padding) :
    readAll padding = ([], .finished) := by
  have same := readAll_congr (read_padding true blank [])
  rwa [List.append_nil, readAll_nil] at same

/-- **Reading is self-delimiting.** When a stream reads as these messages and then comes to a
clean end, whatever follows it reads as if it had come alone: the same messages behind
these, and at the end of them the same clean end or the same failure. Blank lines and
carriage returns in between make no difference. -/
theorem clean_end_delimits {first : Bytes} {ms : List Message}
    (clean : readAll first = (ms, .finished)) (second : Bytes) :
    readAll (first ++ second) = (ms ++ (readAll second).1, (readAll second).2) ∧
      ∀ padding, IsPadding padding → readAll (first ++ padding ++ second) =
        (ms ++ (readAll second).1, (readAll second).2) := by
  refine ⟨readAll_append clean second, fun padding blank => ?_⟩
  have padded := readAll_append clean padding
  rw [readAll_padding blank, List.append_nil] at padded
  exact readAll_append padded second

/-- `clean_end_delimits` where a lone carriage return is left behind a message and runs into
the first line of what follows: a message, and then a length that is none. -/
theorem clean_end_delimits_return :
    let told : Message := .notification "initialized" .null
    let asked : Message := .request 1 "shutdown" .null
    readAll (encode told ++ [13]) = ([told], .finished) ∧
      readAll (encode told ++ [13] ++ (encode asked ++ utf8 "Content-Length: x")) =
        ([told, asked], .failed (.protocol "invalid Content-Length `x`")) := by
  intro told asked
  have readable : Readable told ∧ Readable asked := by decide +kernel
  have first : readAll (encode told ++ [13]) = ([told], .finished) := by
    rw [readAll_encode readable.1, readAll_padding (by simp [IsPadding])]
    rfl
  have broken : read true (utf8 "Content-Length: x") =
      .failed (.protocol "invalid Content-Length `x`") := by
    have line : takeLine true (utf8 "Content-Length: x") = some (utf8 "Content-Length: x", []) := rfl
    rw [read, readBlock_eq, line]
    simp only [passLine, ofUtf8?_utf8]
    rfl
  have second : readAll (encode asked ++ utf8 "Content-Length: x") =
      ([asked], .failed (.protocol "invalid Content-Length `x`")) := by
    rw [readAll_encode readable.2, readAll_last broken (by simp)]
    rfl
  have whole := (clean_end_delimits first (encode asked ++ utf8 "Content-Length: x")).1
  rw [second] at whole
  exact ⟨first, whole⟩

end Frame

end EmberClient
