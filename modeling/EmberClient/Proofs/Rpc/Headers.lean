import EmberClient.Proofs.Rpc.Delimiting

/-!
# What a header block may look like

The client writes one form of header block and reads many. Which ones is said here as a
grammar, apart from the reader: lines and what is blank (`HeaderLine`, `HeaderBlock`), a
name and a value with padding around them (`Padded`, `Announces`), a number with its sign
and its zeros (`Spells`). The functions of the reader are shown to be these relations
(`trimChars_eq_iff`, `word?_eq_some_iff`, `lengthText?_eq_some_iff`), so a block can be read
line by line: a line that announces no length changes nothing, one that announces a number
sets the length, and one that announces anything else ends the reading.

> `header_tolerance`: a block whose last length is that of the body behind it is read to its
> end, and the body with it; one that names no length, or one that is no number, breaks the
> protocol, whatever else is in it.
-/

namespace EmberClient

namespace Text

/-! ## Padding -/

/-- A text with blanks around it, and none at its own ends. -/
structure Padded (core padded : List Char) : Prop where
  around : ∃ front back, padded = front ++ core ++ back ∧
    (∀ c ∈ front, isBlank c = true) ∧ ∀ c ∈ back, isBlank c = true
  first : ∀ c ∈ core.head?, isBlank c = false
  last : ∀ c ∈ core.getLast?, isBlank c = false

/-- Trimming takes off blanks, and all of them. -/
theorem padded_trimChars (cs : List Char) : Padded (trimChars cs) cs := by
  have isFront : trimChars cs <+: cs.dropWhile isBlank := List.rdropWhile_prefix isBlank _
  refine ⟨⟨cs.takeWhile isBlank, (cs.dropWhile isBlank).rtakeWhile isBlank, ?_, ?_, ?_⟩, ?_, ?_⟩
  · show cs = _ ++ (cs.dropWhile isBlank).rdropWhile isBlank ++ _
    rw [List.append_assoc, List.rdropWhile_append_rtakeWhile, List.takeWhile_append_dropWhile]
  · exact fun c member => List.mem_takeWhile_imp member
  · exact fun c member => List.mem_rtakeWhile_imp member
  · intro c first
    have unblank := List.head?_dropWhile_not isBlank cs
    obtain ⟨more, shape⟩ := isFront
    rw [← shape, List.head?_append, first] at unblank
    exact unblank
  · intro c last
    obtain ⟨some, rfl⟩ := List.mem_getLast?_eq_getLast last
    exact Bool.eq_false_iff.mpr (List.rdropWhile_last_not isBlank _ some)

/-- What is left between blanks is what trimming gives. -/
theorem trimChars_of_padded {core cs : List Char} (padded : Padded core cs) :
    trimChars cs = core := by
  obtain ⟨front, back, rfl, before, behind⟩ := padded.around
  cases core with
  | nil =>
    have all : ∀ c ∈ front ++ [] ++ back, isBlank c = true := by
      simpa [or_imp, forall_and] using ⟨before, behind⟩
    rw [trimChars, List.dropWhile_eq_nil_iff.mpr all]
    rfl
  | cons c core =>
    rw [trimChars, List.append_assoc, List.dropWhile_append_of_pos before, List.cons_append,
      List.dropWhile_cons_of_neg (by simp [padded.first c rfl]), ← List.cons_append]
    exact Frame.dropEndWhile_append behind padded.last

/-- Trimming takes the padding away and nothing else. -/
theorem trimChars_eq_iff {core cs : List Char} : trimChars cs = core ↔ Padded core cs :=
  ⟨fun same => same ▸ padded_trimChars cs, trimChars_of_padded⟩

/-- Blanks behind a text are padding. -/
theorem Padded.append {core cs more : List Char} (padded : Padded core cs)
    (blank : ∀ c ∈ more, isBlank c = true) : Padded core (cs ++ more) := by
  obtain ⟨front, back, rfl, before, behind⟩ := padded.around
  refine ⟨⟨front, back ++ more, by simp only [List.append_assoc], before, ?_⟩, padded.first,
    padded.last⟩
  exact fun c member => (List.mem_append.mp member).elim (behind c) (blank c)

/-- Padding that is dropped from the end is not there to be trimmed. -/
theorem trimChars_dropEndWhile {p : Char → Bool} (blank : ∀ c, p c = true → isBlank c = true)
    (cs : List Char) : trimChars (dropEndWhile p cs) = trimChars cs := by
  have parts : dropEndWhile p cs ++ cs.rtakeWhile p = cs := List.rdropWhile_append_rtakeWhile
  have padded := (padded_trimChars (dropEndWhile p cs)).append fun c member =>
    blank c (List.mem_rtakeWhile_imp (p := p) (l := cs) member)
  rw [parts] at padded
  exact (trimChars_of_padded padded).symm

/-- What stands behind a character that is kept is all that can be dropped. -/
theorem dropEndWhile_append_cons {p : Char → Bool} {c : Char} (kept : p c = false)
    (front back : List Char) :
    dropEndWhile p (front ++ c :: back) = front ++ c :: dropEndWhile p back := by
  have shape : (front ++ c :: back).reverse = back.reverse ++ c :: front.reverse := by simp
  rw [dropEndWhile, shape, List.dropWhile_append, List.dropWhile_cons_of_neg (by simp [kept]),
    dropEndWhile]
  split
  · next none =>
    rw [List.isEmpty_iff.mp none]
    simp
  · simp

end Text

namespace Frame

open Text

/-! ## Numbers -/

/-- A number in decimal digits, as many zeros and a plus sign allowed in front of it, that
fits a word. -/
structure Spells (text : List Char) (n : Nat) : Prop where
  written : ∃ sign digits, text = sign ++ digits ∧ (sign = [] ∨ sign = ['+']) ∧ digits ≠ [] ∧
    (∀ c ∈ digits, c.isDigit = true) ∧ Nat.ofDigitChars 10 digits 0 = n
  fits : n < 2 ^ 64

/-- A text reads as a number when it spells it. -/
theorem word?_eq_some_iff {text : List Char} {n : Nat} : word? text = some n ↔ Spells text n := by
  have size : Decimal.twoTo 64 = 2 ^ 64 := rfl
  have unsigned : ∀ more, ¬∀ c ∈ '+' :: more, c.isDigit = true := fun more digits =>
    absurd (digits '+' List.mem_cons_self) (by decide)
  by_cases plus : ∃ more, text = '+' :: more
  · obtain ⟨more, rfl⟩ := plus
    rw [word?_plus, unsigned?_eq_some_iff, size]
    constructor
    · rintro ⟨some, digits, value, fits⟩
      exact ⟨⟨['+'], more, rfl, .inr rfl, some, digits, value⟩, fits⟩
    · rintro ⟨⟨sign, ds, shape, rfl | rfl, some, digits, value⟩, fits⟩
      · obtain rfl : '+' :: more = ds := shape
        exact absurd digits (unsigned more)
      · obtain rfl : more = ds := (List.cons.inj shape).2
        exact ⟨some, digits, value, fits⟩
  · rw [word?_of_ne_plus fun more shape => plus ⟨more, shape⟩, unsigned?_eq_some_iff, size]
    constructor
    · rintro ⟨some, digits, value, fits⟩
      exact ⟨⟨[], text, rfl, .inl rfl, some, digits, value⟩, fits⟩
    · rintro ⟨⟨sign, ds, rfl, rfl | rfl, some, digits, value⟩, fits⟩
      · exact ⟨some, digits, value, fits⟩
      · exact absurd ⟨ds, rfl⟩ plus

instance (text : List Char) (n : Nat) : Decidable (Spells text n) :=
  decidable_of_iff _ word?_eq_some_iff

theorem not_spells {text : List Char} (unread : word? text = none) (n : Nat) : ¬Spells text n := by
  intro spells
  rw [word?_eq_some_iff.mpr spells] at unread
  contradiction

/-! ## Names and values -/

/-- A line is a `Content-Length` header, and this is its value. -/
def Announces (line value : List Char) : Prop :=
  ∃ name core given, line = name ++ ':' :: given ∧ ':' ∉ name ∧ Padded core name ∧
    lower core = "content-length".toList ∧ Padded value given

theorem lengthText?_colon {name : List Char} (noColon : ':' ∉ name) (given : List Char) :
    lengthText? (name ++ ':' :: given) =
      if lower (trimChars name) = "content-length".toList then some (trimChars given) else none := by
  have other : ∀ c ∈ name, decide (c ≠ ':') = true := fun c member =>
    decide_eq_true fun same => noColon (same ▸ member)
  have taken : (name ++ ':' :: given).takeWhile (· ≠ ':') = name := by
    rw [List.takeWhile_append_of_pos other]
    simp
  rw [lengthText?, taken, List.drop_left]

theorem lengthText?_of_notMem {line : List Char} (noColon : ':' ∉ line) :
    lengthText? line = none := by
  have all : line.takeWhile (· ≠ ':') = line :=
    List.takeWhile_eq_self_iff.mpr fun c member => decide_eq_true fun same => noColon (same ▸ member)
  rw [lengthText?, all, List.drop_length]

/-- What ends a line is padding of its value, and no part of its name. -/
theorem lengthText?_dropEndWhile (line : List Char) :
    lengthText? (dropEndWhile isLineEnd line) = lengthText? line := by
  have blank : ∀ c, isLineEnd c = true → isBlank c = true := by
    intro c ends
    simp only [isLineEnd, Bool.or_eq_true, decide_eq_true_eq] at ends
    rcases ends with rfl | rfl <;> decide
  by_cases colon : ':' ∈ line
  · obtain ⟨name, given, rfl, noColon⟩ := List.eq_append_cons_of_mem colon
    rw [dropEndWhile_append_cons (by decide), lengthText?_colon noColon, lengthText?_colon noColon,
      trimChars_dropEndWhile blank]
  · have isFront : dropEndWhile isLineEnd line <+: line := List.rdropWhile_prefix _ _
    rw [lengthText?_of_notMem colon, lengthText?_of_notMem fun member => colon (isFront.subset member)]

/-- A line gives a length text when it announces it. -/
theorem lengthText?_eq_some_iff {line value : List Char} :
    lengthText? line = some value ↔ Announces line value := by
  constructor
  · intro told
    by_cases colon : ':' ∈ line
    · obtain ⟨name, given, rfl, noColon⟩ := List.eq_append_cons_of_mem colon
      rw [lengthText?_colon noColon] at told
      split at told
      · next named =>
        obtain rfl := Option.some.inj told
        exact ⟨name, _, given, rfl, noColon, padded_trimChars name, named, padded_trimChars given⟩
      · contradiction
    · rw [lengthText?_of_notMem colon] at told
      contradiction
  · rintro ⟨name, core, given, rfl, noColon, around, named, value⟩
    rw [lengthText?_colon noColon, trimChars_of_padded around, if_pos named,
      trimChars_of_padded value]

instance (line value : List Char) : Decidable (Announces line value) :=
  decidable_of_iff _ lengthText?_eq_some_iff

/-! ## Lines -/

/-- How a line ends. -/
inductive LineEnd where
  | lineFeed
  | returnFeed

def LineEnd.text : LineEnd → String
  | .lineFeed => "\n"
  | .returnFeed => "\r\n"

/-- A line of a header block. -/
structure HeaderLine where
  text : String
  ending : LineEnd
  oneLine : '\n' ∉ text.toList

namespace HeaderLine

def bytes (line : HeaderLine) : Bytes := utf8 (line.text ++ line.ending.text)

/-- Nothing is left of it without the carriage returns and line feeds at its end. -/
def IsBlank (line : HeaderLine) : Prop := ∀ c ∈ line.text.toList, c = '\r'

/-- It is a length, and this is its value. -/
def Announces (line : HeaderLine) (value : List Char) : Prop :=
  Frame.Announces line.text.toList value

def IsLength (line : HeaderLine) : Prop := ∃ value, line.Announces value

/-- If it is a length, it is a number. -/
def IsSound (line : HeaderLine) : Prop := ∀ value, line.Announces value → ∃ n, Spells value n

instance (line : HeaderLine) : Decidable line.IsBlank :=
  List.decidableBAll (· = '\r') line.text.toList

instance (line : HeaderLine) (value : List Char) : Decidable (line.Announces value) :=
  inferInstanceAs (Decidable (Frame.Announces _ _))

instance (line : HeaderLine) : Decidable line.IsLength :=
  decidable_of_iff ((lengthText? line.text.toList).isSome = true) <| by
    rw [Option.isSome_iff_exists]
    exact exists_congr fun _ => lengthText?_eq_some_iff

instance (line : HeaderLine) : Decidable line.IsSound :=
  decidable_of_iff (∀ value ∈ lengthText? line.text.toList, (word? value).isSome = true) <| by
    simp only [Option.isSome_iff_exists, word?_eq_some_iff]
    exact forall_congr' fun _ => imp_congr_left lengthText?_eq_some_iff

/-- What is left of it without what ends it. -/
def content (line : HeaderLine) : List Char := lineContent (line.text ++ line.ending.text)

theorem content_eq (line : HeaderLine) :
    line.content = dropEndWhile isLineEnd line.text.toList := by
  have ends : ∀ c ∈ line.ending.text.toList, isLineEnd c = true := by
    cases line.ending <;> simp [LineEnd.text, isLineEnd]
  rw [content, lineContent, String.toList_append, dropEndWhile, List.reverse_append,
    List.dropWhile_append_of_pos fun c member => ends c (List.mem_reverse.mp member)]
  rfl

/-- A line has no content when it is blank. -/
theorem content_isEmpty {line : HeaderLine} : line.content.isEmpty = true ↔ line.IsBlank := by
  rw [List.isEmpty_iff, content_eq, dropEndWhile_eq_nil]
  refine forall₂_congr fun c member => ?_
  have other : c ≠ '\n' := fun same => line.oneLine (same ▸ member)
  simp [isLineEnd, other]

/-- The end of a line says nothing about a length. -/
theorem lengthText?_content (line : HeaderLine) :
    lengthText? line.content = lengthText? line.text.toList := by
  rw [content_eq, lengthText?_dropEndWhile]

/-! ## What a line does to the length -/

/-- A line that is no length changes no length. -/
theorem lengthAfter_other {line : HeaderLine} (other : ¬line.IsLength) (known : Option Nat) :
    lengthAfter line.content known = .ok known := by
  have none : lengthText? line.content = none := by
    rw [lengthText?_content]
    exact Option.eq_none_iff_forall_ne_some.mpr fun value told =>
      other ⟨value, lengthText?_eq_some_iff.mp told⟩
  rw [lengthAfter, none]

/-- A length that spells a number is the length from then on. -/
theorem lengthAfter_number {line : HeaderLine} {value : List Char} {n : Nat}
    (announces : line.Announces value) (spells : Spells value n) (known : Option Nat) :
    lengthAfter line.content known = .ok (some n) := by
  rw [lengthAfter, lengthText?_content, lengthText?_eq_some_iff.mpr announces]
  simp only [word?_eq_some_iff.mpr spells]

/-- A length that spells none is a protocol error that quotes it. -/
theorem lengthAfter_wrong {line : HeaderLine} {value : List Char} (announces : line.Announces value)
    (wrong : ∀ n, ¬Spells value n) (known : Option Nat) :
    lengthAfter line.content known =
      .error (.protocol ("invalid Content-Length `" ++ String.ofList value ++ "`")) := by
  have none : word? value = none :=
    Option.eq_none_iff_forall_ne_some.mpr fun n read => wrong n (word?_eq_some_iff.mp read)
  rw [lengthAfter, lengthText?_content, lengthText?_eq_some_iff.mpr announces]
  simp only [none]

/-! ## Reading line by line -/

variable (ended : Bool)

theorem readBlock_bytes (line : HeaderLine) (known : Option Nat) (seen : Bool) (rest : Bytes) :
    readBlock ended known seen (line.bytes ++ rest) =
      if line.content.isEmpty then
        if seen then .complete known rest else readBlock ended known seen rest
      else
        match lengthAfter line.content known with
        | .error fault => .failed fault
        | .ok known => readBlock ended known true rest := by
  -- a carriage return in front of the line feed counts as part of the text
  obtain ⟨text, shape, oneLine⟩ : ∃ text : String,
      line.text ++ line.ending.text = text ++ "\n" ∧ '\n' ∉ text.toList := by
    cases ending : line.ending with
    | lineFeed => exact ⟨line.text, rfl, line.oneLine⟩
    | returnFeed =>
      refine ⟨line.text ++ "\r", by rw [String.append_assoc]; rfl, ?_⟩
      rw [String.toList_append, List.mem_append, not_or]
      exact ⟨line.oneLine, by decide⟩
  rw [bytes, content, shape]
  exact readBlock_line ended seen known oneLine rest

variable {ended} {line : HeaderLine} {known : Option Nat} {seen : Bool}

/-- A blank line ends a block in which a line was seen, and is passed over before. -/
theorem readBlock_blank (blank : line.IsBlank) (rest : Bytes) :
    readBlock ended known seen (line.bytes ++ rest) =
      if seen then .complete known rest else readBlock ended known seen rest := by
  rw [readBlock_bytes, if_pos (content_isEmpty.mpr blank)]

/-- A filled line may say a length, and then the block goes on. -/
theorem readBlock_filled (filled : ¬line.IsBlank) (rest : Bytes) :
    readBlock ended known seen (line.bytes ++ rest) =
      match lengthAfter line.content known with
      | .error fault => .failed fault
      | .ok known => readBlock ended known true rest := by
  rw [readBlock_bytes, if_neg fun empty => filled (content_isEmpty.mp empty)]

/-- A line that is no length is passed over. -/
theorem readBlock_other (filled : ¬line.IsBlank) (other : ¬line.IsLength) (rest : Bytes) :
    readBlock ended known seen (line.bytes ++ rest) = readBlock ended known true rest := by
  rw [readBlock_filled filled, lengthAfter_other other]

/-- Behind a length that is a number this number is known. -/
theorem readBlock_number {value : List Char} {n : Nat} (filled : ¬line.IsBlank)
    (announces : line.Announces value) (spells : Spells value n) (rest : Bytes) :
    readBlock ended known seen (line.bytes ++ rest) = readBlock ended (some n) true rest := by
  rw [readBlock_filled filled, lengthAfter_number announces spells]

/-- A length that is no number is as far as it goes. -/
theorem readBlock_wrong {value : List Char} (filled : ¬line.IsBlank)
    (announces : line.Announces value) (wrong : ∀ n, ¬Spells value n) (rest : Bytes) :
    readBlock ended known seen (line.bytes ++ rest) =
      .failed (.protocol ("invalid Content-Length `" ++ String.ofList value ++ "`")) := by
  rw [readBlock_filled filled, lengthAfter_wrong announces wrong]

variable (ended known seen) in
/-- A sound line is passed, and something or nothing is known then. -/
theorem readBlock_sound (filled : ¬line.IsBlank) (sound : line.IsSound) :
    ∃ known', ∀ rest,
      readBlock ended known seen (line.bytes ++ rest) = readBlock ended known' true rest := by
  by_cases length : line.IsLength
  · obtain ⟨value, announces⟩ := length
    obtain ⟨n, spells⟩ := sound value announces
    exact ⟨some n, readBlock_number filled announces spells⟩
  · exact ⟨known, readBlock_other filled length⟩

end HeaderLine

/-! ## Several lines -/

section Lines

open HeaderLine

variable {ended : Bool} {lines : List HeaderLine}

/-- Blank lines in front are passed over. -/
theorem readBlock_leading (blank : ∀ line ∈ lines, line.IsBlank) (known : Option Nat) (rest : Bytes) :
    readBlock ended known false (lines.flatMap bytes ++ rest) = readBlock ended known false rest := by
  induction lines with
  | nil => rfl
  | cons line lines ih =>
    rw [List.flatMap_cons, List.append_assoc, readBlock_blank (blank line List.mem_cons_self)]
    exact ih fun l member => blank l (List.mem_cons_of_mem _ member)

/-- Lines that are no length are passed over, and are seen. -/
theorem readBlock_others (filled : ∀ line ∈ lines, ¬line.IsBlank)
    (other : ∀ line ∈ lines, ¬line.IsLength) (known : Option Nat) (seen : Bool) (rest : Bytes) :
    readBlock ended known seen (lines.flatMap bytes ++ rest) =
      readBlock ended known (seen || !lines.isEmpty) rest := by
  induction lines generalizing seen with
  | nil => simp
  | cons line lines ih =>
    rw [List.flatMap_cons, List.append_assoc,
      readBlock_other (filled line List.mem_cons_self) (other line List.mem_cons_self),
      ih (fun l member => filled l (List.mem_cons_of_mem _ member))
        fun l member => other l (List.mem_cons_of_mem _ member)]
    simp

variable (ended) in
/-- Lines without a wrong length lead to some length and go on. -/
theorem readBlock_sounds (filled : ∀ line ∈ lines, ¬line.IsBlank)
    (sound : ∀ line ∈ lines, line.IsSound) (known : Option Nat) (seen : Bool) :
    ∃ known' seen', ∀ rest, readBlock ended known seen (lines.flatMap bytes ++ rest) =
      readBlock ended known' seen' rest := by
  induction lines generalizing known seen with
  | nil => exact ⟨known, seen, fun _ => rfl⟩
  | cons line lines ih =>
    obtain ⟨next, passes⟩ := readBlock_sound ended known seen
      (filled line List.mem_cons_self) (sound line List.mem_cons_self)
    obtain ⟨known', seen', goesOn⟩ := ih (fun l member => filled l (List.mem_cons_of_mem _ member))
      (fun l member => sound l (List.mem_cons_of_mem _ member)) next true
    refine ⟨known', seen', fun rest => ?_⟩
    rw [List.flatMap_cons, List.append_assoc, passes, goesOn]

variable (ended) in
/-- Of the lengths that are no numbers the first one is complained about. -/
theorem readBlock_wrongs (filled : ∀ line ∈ lines, ¬line.IsBlank)
    (wrong : ∃ line ∈ lines, ¬line.IsSound) (known : Option Nat) (seen : Bool) (rest : Bytes) :
    ∃ line ∈ lines, ∃ value, line.Announces value ∧ (∀ n, ¬Spells value n) ∧
      readBlock ended known seen (lines.flatMap bytes ++ rest) =
        .failed (.protocol ("invalid Content-Length `" ++ String.ofList value ++ "`")) := by
  induction lines generalizing known seen with
  | nil => simp at wrong
  | cons line lines ih =>
    rw [List.flatMap_cons, List.append_assoc]
    -- the first line that is wrong ends the reading, and names its value
    by_cases sound : line.IsSound
    · obtain ⟨next, passes⟩ := readBlock_sound ended known seen
        (filled line List.mem_cons_self) sound
      have behind : ∃ line ∈ lines, ¬line.IsSound := by simpa [sound] using wrong
      obtain ⟨l, member, value, announces, unread, fails⟩ :=
        ih (fun l member => filled l (List.mem_cons_of_mem _ member)) behind next true
      exact ⟨l, List.mem_cons_of_mem _ member, value, announces, unread, (passes _).trans fails⟩
    · obtain ⟨value, unsound⟩ := not_forall.mp sound
      obtain ⟨announces, unread⟩ := Classical.not_imp.mp unsound
      have unread := not_exists.mp unread
      exact ⟨line, List.mem_cons_self, value, announces, unread,
        readBlock_wrong (filled line List.mem_cons_self) announces unread _⟩

end Lines

/-! ## Blocks -/

/-- A block of header lines: blank ones, then others, then a blank one again. -/
structure HeaderBlock where
  leading : List HeaderLine
  lines : List HeaderLine
  last : HeaderLine
  blank : ∀ line ∈ leading, line.IsBlank
  filled : ∀ line ∈ lines, ¬line.IsBlank
  ends : last.IsBlank

namespace HeaderBlock

/-- All but the line that ends the block. -/
def front (block : HeaderBlock) : Bytes :=
  block.leading.flatMap HeaderLine.bytes ++ block.lines.flatMap HeaderLine.bytes

def bytes (block : HeaderBlock) : Bytes := block.front ++ block.last.bytes

/-- Every length in the block is a number, and the last one is this. -/
structure Gives (block : HeaderBlock) (n : Nat) : Prop where
  sound : ∀ line ∈ block.lines, line.IsSound
  latest : ∃ before line after value, block.lines = before ++ line :: after ∧
    line.Announces value ∧ Spells value n ∧ ∀ line ∈ after, ¬line.IsLength

variable {ended : Bool} {block : HeaderBlock}

/-- What stands in front of a block is passed over. -/
theorem readBlock_front (block : HeaderBlock) (rest : Bytes) :
    readBlock ended none false (block.front ++ rest) =
      readBlock ended none false (block.lines.flatMap HeaderLine.bytes ++ rest) := by
  rw [front, List.append_assoc, readBlock_leading block.blank]

/-- The blank line ends the block, and what stands behind it is left. -/
theorem readBlock_last (block : HeaderBlock) (known : Option Nat) (rest : Bytes) :
    readBlock ended known true (block.last.bytes ++ rest) = .complete known rest := by
  rw [HeaderLine.readBlock_blank block.ends, if_pos rfl]

/-- A block that gives a length is read with it, to its last byte. -/
theorem readBlock_gives {n : Nat} (gives : block.Gives n) (rest : Bytes) :
    readBlock ended none false (block.bytes ++ rest) = .complete (some n) rest := by
  obtain ⟨before, line, after, value, lines, announces, spells, others⟩ := gives.latest
  have filled := block.filled
  have sound := gives.sound
  simp only [lines, List.forall_mem_append, List.forall_mem_cons] at filled sound
  -- what is known in front of the last length makes no difference, and nothing comes behind it
  obtain ⟨known, seen, first⟩ := readBlock_sounds ended filled.1 sound.1 none false
  rw [bytes, List.append_assoc, readBlock_front, lines, List.flatMap_append, List.flatMap_cons,
    List.append_assoc, List.append_assoc, first,
    HeaderLine.readBlock_number filled.2.1 announces spells, readBlock_others filled.2.2 others,
    Bool.true_or, readBlock_last]

/-- A block of other lines is read without one. -/
theorem readBlock_nameless (some : block.lines ≠ []) (others : ∀ line ∈ block.lines, ¬line.IsLength)
    (rest : Bytes) : readBlock ended none false (block.bytes ++ rest) = .complete none rest := by
  have seen : (false || !block.lines.isEmpty) = true := by simp [some]
  rw [bytes, List.append_assoc, readBlock_front, readBlock_others block.filled others, seen,
    readBlock_last]

end HeaderBlock

/-- **Header blocks of any make are read.** Whether or not more can come, and whatever stands
behind:

* a block whose lengths are numbers, the last of them that of the body behind it, is read to
  its end and the body with it, with blank lines in front, other lines in between, names in
  any case, padding, signs and zeros;
* a block without a length breaks the protocol, where it ends;
* so does a length that is no number, where it stands, and it is told. -/
theorem header_tolerance (block : HeaderBlock) (ended : Bool) :
    (∀ body m, body.length ≤ maxBody → decodeBody body = .ok m → block.Gives body.length →
      ∀ rest, read ended (block.bytes ++ (body ++ rest)) = .message m rest) ∧
    (block.lines ≠ [] → (∀ line ∈ block.lines, ¬line.IsLength) →
      ∀ rest, read ended (block.bytes ++ rest) =
        .failed (.protocol "message is missing Content-Length")) ∧
    ((∃ line ∈ block.lines, ∃ value, line.Announces value ∧ ∀ n, ¬Spells value n) →
      ∀ rest, ∃ line ∈ block.lines, ∃ value, line.Announces value ∧ (∀ n, ¬Spells value n) ∧
        read ended (block.front ++ rest) =
          .failed (.protocol ("invalid Content-Length `" ++ String.ofList value ++ "`"))) := by
  refine ⟨fun body m short decoded gives rest => ?_, fun some others rest => ?_,
    fun ⟨line, member, value, announces, wrong⟩ rest => ?_⟩
  · rw [read, HeaderBlock.readBlock_gives gives]
    exact readBody_append ended short decoded rest
  · rw [read, HeaderBlock.readBlock_nameless some others]
  · have unsound : ¬line.IsSound := fun sound =>
      (sound value announces).elim wrong
    obtain ⟨line, member, value, announces, wrong, fails⟩ := readBlock_wrongs ended
      block.filled ⟨line, member, unsound⟩ none false rest
    refine ⟨line, member, value, announces, wrong, ?_⟩
    rw [read, HeaderBlock.readBlock_front, fails]

/-- Two lengths of which the second counts, padded with a no-break space and a tab, and a line
without a colon. -/
def oddBlock : HeaderBlock where
  leading := [⟨"", .returnFeed, by decide⟩]
  lines := [⟨"Content-Length: 7", .lineFeed, by decide⟩,
    ⟨"\u00a0content-LENGTH\t: +0033 ", .returnFeed, by decide⟩, ⟨"charset", .lineFeed, by decide⟩]
  last := ⟨"", .lineFeed, by decide⟩
  blank := by decide
  filled := by decide
  ends := by decide

/-- A length that is no number, with another header in front of it. -/
def wrongBlock : HeaderBlock where
  leading := []
  lines := [⟨"Content-Type: x", .returnFeed, by decide⟩, ⟨"Content-Length: -1", .returnFeed, by decide⟩]
  last := ⟨"", .returnFeed, by decide⟩
  blank := by decide
  filled := by decide
  ends := by decide

/-- `header_tolerance` at a block that is read, at one with a wrong length, and at the same one
without that line. -/
theorem header_tolerance_odd :
    let told : Message := .notification "exit" .null
    let nameless : HeaderBlock :=
      { wrongBlock with lines := wrongBlock.lines.take 1, filled := by decide }
    read false (oddBlock.bytes ++ (utf8 told.toJson.text ++ utf8 "Con")) =
        .message told (utf8 "Con") ∧
      read false (nameless.bytes ++ utf8 "Con") =
        .failed (.protocol "message is missing Content-Length") ∧
      read false (wrongBlock.front ++ utf8 "Con") =
        .failed (.protocol "invalid Content-Length `-1`") := by
  intro told nameless
  refine ⟨?_, ?_, ?_⟩
  · have readable : Readable told := by decide +kernel
    have size : (utf8 told.toJson.text).length = 33 := by decide +kernel
    have gives : oddBlock.Gives (utf8 told.toJson.text).length := by
      rw [size]
      exact ⟨by decide, oddBlock.lines.take 1, oddBlock.lines[1], oddBlock.lines.drop 2,
        "+0033".toList, rfl, by decide, by decide, by decide⟩
    exact (header_tolerance oddBlock false).1 _ told readable.short (decodeBody_text readable) gives _
  · exact (header_tolerance nameless false).2.1 (by simp [nameless, wrongBlock]) (by decide) _
  · obtain ⟨line, member, value, announces, -, fails⟩ := (header_tolerance wrongBlock false).2.2
      ⟨wrongBlock.lines[1], by simp, "-1".toList, by decide, not_spells rfl⟩ (utf8 "Con")
    -- the block has one line that is wrong
    have only : ∀ line ∈ wrongBlock.lines, ∀ value ∈ lengthText? line.text.toList,
        value = "-1".toList := by decide
    obtain rfl := only line member value (lengthText?_eq_some_iff.mpr announces)
    exact fails

end Frame

end EmberClient
