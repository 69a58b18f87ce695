import Mathlib.Tactic.SplitIfs
import EmberClient.Json.Reader
import EmberClient.Json.Writer

/-!
# What is written as JSON reads back

`Json.chars` writes a document and `Json.readValue?` reads one. They are written apart
from each other, so that one undoes the other is a theorem, and it needs two
conditions on the document: its numbers are whole and within sixty-four bits
(`isWhole`; other numbers are rounded), and its brackets nest no deeper than the reader
follows them (`depth`).

> `read?_text`: a whole document no deeper than `maxDepth` reads back from its own text.

The reader stops by itself at the end of what was written. Only a number has no token
of its own to end it; `AtDelimiter` says of what is left that it cannot go on with one.
The bound of the reader's recursion is paid in characters: what is written for a part is
shorter than what is written for the whole.
-/

namespace EmberClient.Decimal

/-! ## Digits -/

/-- Only zero is written with a zero in front. -/
theorem eq_zero_of_toDigits {n : Nat} {ds : List Char} (h : Nat.toDigits 10 n = '0' :: ds) :
    n = 0 := by
  -- the first digit of a number is that of its tenth part
  induction n using Nat.strongRecOn generalizing ds with
  | ind n ih =>
    by_cases small : n < 10
    · have zero : ∀ k < 10, Nat.digitChar k = '0' → k = 0 := by decide
      rw [Nat.toDigits_of_lt_base small] at h
      exact zero n small (List.cons.inj h).1
    · rw [Nat.toDigits_of_base_le (by decide) (by omega)] at h
      obtain ⟨d, front, shape⟩ :=
        List.exists_cons_of_ne_nil (Nat.toDigits_ne_nil (b := 10) (n := n / 10))
      rw [shape, List.cons_append] at h
      rw [(List.cons.inj h).1] at shape
      have := ih (n / 10) (by omega) shape
      omega

/-- No number is written with a zero in front of another digit. -/
theorem toDigits_ne_zero_cons {n : Nat} {c : Char} {cs : List Char} :
    Nat.toDigits 10 n ≠ '0' :: c :: cs := by
  intro h
  have zero := eq_zero_of_toDigits h
  subst zero
  simp at h

theorem le_ofDigitChars (word : Nat) (cs : List Char) : word ≤ Nat.ofDigitChars 10 cs word := by
  induction cs generalizing word with
  | nil => exact Nat.le_refl _
  | cons c cs ih =>
    rw [Nat.ofDigitChars_cons]
    exact Nat.le_trans (by omega) (ih _)

end EmberClient.Decimal

namespace EmberClient.JsonNumber

open Decimal

/-- Digits whose number fits a word are taken to the last. -/
theorem takeWord_of_le {word : Nat} {cs : List Char}
    (fits : Nat.ofDigitChars 10 cs word ≤ maxWord) :
    takeWord word cs = (Nat.ofDigitChars 10 cs word, []) := by
  induction cs generalizing word with
  | nil => rfl
  | cons c cs ih =>
    rw [Nat.ofDigitChars_cons] at fits ⊢
    have next : word * 10 + digit c = 10 * word + (c.toNat - '0'.toNat) := by
      rw [Nat.mul_comm]
      rfl
    have here := Nat.le_trans (le_ofDigitChars _ cs) fits
    rw [takeWord, next, if_neg (by omega)]
    exact ih fits

/-- The digits of a number within a word are taken up in one go. -/
theorem takeWord_toDigits {n : Nat} (fits : n ≤ maxWord) :
    takeWord 0 (Nat.toDigits 10 n) = (n, []) := by
  have value : Nat.ofDigitChars 10 (Nat.toDigits 10 n) 0 = n := Nat.ofDigitChars_ten_toDigits
  rw [takeWord_of_le (by rwa [value]), value]

/-- The literal of digits alone, with or without a sign. -/
def Literal.ofNat (negative : Bool) (n : Nat) : Literal :=
  { negative, whole := Nat.toDigits 10 n, fraction := none, exponent := none }

/-- A natural literal within a word is the number. -/
theorem ofLiteral_natural {n : Nat} (fits : n ≤ maxWord) :
    ofLiteral (.ofNat false n) = some (.int n) := by
  simp [ofLiteral, Literal.ofNat, takeWord_toDigits fits]

/-- So is a negative one within a signed word. -/
theorem ofLiteral_negative {n : Nat} (positive : 0 < n) (fits : n ≤ twoTo 63) :
    ofLiteral (.ofNat true n) = some (.int (-n)) := by
  have word : n ≤ maxWord := Nat.le_trans fits (by decide)
  simp [ofLiteral, Literal.ofNat, takeWord_toDigits word, positive, fits]

/-- A whole number that a signed or an unsigned word of sixty-four bits holds. -/
def isWhole : JsonNumber → Bool
  | .int n => fitsSigned 64 n || fitsUnsigned 64 n
  | .real _ => false

end EmberClient.JsonNumber

namespace EmberClient.Json

open Decimal (twoTo)

/-! ## Strings -/

/-- The two digits of a control character are read back. -/
theorem unit?_hexChar :
    ∀ n < 32, unit? '0' '0' (Text.hexChar (n / 16)) (Text.hexChar (n % 16)) = some n := by
  decide

section

variable {cs text rest : List Char} (body : stringBody cs = some (text, rest))
include body

theorem stringBody_plain {c : Char} (quote : c ≠ '"') (backslash : c ≠ '\\')
    (printable : ¬c.toNat < 0x20) : stringBody (c :: cs) = some (c :: text, rest) := by
  rw [stringBody.eq_def]
  split <;> simp_all

theorem stringBody_letter {c letter : Char} (meaning : letterEscape? letter = some c)
    (noUnit : letter ≠ 'u') : stringBody ('\\' :: letter :: cs) = some (c :: text, rest) := by
  simp [stringBody, noUnit, meaning, body]

theorem stringBody_control {c : Char} (control : c.toNat < 0x20) :
    stringBody ('\\' :: 'u' :: '0' :: '0' :: Text.hexChar (c.toNat / 16) ::
      Text.hexChar (c.toNat % 16) :: cs) = some (c :: text, rest) := by
  have low : isLowSurrogate c.toNat = false := by
    simp only [isLowSurrogate, Bool.and_eq_false_iff, decide_eq_false_iff_not]
    omega
  have high : isHighSurrogate c.toNat = false := by
    simp only [isHighSurrogate, Bool.and_eq_false_iff, decide_eq_false_iff_not]
    omega
  simp [stringBody, unit?_hexChar _ control, low, high, body]

/-- A character is read back from the form in which it stands between quotes. -/
theorem stringBody_escaped (c : Char) : stringBody (escaped c ++ cs) = some (c :: text, rest) := by
  unfold escaped
  split_ifs with quote backslash b t n f r control
  iterate 7
    · subst c
      exact stringBody_letter body (by decide) (by decide)
  · exact stringBody_control body control
  · exact stringBody_plain body quote backslash control

end

/-- An escaped text up to its quote is read back. -/
theorem stringBody_closed (text rest : List Char) :
    stringBody (text.flatMap escaped ++ '"' :: rest) = some (text, rest) := by
  induction text with
  | nil => rfl
  | cons c text ih =>
    rw [List.flatMap_cons, List.append_assoc]
    exact stringBody_escaped ih c

theorem quoted_append (s : String) (rest : List Char) :
    quoted s ++ rest = '"' :: (s.toList.flatMap escaped ++ '"' :: rest) := by
  simp [quoted]

/-! ## Numbers -/

/-- Nothing is left, or a token that no number goes on with. -/
def AtDelimiter : List Char → Prop
  | [] => True
  | c :: _ => c = ',' ∨ c = ']' ∨ c = '}'

section

variable {rest : List Char} (stop : AtDelimiter rest)
include stop

/-- The digits of a number are all that is read. -/
theorem digits?_toDigits (n : Nat) :
    digits? (Nat.toDigits 10 n ++ rest) = some (Nat.toDigits 10 n, rest) := by
  have digits : ∀ c ∈ Nat.toDigits 10 n, isDigit c = true := fun c member => by
    have := Nat.isDigit_of_mem_toDigits (by decide) (by decide) member
    simpa [isDigit, Char.isDigit, Char.le_def] using this
  have taken : rest.takeWhile isDigit = [] ∧ rest.dropWhile isDigit = rest := by
    cases rest with
    | nil => exact ⟨rfl, rfl⟩
    | cons c rest => rcases stop with rfl | rfl | rfl <;> exact ⟨rfl, rfl⟩
  have front : (Nat.toDigits 10 n ++ rest).takeWhile isDigit = Nat.toDigits 10 n := by
    rw [List.takeWhile_append_of_pos digits, taken.1, List.append_nil]
  have back : (Nat.toDigits 10 n ++ rest).dropWhile isDigit = rest := by
    rw [List.dropWhile_append_of_pos digits, taken.2]
  rw [digits?, front, back]
  split
  · next none => exact absurd none Nat.toDigits_ne_nil
  · rfl

/-- Digits are read as the number that they write. -/
theorem number?_toDigits (negative : Bool) (n : Nat) :
    number? negative (Nat.toDigits 10 n ++ rest) =
      (JsonNumber.ofLiteral (.ofNat negative n)).map fun number => (.num number, rest) := by
  have whole : wholePart? (Nat.toDigits 10 n ++ rest) = some (Nat.toDigits 10 n, rest) := by
    simp only [wholePart?, digits?_toDigits stop, Option.bind_eq_bind, Option.bind_some]
    split
    · next digits => exact absurd digits Decimal.toDigits_ne_zero_cons
    · rfl
  have fraction : fractionPart? rest = some (none, rest) := by
    cases rest with
    | nil => rfl
    | cons c rest => rcases stop with rfl | rfl | rfl <;> rfl
  have exponent : exponentPart? rest = some (none, rest) := by
    cases rest with
    | nil => rfl
    | cons c rest => rcases stop with rfl | rfl | rfl <;> rfl
  simp only [number?, whole, fraction, exponent, Option.bind_eq_bind, Option.bind_some]
  show (JsonNumber.ofLiteral (.ofNat negative n)).bind _ = _
  cases JsonNumber.ofLiteral (.ofNat negative n) <;> rfl

end

/-! ## Values -/

mutual

/-- Every number of the document is whole and fits a word. -/
def isWhole : Json → Bool
  | .num n => n.isWhole
  | .arr items => itemsWhole items
  | .obj members => membersWhole members
  | _ => true

def itemsWhole : List Json → Bool
  | [] => true
  | v :: rest => isWhole v && itemsWhole rest

def membersWhole : List (String × Json) → Bool
  | [] => true
  | (_, v) :: rest => isWhole v && membersWhole rest

end

mutual

/-- How deep the brackets of a document nest. -/
def depth : Json → Nat
  | .arr items => itemsDepth items + 1
  | .obj members => membersDepth members + 1
  | _ => 0

def itemsDepth : List Json → Nat
  | [] => 0
  | v :: rest => max (depth v) (itemsDepth rest)

def membersDepth : List (String × Json) → Nat
  | [] => 0
  | (_, v) :: rest => max (depth v) (membersDepth rest)

end

/-- A digit at the front is the beginning of a number without a sign. -/
theorem readValue?_digit {bound depth : Nat} {c : Char} (digit : c.isDigit = true)
    (cs : List Char) : readValue? (bound + 1) depth (c :: cs) = number? false (c :: cs) := by
  rw [readValue?.eq_def]
  split
  · contradiction
  · split <;> simp_all [Char.isDigit]

/-- A whole number is read back where a delimiter follows. -/
theorem readValue?_num {n : JsonNumber} (whole : n.isWhole = true) {rest : List Char}
    (stop : AtDelimiter rest) (bound depth : Nat) :
    readValue? (bound + 1) depth (n.text.toList ++ rest) = some (.num n, rest) := by
  cases n with
  | real => contradiction
  | int n =>
    simp only [JsonNumber.isWhole, Bool.or_eq_true, Decimal.fitsSigned_iff,
      Decimal.fitsUnsigned_iff, Nat.add_one_sub_one] at whole
    -- the sign decides which of the two ranges the number has to fit
    by_cases negative : n < 0
    · have text : (JsonNumber.text (.int n)).toList = '-' :: Nat.toDigits 10 n.natAbs := by
        simp [JsonNumber.text, JsonNumber.intText, negative]
      have fits : n.natAbs ≤ twoTo 63 := by omega
      have value : -(n.natAbs : Int) = n := by omega
      rw [text, List.cons_append, readValue?, number?_toDigits stop,
        JsonNumber.ofLiteral_negative (by omega) fits, value, Option.map_some]
    · have text : (JsonNumber.text (.int n)).toList = Nat.toDigits 10 n.natAbs := by
        simp [JsonNumber.text, JsonNumber.intText, negative]
      have widths : twoTo 63 ≤ JsonNumber.maxWord ∧ twoTo 64 = JsonNumber.maxWord + 1 := by decide
      have fits : n.natAbs ≤ JsonNumber.maxWord := by omega
      have value : (n.natAbs : Int) = n := by omega
      obtain ⟨c, cs, digits⟩ :=
        List.exists_cons_of_ne_nil (Nat.toDigits_ne_nil (b := 10) (n := n.natAbs))
      have digit : c.isDigit = true :=
        Nat.isDigit_of_mem_toDigits (b := 10) (n := n.natAbs) (by decide) (by decide)
          (by rw [digits]; exact List.mem_cons_self)
      rw [text, digits, List.cons_append, readValue?_digit digit, ← List.cons_append, ← digits,
        number?_toDigits stop, JsonNumber.ofLiteral_natural fits, value, Option.map_some]

/-! ### One token of a list

What is read says how the characters begin, so no blank is skipped in front of it and
a list that has an item is not taken for the empty one. -/

/-- What reads as a value begins with it: no blank, no bracket that closes. -/
theorem readValue?_front {bound depth : Nat} {cs rest : List Char} {v : Json}
    (read : readValue? bound depth cs = some (v, rest)) :
    skipSpace cs = cs ∧ ∀ more, cs ≠ ']' :: more := by
  have refused : ∀ c more, isSpace c = true ∨ c = ']' → cs ≠ c :: more := by
    rintro c more first rfl
    have noNumber : number? false (c :: more) = none := by
      have noDigit : isDigit c = false := by
        rcases first with space | rfl
        · simp only [isSpace, Bool.or_eq_true, decide_eq_true_eq] at space
          rcases space with ((rfl | rfl) | rfl) | rfl <;> rfl
        · rfl
      simp [number?, wholePart?, digits?, noDigit]
    rw [readValue?.eq_def] at read
    split at read
    · contradiction
    · split at read <;> simp_all [isSpace]
  constructor
  · cases cs with
    | nil => rfl
    | cons c more =>
      have : isSpace c ≠ true := fun space => refused c more (.inl space) rfl
      rw [skipSpace, List.dropWhile_cons_of_neg this]
  · exact fun more => refused _ more (.inr rfl)

theorem readItems?_front {bound depth : Nat} {cs rest : List Char} {items : List Json}
    (read : readItems? bound depth cs = some (items, rest)) :
    skipSpace cs = cs ∧ ∀ more, cs ≠ ']' :: more := by
  rw [readItems?.eq_def] at read
  split at read
  · contradiction
  · obtain ⟨⟨v, rest'⟩, first, -⟩ := Option.bind_eq_some_iff.mp read
    exact readValue?_front first

/-- What reads as members begins with a quote. -/
theorem readMembers?_front {bound depth : Nat} {cs rest : List Char}
    {members : List (String × Json)}
    (read : readMembers? bound depth cs = some (members, rest)) : ∃ more, cs = '"' :: more := by
  rw [readMembers?.eq_def] at read
  split at read
  · contradiction
  · split at read
    · exact ⟨_, rfl⟩
    · contradiction

section

variable {bound depth : Nat} {cs next rest : List Char} {v : Json}

/-- The last item is the one that a closing bracket follows. -/
theorem readItems?_last (first : readValue? bound depth cs = some (v, ']' :: rest)) :
    readItems? (bound + 1) depth cs = some ([v], rest) := by
  simp [readItems?, first, skipSpace, isSpace]

/-- An item with a comma behind it is followed by the others. -/
theorem readItems?_cons {items : List Json}
    (first : readValue? bound depth cs = some (v, ',' :: next))
    (others : readItems? bound depth next = some (items, rest)) :
    readItems? (bound + 1) depth cs = some (v :: items, rest) := by
  have comma : skipSpace (',' :: next) = ',' :: next := rfl
  simp [readItems?, first, comma, (readItems?_front others).1, others]

theorem readValue?_arr {items : List Json}
    (read : readItems? bound depth cs = some (items, rest)) :
    readValue? (bound + 1) (depth + 1) ('[' :: cs) = some (.arr items, rest) := by
  obtain ⟨noBlank, noEnd⟩ := readItems?_front read
  simp [readValue?, noBlank, read]

variable (key : String)

/-- The last member is the one that a closing brace follows. -/
theorem readMembers?_last (first : readValue? bound depth cs = some (v, '}' :: rest)) :
    readMembers? (bound + 1) depth (quoted key ++ ':' :: cs) = some ([(key, v)], rest) := by
  have colon : skipSpace (':' :: cs) = ':' :: cs := rfl
  have brace : skipSpace ('}' :: rest) = '}' :: rest := rfl
  simp [quoted_append, readMembers?, stringBody_closed, colon, (readValue?_front first).1, first,
    brace]

/-- A member with a comma behind it is followed by the others. -/
theorem readMembers?_cons {members : List (String × Json)}
    (first : readValue? bound depth cs = some (v, ',' :: next))
    (others : readMembers? bound depth next = some (members, rest)) :
    readMembers? (bound + 1) depth (quoted key ++ ':' :: cs) =
      some ((key, v) :: members, rest) := by
  have colon : skipSpace (':' :: cs) = ':' :: cs := rfl
  have comma : skipSpace (',' :: next) = ',' :: next := rfl
  have noBlank : skipSpace next = next := by
    obtain ⟨more, rfl⟩ := readMembers?_front others
    rfl
  simp [quoted_append, readMembers?, stringBody_closed, colon, (readValue?_front first).1, first,
    comma, noBlank, others]

theorem readValue?_obj {members : List (String × Json)}
    (read : readMembers? bound depth cs = some (members, rest)) :
    readValue? (bound + 1) (depth + 1) ('\x7b' :: cs) = some (.obj members, rest) := by
  obtain ⟨more, rfl⟩ := readMembers?_front read
  have quote : skipSpace ('"' :: more) = '"' :: more := rfl
  simp [readValue?, quote, read]

end

/-! ### Documents -/

mutual

/-- What is written for a value is read back as that value, and the reader stops where
the value ends. -/
theorem readValue?_chars (v : Json) {bound depth : Nat} {rest : List Char}
    (whole : v.isWhole = true) (deep : v.depth ≤ depth) (short : (chars v).length < bound)
    (stop : AtDelimiter rest) : readValue? bound depth (chars v ++ rest) = some (v, rest) := by
  obtain ⟨bound, rfl⟩ := Nat.exists_eq_add_one_of_ne_zero (Nat.ne_zero_of_lt short)
  -- arrays and objects go on to their members, one level deeper and with fewer characters
  match v with
  | .null => rfl
  | .bool true => rfl
  | .bool false => rfl
  | .num n => exact readValue?_num whole stop bound depth
  | .str s =>
    rw [chars, quoted_append]
    simp [readValue?, stringBody_closed]
  | .arr [] =>
    obtain ⟨depth, rfl⟩ := Nat.exists_eq_add_one_of_ne_zero (Nat.ne_zero_of_lt deep)
    rfl
  | .obj [] =>
    obtain ⟨depth, rfl⟩ := Nat.exists_eq_add_one_of_ne_zero (Nat.ne_zero_of_lt deep)
    rfl
  | .arr (v :: items) =>
    obtain ⟨depth, rfl⟩ := Nat.exists_eq_add_one_of_ne_zero (Nat.ne_zero_of_lt deep)
    have fits : (itemChars (v :: items)).length + 1 < bound := by
      simp [chars] at short
      omega
    have inside := readItems?_itemChars (v :: items) (by simp) whole (Nat.le_of_succ_le_succ deep)
      fits rest
    simpa [chars] using readValue?_arr inside
  | .obj (member :: members) =>
    obtain ⟨depth, rfl⟩ := Nat.exists_eq_add_one_of_ne_zero (Nat.ne_zero_of_lt deep)
    have fits : (memberChars (member :: members)).length + 1 < bound := by
      simp [chars] at short
      omega
    have inside := readMembers?_memberChars (member :: members) (by simp) whole
      (Nat.le_of_succ_le_succ deep) fits rest
    simpa [chars] using readValue?_obj inside

/-- The items of an array are read back, given depth and bound enough. -/
theorem readItems?_itemChars (items : List Json) {bound depth : Nat} (nonempty : items ≠ [])
    (whole : itemsWhole items = true) (deep : itemsDepth items ≤ depth)
    (short : (itemChars items).length + 1 < bound) (rest : List Char) :
    readItems? bound depth (itemChars items ++ ']' :: rest) = some (items, rest) := by
  obtain ⟨bound, rfl⟩ := Nat.exists_eq_add_one_of_ne_zero (Nat.ne_zero_of_lt short)
  match items with
  | [v] =>
    simp only [itemsWhole, Bool.and_true] at whole
    simp only [itemsDepth, Nat.max_le] at deep
    simp only [itemChars] at short ⊢
    exact readItems?_last
      (readValue?_chars v whole deep.1 (by omega) (.inr (.inl rfl)))
  | v :: w :: items =>
    rw [itemsWhole, Bool.and_eq_true] at whole
    rw [itemsDepth, Nat.max_le] at deep
    simp only [itemChars, List.length_append, List.length_cons, List.append_assoc,
      List.cons_append] at short ⊢
    exact readItems?_cons
      (readValue?_chars v whole.1 deep.1 (by omega) (.inl rfl))
      (readItems?_itemChars (w :: items) (by simp) whole.2 deep.2 (by omega) rest)

/-- So are the members of an object. -/
theorem readMembers?_memberChars (members : List (String × Json)) {bound depth : Nat}
    (nonempty : members ≠ []) (whole : membersWhole members = true)
    (deep : membersDepth members ≤ depth) (short : (memberChars members).length + 1 < bound)
    (rest : List Char) :
    readMembers? bound depth (memberChars members ++ '\x7d' :: rest) = some (members, rest) := by
  obtain ⟨bound, rfl⟩ := Nat.exists_eq_add_one_of_ne_zero (Nat.ne_zero_of_lt short)
  match members with
  | [(key, v)] =>
    simp only [membersWhole, Bool.and_true] at whole
    simp only [membersDepth, Nat.max_le] at deep
    simp only [memberChars, List.length_append, List.length_cons, List.append_assoc,
      List.cons_append] at short ⊢
    exact readMembers?_last key
      (readValue?_chars v whole deep.1 (by omega) (.inr (.inr rfl)))
  | (key, v) :: member :: members =>
    rw [membersWhole, Bool.and_eq_true] at whole
    rw [membersDepth, Nat.max_le] at deep
    simp only [memberChars, List.length_append, List.length_cons, List.append_assoc,
      List.cons_append] at short ⊢
    exact readMembers?_cons key
      (readValue?_chars v whole.1 deep.1 (by omega) (.inl rfl))
      (readMembers?_memberChars (member :: members) (by simp) whole.2 deep.2 (by omega) rest)

end

/-- A whole document no deeper than the reader follows is read back from its own text. -/
theorem read?_text {v : Json} (whole : v.isWhole = true) (deep : v.depth ≤ maxDepth) :
    read? v.text = some v := by
  have read : readValue? _ maxDepth (chars v ++ []) = some (v, []) :=
    readValue?_chars v whole deep (Nat.lt_succ_self _) trivial
  rw [List.append_nil] at read
  rw [read?, text, String.toList_ofList, ofChars?, (readValue?_front read).1, read]
  rfl

end EmberClient.Json
