import EmberClient.Proofs.Rpc.Stream
import EmberClient.Terminal

/-!
# What prompts hear of the input

A prompt takes whole pieces of the input, up to the first in which a line ends, and answers
from that line. Whatever stands behind the line in that piece was read with it and is gone.

`heard` follows that through the pieces: one entry for each prompt, the line that it answers
from and what is lost behind the line. Put together they are the input again, so nothing is
read twice and nothing goes missing but what is lost there (`flatten_heard`).

> `prompts_answer_lines`: so the prompts go through the input line by line just when no read
> reaches beyond the end of a line.

That holds of an input that is typed, where a line at a time is handed over. Of an input
that is there all at once, and short enough for one read, only the first line is ever heard
(`prompts_at_once`).
-/

namespace EmberClient

open Text

/-! ## Lines -/

section Lines

variable {α : Type}

/-- The lines that a list consists of. Each goes up to what ends it; the last may lack its
end. -/
def linesOf (isEnd : α → Bool) : List α → List (List α)
  | [] => []
  | a :: rest =>
    if isEnd a then [a] :: linesOf isEnd rest
    else (a :: (linesOf isEnd rest).headD []) :: (linesOf isEnd rest).tail

/-- The line at this place; behind the last there is nothing. -/
def lineAt (isEnd : α → Bool) (list : List α) (i : Nat) : List α :=
  ((linesOf isEnd list)[i]?).getD []

theorem flatten_eq_headD_append (lines : List (List α)) :
    lines.headD [] ++ lines.tail.flatten = lines.flatten := by
  cases lines <;> rfl

/-- The lines are the list again. -/
theorem flatten_linesOf (isEnd : α → Bool) (list : List α) :
    (linesOf isEnd list).flatten = list := by
  induction list with
  | nil => rfl
  | cons a rest ih =>
    rw [linesOf]
    split
    · rw [List.flatten_cons, ih, List.singleton_append]
    · rw [List.flatten_cons, List.cons_append, flatten_eq_headD_append, ih]

/-- The first line goes up to its end, and the others are those of the rest. -/
theorem linesOf_ended {isEnd : α → Bool} {front : List α} (inside : ∀ a ∈ front, isEnd a = false)
    {e : α} (isLast : isEnd e = true) (rest : List α) :
    linesOf isEnd (front ++ e :: rest) = (front ++ [e]) :: linesOf isEnd rest := by
  induction front with
  | nil => rw [List.nil_append, linesOf, if_pos isLast, List.nil_append]
  | cons a front ih =>
    have goesOn : ¬isEnd a = true := Bool.eq_false_iff.mp (inside a List.mem_cons_self)
    rw [List.cons_append, linesOf, if_neg goesOn, ih fun b member =>
      inside b (List.mem_cons_of_mem _ member)]
    rfl

/-- What does not end a line belongs to the next one. -/
theorem linesOf_unended {isEnd : α → Bool} {front : List α} (inside : ∀ a ∈ front, isEnd a = false)
    (some : front ≠ []) (rest : List α) :
    linesOf isEnd (front ++ rest) =
      (front ++ (linesOf isEnd rest).headD []) :: (linesOf isEnd rest).tail := by
  induction front with
  | nil => contradiction
  | cons a front ih =>
    have goesOn : ¬isEnd a = true := Bool.eq_false_iff.mp (inside a List.mem_cons_self)
    rw [List.cons_append, linesOf, if_neg goesOn]
    by_cases last : front = []
    · subst last
      rfl
    · rw [ih (fun b member => inside b (List.mem_cons_of_mem _ member)) last]
      rfl

theorem headD_eq_getD (lines : List (List α)) : lines.headD [] = (lines[0]?).getD [] := by
  cases lines <;> rfl

/-- What stands in front of the first end belongs to the first line. -/
theorem lineAt_unended {isEnd : α → Bool} {front : List α} (inside : ∀ a ∈ front, isEnd a = false)
    (rest : List α) :
    lineAt isEnd (front ++ rest) 0 = front ++ lineAt isEnd rest 0 ∧
      ∀ i, lineAt isEnd (front ++ rest) (i + 1) = lineAt isEnd rest (i + 1) := by
  by_cases nothing : front = []
  · subst nothing
    exact ⟨rfl, fun i => rfl⟩
  · unfold lineAt
    rw [linesOf_unended inside nothing, headD_eq_getD]
    exact ⟨rfl, fun i => by rw [List.getElem?_cons_succ, List.getElem?_tail]⟩

/-- Lists of lines that agree at all places are the same input. -/
theorem flatten_eq_of_getD {lines others : List (List α)}
    (same : ∀ i : Nat, (lines[i]?).getD [] = (others[i]?).getD []) :
    lines.flatten = others.flatten := by
  induction lines generalizing others with
  | nil =>
    refine (List.flatten_eq_nil_iff.mpr fun line member => ?_).symm
    obtain ⟨i, here⟩ := List.getElem?_of_mem member
    simpa [here] using (same i).symm
  | cons line lines ih =>
    rw [← flatten_eq_headD_append others, headD_eq_getD, ← same 0, List.flatten_cons]
    refine congrArg (line ++ ·) (ih fun i => ?_)
    rw [List.getElem?_tail, ← same (i + 1), List.getElem?_cons_succ]

end Lines

namespace Terminal

/-- The line feed among bytes. -/
def isFeed (b : UInt8) : Bool := b = lineFeed

theorem isFeed_eq_false {front : Bytes} (inside : lineFeed ∉ front) :
    ∀ b ∈ front, isFeed b = false := fun _ member =>
  decide_eq_false fun feed => inside (feed ▸ member)

theorem utf8EncodeChar_ne_nil (c : Char) : String.utf8EncodeChar c ≠ [] := by
  rw [← List.length_pos_iff, String.length_utf8EncodeChar]
  exact c.utf8Size_pos

/-- A text falls into lines as its bytes do. -/
theorem linesOf_utf8 (cs : List Char) :
    linesOf isFeed (cs.flatMap String.utf8EncodeChar) =
      (linesOf (· = '\n') cs).map fun line => line.flatMap String.utf8EncodeChar := by
  induction cs with
  | nil => rfl
  | cons c cs ih =>
    rw [List.flatMap_cons, linesOf]
    by_cases feed : c = '\n'
    · subst feed
      have one : String.utf8EncodeChar '\n' = [lineFeed] := rfl
      rw [one, List.singleton_append, linesOf, if_pos (show isFeed lineFeed = true by decide),
        if_pos (by simp), ih]
      rfl
    · -- no other character has the byte of a line feed among its own
      have inside : lineFeed ∉ String.utf8EncodeChar c := by
        intro member
        rcases byte_of_mem_utf8EncodeChar member with same | high
        · exact feed (Char.toNat_inj.mp same.symm)
        · exact absurd high (by decide)
      rw [linesOf_unended (isFeed_eq_false inside) (utf8EncodeChar_ne_nil c), if_neg (by simpa using feed), ih,
        List.map_cons, List.map_tail]
      cases linesOf (· = '\n') cs <;> simp

/-! ## Pieces -/

/-- Where the first line of a piece ends, if one does. -/
theorem firstLine?_cases (piece : Bytes) :
    (∃ front rest, lineFeed ∉ front ∧ piece = front ++ lineFeed :: rest ∧
      firstLine? piece = some (front ++ [lineFeed])) ∨
    (lineFeed ∉ piece ∧ firstLine? piece = none) := by
  -- along the bytes, up to the first line feed
  induction piece with
  | nil => exact .inr ⟨List.not_mem_nil, rfl⟩
  | cons b piece ih =>
    by_cases feed : b = lineFeed
    · subst feed
      exact .inl ⟨[], piece, List.not_mem_nil, rfl, if_pos rfl⟩
    · rw [firstLine?, if_neg feed]
      rcases ih with ⟨front, rest, inside, rfl, first⟩ | ⟨none, first⟩
      · refine .inl ⟨b :: front, rest, ?_, rfl, by rw [first]; rfl⟩
        simp [inside, Ne.symm feed]
      · exact .inr ⟨by simp [none, Ne.symm feed], by rw [first]; rfl⟩

/-- A line feed stands at most at the end of the piece. -/
def Within (piece : Bytes) : Prop := ∀ front rest, piece = front ++ lineFeed :: rest → rest = []

/-- What prompts hear one after another: the line, and what is lost behind it. -/
def heard : List Bytes → List (Bytes × Bytes)
  | [] => []
  | piece :: rest =>
    match firstLine? piece with
    | some l => (l, piece.drop l.length) :: heard rest
    | none =>
      let next := (heard rest).headD ([], [])
      (piece ++ next.1, next.2) :: (heard rest).tail

/-- The line that the prompt at this place hears. -/
def heardAt (input : List Bytes) (i : Nat) : Bytes := (((heard input)[i]?).getD ([], [])).1

/-- The next prompt hears the first entry, and the others are left. -/
theorem line_heard (input : List Bytes) :
    (line input).1 = heardAt input 0 ∧ heard (line input).2 = (heard input).tail := by
  induction input with
  | nil => exact ⟨rfl, rfl⟩
  | cons piece rest ih =>
    rw [heardAt, heard, line]
    cases firstLine? piece with
    | some l => exact ⟨rfl, rfl⟩
    | none =>
      refine ⟨(congrArg (piece ++ ·) ih.1).trans ?_, ih.2⟩
      rw [heardAt]
      cases heard rest <;> rfl

/-- After one line is read, the next is the first. -/
theorem heardAt_line (input : List Bytes) (i : Nat) :
    heardAt (line input).2 i = heardAt input (i + 1) := by
  rw [heardAt, (line_heard input).2, List.getElem?_tail, heardAt]

/-- What is heard and what is lost are the input. -/
theorem flatten_heard (input : List Bytes) :
    (heard input).flatMap (fun entry => entry.1 ++ entry.2) = input.flatten := by
  induction input with
  | nil => rfl
  | cons piece rest ih =>
    rw [heard, List.flatten_cons, ← ih]
    rcases firstLine?_cases piece with ⟨front, behind, -, rfl, first⟩ | ⟨-, none⟩
    · rw [first]
      simp
    · rw [none]
      cases heard rest <;> simp

/-- A prompt hears the first line of all that is left. -/
theorem heardAt_zero (input : List Bytes) : heardAt input 0 = lineAt isFeed input.flatten 0 := by
  induction input with
  | nil => rfl
  | cons piece rest ih =>
    rw [heardAt, heard, List.flatten_cons]
    rcases firstLine?_cases piece with ⟨front, behind, inside, rfl, first⟩ | ⟨inside, none⟩
    · rw [first, List.append_assoc, List.cons_append, lineAt,
        linesOf_ended (isFeed_eq_false inside) (by decide)]
      rfl
    · rw [none, (lineAt_unended (isFeed_eq_false inside) _).1, ← ih, heardAt]
      cases heard rest <;> rfl

/-- When no read reaches beyond the end of a line, every prompt hears its line. -/
theorem heardAt_eq_lineAt {input : List Bytes} (within : ∀ piece ∈ input, Within piece) (i : Nat) :
    heardAt input i = lineAt isFeed input.flatten i := by
  induction input generalizing i with
  | nil => rfl
  | cons piece rest ih =>
    have later := ih fun p member => within p (List.mem_cons_of_mem _ member)
    -- a piece ends a line or is part of a longer one; within pieces nothing is lost
    rcases firstLine?_cases piece with ⟨front, behind, inside, rfl, first⟩ | ⟨inside, none⟩
    · obtain rfl := within _ List.mem_cons_self front behind rfl
      rw [heardAt, heard, first, List.flatten_cons, List.append_assoc, lineAt, List.cons_append,
        linesOf_ended (isFeed_eq_false inside) (by decide)]
      cases i with
      | zero => rfl
      | succ i => exact later i
    · obtain ⟨here, behind⟩ := lineAt_unended (isFeed_eq_false inside) rest.flatten
      cases i with
      | zero => exact heardAt_zero _
      | succ i =>
        rw [List.flatten_cons, behind, ← later, heardAt, heard, none, List.getElem?_cons_succ,
          List.getElem?_tail, heardAt]

/-- What is heard and what is lost make up the whole. -/
theorem length_heard (entries : List (Bytes × Bytes)) :
    (entries.flatMap fun entry => entry.1 ++ entry.2).length =
      (entries.map Prod.fst).flatten.length + (entries.map Prod.snd).flatten.length := by
  induction entries with
  | nil => rfl
  | cons entry entries ih =>
    simp only [List.flatMap_cons, List.map_cons, List.flatten_cons, List.length_append, ih]
    omega

/-- When every prompt hears its line, nothing is lost. -/
theorem lost_eq_nil {input : List Bytes}
    (lines : ∀ i, heardAt input i = lineAt isFeed input.flatten i) :
    ∀ entry ∈ heard input, entry.2 = [] := by
  have whole : ((heard input).map Prod.fst).flatten = input.flatten := by
    rw [← flatten_linesOf isFeed input.flatten]
    refine flatten_eq_of_getD fun i => ?_
    rw [← lineAt, ← lines i, heardAt, List.getElem?_map]
    cases (heard input)[i]? <;> rfl
  have all := length_heard (heard input)
  rw [flatten_heard, whole, Nat.left_eq_add, List.length_eq_zero_iff,
    List.flatten_eq_nil_iff] at all
  exact fun entry member => all _ (List.mem_map_of_mem member)

theorem within_of_notMem {piece : Bytes} (inside : lineFeed ∉ piece) : Within piece := by
  rintro front rest rfl
  exact absurd (by simp) inside

theorem within_of_ended (front : Bytes) (inside : lineFeed ∉ front) :
    Within (front ++ [lineFeed]) := by
  intro other rest same
  cases rest.eq_nil_or_concat with
  | inl nothing => exact nothing
  | inr more =>
    -- then the first of two line feeds would stand in front
    obtain ⟨others, last, rfl⟩ := more
    rw [List.concat_eq_append, ← List.cons_append, ← List.append_assoc] at same
    obtain ⟨rfl, -⟩ := List.append_inj' same rfl
    exact absurd (by simp) inside

/-- What is lost is what stands behind the first line of a piece. -/
theorem within_of_lost {input : List Bytes} (nothing : ∀ entry ∈ heard input, entry.2 = []) :
    ∀ piece ∈ input, Within piece := by
  induction input with
  | nil => exact fun piece member => absurd member List.not_mem_nil
  | cons piece rest ih =>
    rw [heard] at nothing
    -- what stands behind the first line of a piece would be lost
    rcases firstLine?_cases piece with ⟨front, behind, inside, rfl, first⟩ | ⟨inside, none⟩
    · rw [first] at nothing
      obtain ⟨lost, later⟩ := List.forall_mem_cons.mp nothing
      obtain rfl : behind = [] := by simpa using lost
      exact List.forall_mem_cons.mpr ⟨within_of_ended _ inside, ih later⟩
    · rw [none] at nothing
      refine List.forall_mem_cons.mpr ⟨within_of_notMem inside, ih ?_⟩
      obtain ⟨lost, later⟩ := List.forall_mem_cons.mp nothing
      cases entries : heard rest with
      | nil => exact fun entry member => absurd member List.not_mem_nil
      | cons entry more =>
        rw [entries] at lost later
        exact List.forall_mem_cons.mpr ⟨lost, later⟩

/-! ## Prompts -/

/-- What a prompt answers when it hears this line. -/
def answerTo (options : InputBoxOptions) (line : Bytes) : Except Fault (Option String) :=
  if line.isEmpty then .ok none
  else
    match ofUtf8? line with
    | none => .error (.io .invalidData "stream did not contain valid UTF-8")
    | some text =>
      .ok (if (withoutEnd text).isEmpty then options.value else some (withoutEnd text))

/-- A prompt is the answer to one line, and takes that line. -/
theorem prompt_eq (t : Terminal) (options : InputBoxOptions) :
    t.prompt options = (answerTo options (line t.input).1, { t with input := (line t.input).2 }) :=
  rfl

/-- Prompts, one after another: what they answer, and what is left. -/
def prompts : Terminal → List InputBoxOptions → List (Except Fault (Option String)) × Terminal
  | t, [] => ([], t)
  | t, options :: others =>
    let (answer, t) := t.prompt options
    let (answers, t) := prompts t others
    (answer :: answers, t)

/-- Prompts in a row are answered by the lines in a row. -/
theorem prompts_eq (t : Terminal) (asked : List InputBoxOptions) :
    (t.prompts asked).1 = asked.mapIdx fun i options => answerTo options (heardAt t.input i) := by
  induction asked generalizing t with
  | nil => rfl
  | cons options others ih =>
    rw [List.mapIdx_cons, ← (line_heard t.input).1]
    refine congrArg (_ :: ·) ((ih _).trans ?_)
    exact List.mapIdx_eq_mapIdx_iff.mpr fun i there => by rw [heardAt_line]

/-- What a prompt answers to a line of text: what stands in the line without its end, or what
the box held when it opened. Where no line is left it is dismissed. -/
def answerToText (options : InputBoxOptions) (line : List Char) : Option String :=
  if line.isEmpty then none
  else if (withoutEnd (String.ofList line)).isEmpty then options.value
  else some (withoutEnd (String.ofList line))

theorem answerTo_text (options : InputBoxOptions) (line : List Char) :
    answerTo options (line.flatMap String.utf8EncodeChar) = .ok (answerToText options line) := by
  have bytes : line.flatMap String.utf8EncodeChar = utf8 (String.ofList line) := by
    rw [utf8_eq_flatMap, String.toList_ofList]
  have empty : (utf8 (String.ofList line)).isEmpty = line.isEmpty := by
    rw [← bytes]
    cases line with
    | nil => rfl
    | cons c line =>
      have some : String.utf8EncodeChar c ≠ [] := utf8EncodeChar_ne_nil c
      simp [some]
  rw [bytes, answerTo, answerToText, empty, ofUtf8?_utf8]
  split
  · rfl
  · rfl

/-- Prompts take as many lines as there are of them. -/
theorem heard_prompts (t : Terminal) (asked : List InputBoxOptions) :
    heard (t.prompts asked).2.input = (heard t.input).drop asked.length := by
  induction asked generalizing t with
  | nil => rfl
  | cons options others ih =>
    rw [List.length_cons, ← List.drop_tail, ← (line_heard t.input).2]
    exact ih _

/-- **Prompts take the input line by line when no read reaches beyond a line**, and only then.
However many prompts there are, and whatever pieces the input comes in:

* the prompts answer from what is heard, entry by entry;
* that and what is lost behind it, with the input that is left, are the whole input;
* a further prompt hears the first line of all that is left;
* every prompt hears its own line just when a line feed stands at most at the end of each
  piece;
* if the input is then a text, every prompt answers from its own line of the text, and those
  behind the last line are dismissed. -/
theorem prompts_answer_lines (t : Terminal) (asked : List InputBoxOptions) :
    (t.prompts asked).1 =
      asked.mapIdx (fun i options => answerTo options (heardAt t.input i)) ∧
    ((heard t.input).take asked.length).flatMap (fun entry => entry.1 ++ entry.2) ++
      (t.prompts asked).2.input.flatten = t.input.flatten ∧
    (∀ options, ((t.prompts asked).2.prompt options).1 =
      answerTo options (lineAt isFeed (t.prompts asked).2.input.flatten 0)) ∧
    ((∀ i, heardAt t.input i = lineAt isFeed t.input.flatten i) ↔
      ∀ piece ∈ t.input, Within piece) ∧
    ∀ text : String, t.input.flatten = utf8 text → (∀ piece ∈ t.input, Within piece) →
      (t.prompts asked).1 = asked.mapIdx fun i options =>
        .ok (answerToText options (lineAt (· = '\n') text.toList i)) := by
  refine ⟨prompts_eq t asked, ?_, fun options => ?_, ?_, fun text whole within => ?_⟩
  · rw [← flatten_heard (t.prompts asked).2.input, heard_prompts, ← List.flatMap_append,
      List.take_append_drop, flatten_heard]
  · rw [prompt_eq, (line_heard _).1, heardAt_zero]
  · exact ⟨fun lines => within_of_lost (lost_eq_nil lines), heardAt_eq_lineAt⟩
  · rw [prompts_eq]
    refine List.mapIdx_eq_mapIdx_iff.mpr fun i there => ?_
    rw [heardAt_eq_lineAt within, whole, utf8_eq_flatMap, lineAt, linesOf_utf8, lineAt,
      List.getElem?_map, ← answerTo_text]
    cases (linesOf (· = '\n') text.toList)[i]? <;> rfl

/-- `prompts_answer_lines` of an input that is typed: an empty line, a line in two pieces, and
then the end of the input. -/
theorem prompts_answer_lines_typed :
    ∃ t : Terminal, t.input = [utf8 "\n", utf8 "new", utf8 "-app\r\n"] ∧
      (t.prompts [{ value := some "app" }, { value := some "app" }, {}]).1 =
        [.ok (some "app"), .ok (some "new-app"), .ok none] := by
  let t : Terminal := { root := "/", input := [utf8 "\n", utf8 "new", utf8 "-app\r\n"] }
  have within : ∀ piece ∈ t.input, Within piece := by
    have one : Within (utf8 "\n") := within_of_ended [] (by decide)
    have two : Within (utf8 "new") := within_of_notMem (by decide +kernel)
    have three : Within (utf8 "-app\r\n") :=
      within_of_ended (utf8 "-app\r") (by decide +kernel)
    exact List.forall_mem_cons.mpr ⟨one, List.forall_mem_cons.mpr ⟨two, List.forall_mem_cons.mpr
      ⟨three, fun piece member => absurd member List.not_mem_nil⟩⟩⟩
  have whole : t.input.flatten = utf8 "\nnew-app\r\n" := by decide +kernel
  obtain ⟨-, -, -, -, answers⟩ :=
    prompts_answer_lines t [{ value := some "app" }, { value := some "app" }, {}]
  exact ⟨t, rfl, (answers _ whole within).trans rfl⟩

/-! ## An input that is there all at once -/

theorem reads_short {bytes : Bytes} (short : bytes.length ≤ readSize) :
    reads bytes = if bytes = [] then [] else [bytes] := by
  rw [reads, cut]
  by_cases nothing : bytes = []
  · simp [nothing]
  · have sized : ¬(readSize = 0 ∨ bytes = []) := by simp [nothing, readSize]
    have spent : readSize = 0 ∨ bytes.drop readSize = [] :=
      Or.inr (List.drop_eq_nil_of_le short)
    rw [dif_neg sized, if_neg nothing, List.take_of_length_le short, cut, dif_pos spent]

/-- Of an input that one read hands over whole, the first prompt hears the first line and the
others hear nothing, however many lines there are. -/
theorem prompts_at_once {bytes : Bytes} (short : bytes.length ≤ readSize) {t : Terminal}
    (piped : t.input = reads bytes) (asked : List InputBoxOptions) :
    (t.prompts asked).1 = asked.mapIdx fun i options =>
      if i = 0 then answerTo options (lineAt isFeed bytes 0) else .ok none := by
  rw [prompts_eq, piped]
  refine List.mapIdx_eq_mapIdx_iff.mpr fun i there => ?_
  have whole : (reads bytes).flatten = bytes := by
    rw [reads_short short]
    split <;> simp_all
  cases i with
  | zero => rw [heardAt_zero, whole, if_pos rfl]
  | succ i =>
    -- there is no second piece
    have nothing : heardAt (reads bytes) (i + 1) = [] := by
      rw [reads_short short, heardAt]
      split
      · rfl
      · rw [heard]
        cases firstLine? bytes <;> rfl
    rw [nothing, if_neg (Nat.succ_ne_zero i)]
    rfl

/-- Two lines are there all at once, and two prompts are to answer from them. The second is
dismissed, though its line was there. -/
theorem second_line_lost :
    ∃ t : Terminal, t.input = reads (utf8 "one\ntwo\n") ∧
      (t.prompts [{}, {}]).1 = [.ok (some "one"), .ok none] ∧
      answerToText {} (lineAt (· = '\n') "one\ntwo\n".toList 1) = some "two" := by
  let t : Terminal := { root := "/", input := reads (utf8 "one\ntwo\n") }
  have short : (utf8 "one\ntwo\n").length ≤ readSize := by decide +kernel
  refine ⟨t, rfl, (prompts_at_once short rfl [{}, {}]).trans ?_, by decide +kernel⟩
  rfl

end Terminal
end EmberClient
