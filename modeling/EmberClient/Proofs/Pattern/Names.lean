import EmberClient.FileSystem.Tree
import EmberClient.Pattern.Glob

/-!
# Patterns that spell names

A pattern of two stars and then plain text, or one of several plain texts, says how
a path has to end. Below a directory a path is the names on the way with slashes
between them. No name holds a slash, so the stars leave the path of some last names,
and the names can be read off it again:

> `isMatch_iff_endIn`: the path matches exactly when its names end in the names
> that one of the texts spells.
-/

namespace EmberClient

open Text

/-! ## Names and their path -/

namespace Path

/-- The path of names that lead down: slashes between them. -/
def ofNames (names : List Bytes) : Bytes :=
  [slash].intercalate names

theorem ofNames_singleton (name : Bytes) : ofNames [name] = name := by
  simp [ofNames]

theorem ofNames_cons_cons (name next : Bytes) (rest : List Bytes) :
    ofNames (name :: next :: rest) = name ++ slash :: ofNames (next :: rest) := by
  simp [ofNames]

theorem ofNames_append_singleton {names : List Bytes} (nonempty : names ≠ []) (name : Bytes) :
    ofNames (names ++ [name]) = ofNames names ++ slash :: name := by
  induction names with
  | nil => contradiction
  | cons first names ih =>
    cases names with
    | nil => simp [ofNames]
    | cons next names =>
      have inner := ih (List.cons_ne_nil next names)
      simp only [List.cons_append] at inner ⊢
      rw [ofNames_cons_cons, inner, ofNames_cons_cons, List.append_assoc, List.cons_append]

/-- Names without slashes are what stands between the slashes of their path. -/
theorem splitOn_ofNames {names : List Bytes} (slashless : ∀ name ∈ names, slash ∉ name)
    (nonempty : names ≠ []) : (ofNames names).splitOn slash = names :=
  List.splitOn_intercalate slash slashless nonempty

/-- Names without slashes can be told from their path. -/
theorem ofNames_inj {names others : List Bytes} (slashless : ∀ name ∈ names, slash ∉ name)
    (slashless' : ∀ name ∈ others, slash ∉ name) (nonempty : names ≠ []) (nonempty' : others ≠ []) :
    ofNames names = ofNames others ↔ names = others := by
  refine ⟨fun same => ?_, fun same => by rw [same]⟩
  rw [← splitOn_ofNames slashless nonempty, same, splitOn_ofNames slashless' nonempty']

end Path

namespace FileName

/-- The path of names below a directory. -/
def path (names : List FileName) : Bytes :=
  Path.ofNames (names.map (·.bytes))

/-- The last names are spelled like this. -/
def EndIn (spelled : List String) (names : List FileName) : Prop :=
  spelled.map utf8 <:+ names.map (·.bytes)

instance (spelled : List String) (names : List FileName) : Decidable (EndIn spelled names) :=
  inferInstanceAs (Decidable (spelled.map utf8 <:+ names.map (·.bytes)))

theorem slashless_of_mem {names : List FileName} {name : Bytes}
    (here : name ∈ names.map (·.bytes)) : Path.slash ∉ name := by
  obtain ⟨named, -, rfl⟩ := List.mem_map.1 here
  exact named.slashless

end FileName

/-! ## What the tokens leave -/

namespace Glob

variable {input left : Bytes} {rest : List Token}

theorem mem_listRests_cons {t : Token} :
    left ∈ Token.listRests input (t :: rest) ↔
      ∃ mid ∈ t.rests input, left ∈ Token.listRests mid rest := by
  simp [Token.listRests, List.mem_eraseDups]

/-- What is left behind two lists of tokens is left by the second behind the first. -/
theorem mem_listRests_append {first : List Token} :
    left ∈ Token.listRests input (first ++ rest) ↔
      ∃ mid ∈ Token.listRests input first, left ∈ Token.listRests mid rest := by
  induction first generalizing input with
  | nil => simp [Token.listRests]
  | cons t first ih =>
    simp only [List.cons_append, mem_listRests_cons, ih]
    constructor
    · rintro ⟨next, here, mid, there, last⟩
      exact ⟨mid, ⟨next, here, there⟩, last⟩
    · rintro ⟨mid, ⟨next, here, there⟩, last⟩
      exact ⟨next, here, mid, there, last⟩

/-- One of the branches leaves it, and no branch is empty. -/
theorem mem_anyRests {branches : List (List Token)} :
    left ∈ Token.anyRests input branches ↔
      ∃ branch ∈ branches, Token.listIsEmpty branch = false ∧ left ∈ Token.listRests input branch := by
  induction branches with
  | nil => simp [Token.anyRests]
  | cons branch branches ih =>
    cases h : Token.listIsEmpty branch <;> simp [Token.anyRests, h, ih]

/-- The tokens of a text without wildcards. -/
def plain (text : String) : List Token :=
  text.toList.map .literal

/-- A literal leaves what stands behind its character. -/
theorem mem_rests_literal {c : Char} :
    left ∈ Token.rests input (.literal c) ↔ input = utf8 (String.singleton c) ++ left := by
  simp only [Token.rests]
  split
  next front =>
    obtain ⟨tail, rfl⟩ := List.isPrefixOf_iff_prefix.1 front
    simp [eq_comm]
  next notFront =>
    refine iff_of_false (by simp) fun same => notFront ?_
    exact List.isPrefixOf_iff_prefix.2 ⟨left, same.symm⟩

/-- A text matches its own bytes and nothing else. -/
theorem mem_listRests_plain (text : String) :
    left ∈ Token.listRests input (plain text) ↔ input = utf8 text ++ left := by
  obtain ⟨cs, rfl⟩ : ∃ cs, text = String.ofList cs := ⟨text.toList, by simp⟩
  simp only [plain, String.toList_ofList]
  -- along the text, one literal after the other
  induction cs generalizing input with
  | nil => simp [Token.listRests, utf8, eq_comm]
  | cons c cs ih =>
    simp only [List.map_cons, mem_listRests_cons, mem_rests_literal, ih, String.ofList_cons,
      utf8_append, List.append_assoc]
    constructor
    · rintro ⟨mid, rfl, rfl⟩
      rfl
    · rintro rfl
      exact ⟨_, rfl, rfl⟩

/-- A group of texts matches the bytes of each of them. -/
theorem mem_rests_texts {texts : List String} (nonempty : texts ≠ [])
    (speaks : ∀ text ∈ texts, text ≠ "") :
    left ∈ Token.rests input (.alternatives (texts.map plain)) ↔
      ∃ text ∈ texts, input = utf8 text ++ left := by
  have notEmpty : ∀ text ∈ texts, Token.listIsEmpty (plain text) = false := by
    intro text here
    cases h : text.toList with
    | nil => exact absurd (String.toList_eq_nil_iff.1 h) (speaks text here)
    | cons c cs => simp [plain, h, Token.listIsEmpty, Token.isEmpty]
  have notAllEmpty : Token.allEmpty (texts.map plain) = false := by
    cases texts with
    | nil => contradiction
    | cons text texts => simp [Token.allEmpty, notEmpty text (by simp)]
  simp only [Token.rests, notAllEmpty, Bool.false_eq_true, if_false, mem_anyRests]
  constructor
  · rintro ⟨branch, here, -, there⟩
    obtain ⟨text, mine, rfl⟩ := List.mem_map.1 here
    exact ⟨text, mine, (mem_listRests_plain text).1 there⟩
  · rintro ⟨text, mine, there⟩
    exact ⟨plain text, List.mem_map_of_mem mine, notEmpty text mine, (mem_listRests_plain text).2 there⟩

/-! ## What the stars leave -/

/-- Without a slash nothing stands behind one. -/
theorem afterSlashes_of_notMem (slashless : Path.slash ∉ input) : afterSlashes input = [] := by
  induction input with
  | nil => rfl
  | cons b input ih =>
    rw [List.mem_cons, not_or] at slashless
    obtain ⟨other, slashless⟩ := slashless
    rw [afterSlashes, if_neg (Ne.symm other), ih slashless]

/-- Behind the first slash everything stands that can be left there. -/
theorem afterSlashes_append_slash (slashless : Path.slash ∉ input) :
    afterSlashes (input ++ Path.slash :: left) = left :: afterSlashes left := by
  induction input with
  | nil => simp [afterSlashes]
  | cons b input ih =>
    rw [List.mem_cons, not_or] at slashless
    obtain ⟨other, slashless⟩ := slashless
    rw [List.cons_append, afterSlashes, if_neg (Ne.symm other), ih slashless]

/-- Two stars at the front leave the paths of the last names. -/
theorem mem_rests_leadingDirs {names : List Bytes} (slashless : ∀ name ∈ names, Path.slash ∉ name)
    (nonempty : names ≠ []) :
    left ∈ Token.rests (Path.ofNames names) .leadingDirs ↔
      ∃ last, last ≠ [] ∧ last <:+ names ∧ left = Path.ofNames last := by
  -- along the names: what may be left is all of them, or what may be left behind the first
  induction names with
  | nil => contradiction
  | cons name names ih =>
    have mine := slashless name (by simp)
    cases names with
    | nil =>
      rw [Path.ofNames_singleton, Token.rests, afterSlashes_of_notMem mine, List.mem_singleton]
      constructor
      · rintro rfl
        exact ⟨[left], by simp, List.suffix_rfl, (Path.ofNames_singleton left).symm⟩
      · rintro ⟨last, long, suffix, rfl⟩
        rcases List.suffix_cons_iff.1 suffix with rfl | suffix
        · exact Path.ofNames_singleton name
        · exact absurd (List.suffix_nil.1 suffix) long
    | cons next names =>
      have below := ih (fun name here => slashless name (List.mem_cons_of_mem _ here)) (by simp)
      rw [Path.ofNames_cons_cons, Token.rests, afterSlashes_append_slash mine, List.mem_cons,
        ← Path.ofNames_cons_cons]
      rw [Token.rests] at below
      rw [below]
      constructor
      · rintro (rfl | ⟨last, long, suffix, rfl⟩)
        · exact ⟨name :: next :: names, by simp, List.suffix_rfl, rfl⟩
        · exact ⟨last, long, List.suffix_cons_iff.2 (.inr suffix), rfl⟩
      · rintro ⟨last, long, suffix, rfl⟩
        rcases List.suffix_cons_iff.1 suffix with rfl | suffix
        · exact .inl rfl
        · exact .inr ⟨last, long, suffix, rfl⟩

/-- The tokens match the paths of some lists of names and nothing else. -/
structure Spells (tokens : List Token) (endings : List (List String)) : Prop where
  more : tokens ≠ []
  paths : ∀ path, [] ∈ Token.listRests path tokens ↔
    ∃ ending ∈ endings, path = Path.ofNames (ending.map utf8)
  named : ∀ ending ∈ endings, ending ≠ [] ∧ ∀ name ∈ ending, Path.slash ∉ utf8 name

/-- A text, a group of texts and a text again spell what the whole texts spell. -/
theorem spells_group {before after : String} {texts : List String} {endings : List (List String)}
    (nonempty : texts ≠ []) (speaks : ∀ text ∈ texts, text ≠ "")
    (same : texts.map (fun text => utf8 before ++ utf8 text ++ utf8 after) =
      endings.map fun ending => Path.ofNames (ending.map utf8))
    (named : ∀ ending ∈ endings, ending ≠ [] ∧ ∀ name ∈ ending, Path.slash ∉ utf8 name) :
    Spells (plain before ++ .alternatives (texts.map plain) :: plain after) endings where
  more := by simp
  named := named
  paths path := by
    have whole : [] ∈ Token.listRests path
        (plain before ++ .alternatives (texts.map plain) :: plain after) ↔
          path ∈ texts.map fun text => utf8 before ++ utf8 text ++ utf8 after := by
      simp only [mem_listRests_append, mem_listRests_plain, mem_listRests_cons,
        mem_rests_texts nonempty speaks, List.mem_map]
      constructor
      · rintro ⟨_, rfl, _, ⟨text, mine, rfl⟩, rfl⟩
        exact ⟨text, mine, by simp⟩
      · rintro ⟨text, mine, rfl⟩
        exact ⟨_, List.append_assoc .., _, ⟨text, mine, rfl⟩, by simp⟩
    rw [whole, same]
    simp only [List.mem_map, eq_comm]

/-- A pattern of two stars and then tokens that spell names says which names a path
has to end in. -/
theorem isMatch_iff_endIn {tokens : List Token} {endings : List (List String)}
    (spells : Spells tokens endings) {names : List FileName} (nonempty : names ≠ []) :
    isMatch (.leadingDirs :: tokens) (FileName.path names) ↔
      ∃ ending ∈ endings, FileName.EndIn ending names := by
  have slashless : ∀ name ∈ names.map (·.bytes), Path.slash ∉ name :=
    fun _ here => FileName.slashless_of_mem here
  have nonempty' : names.map (·.bytes) ≠ [] := by simpa using nonempty
  have byRests : isMatch (.leadingDirs :: tokens) (FileName.path names) ↔
      [] ∈ Token.listRests (FileName.path names) (.leadingDirs :: tokens) := by
    -- two stars alone match everything, so there must be more
    obtain ⟨t, tokens, rfl⟩ := List.exists_cons_of_ne_nil spells.more
    simp [isMatch]
  rw [byRests, mem_listRests_cons]
  constructor
  · rintro ⟨mid, here, there⟩
    obtain ⟨last, long, suffix, rfl⟩ := (mem_rests_leadingDirs slashless nonempty').1 here
    obtain ⟨ending, mine, same⟩ := (spells.paths _).1 there
    obtain ⟨spelledLong, plain⟩ := spells.named ending mine
    have slashless' : ∀ name ∈ last, Path.slash ∉ name :=
      fun name here => slashless name (suffix.subset here)
    rw [Path.ofNames_inj slashless' (by simpa using plain) long (by simpa using spelledLong)] at same
    subst same
    exact ⟨ending, mine, suffix⟩
  · rintro ⟨ending, mine, suffix⟩
    refine ⟨_, (mem_rests_leadingDirs slashless nonempty').2 ⟨_, ?_, suffix, rfl⟩, ?_⟩
    · simpa using (spells.named ending mine).1
    · exact (spells.paths _).2 ⟨ending, mine, rfl⟩

end Glob

end EmberClient
