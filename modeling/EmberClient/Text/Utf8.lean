/-!
# Text as bytes

Texts travel as UTF-8. `utf8` writes a text, `ofUtf8?` reads one back and
refuses bytes that are no text:

> `ofUtf8?_utf8`: what is written reads back as the same text.

`ofUtf8Lossy` never refuses: a byte sequence that no text contains becomes one
replacement character per maximal well-formed beginning, so that what follows
it is read from the first byte that can start a character again.
-/

namespace EmberClient.Text

/-- A finite sequence of bytes. -/
abbrev Bytes := List UInt8

/-- The UTF-8 bytes of a text. -/
def utf8 (s : String) : Bytes :=
  s.toUTF8.data.toList

/-- The text that these bytes encode, if they encode one. -/
def ofUtf8? (bytes : Bytes) : Option String :=
  String.fromUTF8? ⟨bytes.toArray⟩

theorem ofUtf8?_utf8 (s : String) : ofUtf8? (utf8 s) = some s := by
  show String.fromUTF8? s.toByteArray = some s
  unfold String.fromUTF8?
  rw [dif_pos s.isValidUTF8]
  rfl

theorem utf8_append (s t : String) : utf8 (s ++ t) = utf8 s ++ utf8 t := by
  simp [utf8]

/-! ## Reading what may not be text -/

/-- The second bytes that a lead byte of a sequence of three or four admits. -/
def secondByte (lead byte : UInt8) : Bool :=
  if lead = 0xE0 then 0xA0 ≤ byte && byte ≤ 0xBF
  else if lead = 0xED then 0x80 ≤ byte && byte ≤ 0x9F
  else if lead = 0xF0 then 0x90 ≤ byte && byte ≤ 0xBF
  else if lead = 0xF4 then 0x80 ≤ byte && byte ≤ 0x8F
  else 0x80 ≤ byte && byte ≤ 0xBF

/-- A byte that continues a sequence. -/
def isContinuation (byte : UInt8) : Bool :=
  0x80 ≤ byte && byte ≤ 0xBF

/-- The six low bits of a continuation byte. -/
def payload (byte : UInt8) : Nat :=
  byte.toNat % 0x40

/-- The character that starts with `lead`, or the replacement character, and how
many of the bytes after `lead` belong to it. -/
def leadingChar (lead : UInt8) (rest : Bytes) : Char × Nat :=
  let replacement := '\uFFFD'
  if lead < 0x80 then (Char.ofNat lead.toNat, 0)
  else if 0xC2 ≤ lead && lead ≤ 0xDF then
    match rest with
    | b :: _ =>
      if isContinuation b then (Char.ofNat ((lead.toNat - 0xC0) * 0x40 + payload b), 1)
      else (replacement, 0)
    | [] => (replacement, 0)
  else if 0xE0 ≤ lead && lead ≤ 0xEF then
    match rest with
    | b :: rest =>
      if secondByte lead b then
        match rest with
        | c :: _ =>
          if isContinuation c then
            (Char.ofNat (((lead.toNat - 0xE0) * 0x40 + payload b) * 0x40 + payload c), 2)
          else (replacement, 1)
        | [] => (replacement, 1)
      else (replacement, 0)
    | [] => (replacement, 0)
  else if 0xF0 ≤ lead && lead ≤ 0xF4 then
    match rest with
    | b :: rest =>
      if secondByte lead b then
        match rest with
        | c :: rest =>
          if isContinuation c then
            match rest with
            | d :: _ =>
              if isContinuation d then
                (Char.ofNat ((((lead.toNat - 0xF0) * 0x40 + payload b) * 0x40 + payload c) * 0x40
                  + payload d), 3)
              else (replacement, 2)
            | [] => (replacement, 2)
          else (replacement, 1)
        | [] => (replacement, 1)
      else (replacement, 0)
    | [] => (replacement, 0)
  else (replacement, 0)

/-- The characters of a byte sequence, malformed parts replaced. -/
def lossyChars : Bytes → List Char
  | [] => []
  | lead :: rest =>
    let (c, used) := leadingChar lead rest
    c :: lossyChars (rest.drop used)
  termination_by bytes => bytes.length
  decreasing_by
    have := List.length_drop (l := rest) (i := used)
    rw [List.length_cons]
    omega

/-- The text of a byte sequence, malformed parts replaced. -/
def ofUtf8Lossy (bytes : Bytes) : String :=
  String.ofList (lossyChars bytes)

end EmberClient.Text
