/-!
# Words of a command line

A command line is a list of words. A word that begins with a dash names options:
two dashes and a name, or one dash and letters. Options may stand anywhere between
the operands; after a word of two dashes alone every word is an operand.

`Level.scan` reads the words of one level up to the name of a subcommand, whose own
level begins after it. Every option may be given once on a level.
-/

namespace EmberClient.CommandLine

/-- Why words are not carried out. -/
inductive Stop where
  /-- They are not understood. -/
  | misuse
  /-- Help on a subcommand is asked for, or on all of it. -/
  | help (subcommand : Option String)
  | version
  deriving DecidableEq

/-- What an option does. -/
inductive FlagKind where
  /-- It is on when it is given. -/
  | switch
  /-- It has a value. -/
  | value (mayBeEmpty : Bool)
  /-- Something else is asked for. -/
  | stop (reason : Stop)

/-- An option. -/
structure Flag where
  name : String
  letter : Option Char := none
  kind : FlagKind
  about : String

def Flag.takesValue (f : Flag) : Bool :=
  match f.kind with
  | .value _ => true
  | _ => false

/-! ## Single words -/

inductive Word where
  /-- Two dashes: no options follow. -/
  | endOfOptions
  /-- An option by its name, and the value after an equals sign. -/
  | long (name : String) (value : Option String)
  /-- Options by their letters. -/
  | letters (letters : List Char)
  | plain (text : String)
  deriving DecidableEq

/-- What a word is; a dash alone is plain. -/
def Word.ofText (text : String) : Word :=
  match text.toList with
  | ['-', '-'] => .endOfOptions
  | '-' :: '-' :: rest =>
    let value :=
      match rest.dropWhile (· ≠ '=') with
      | [] => none
      | _ :: v => some (String.ofList v)
    .long (String.ofList (rest.takeWhile (· ≠ '='))) value
  | '-' :: c :: rest => .letters (c :: rest)
  | _ => .plain text

/-! ## What has been given -/

/-- The options and operands of a level. -/
structure Given where
  flags : List (String × Option String) := []
  operands : List String := []

namespace Given

def has (g : Given) (name : String) : Bool := g.flags.any fun f => f.1 = name

/-- The value of an option. -/
def value? (g : Given) (name : String) : Option String :=
  (g.flags.find? fun f => f.1 = name).bind (·.2)

/-- Notes an option, unless it has been given before. -/
def add (g : Given) (f : Flag) (value : Option String) : Except Stop Given :=
  if g.has f.name then .error .misuse else .ok { g with flags := g.flags ++ [(f.name, value)] }

/-- Takes an option with the value that stands by it. -/
def take (g : Given) (f : Flag) (value : Option String) : Except Stop Given :=
  match f.kind, value with
  | .stop reason, none => .error reason
  | .switch, none => g.add f none
  | .value mayBeEmpty, some v => if v.isEmpty && !mayBeEmpty then .error .misuse else g.add f value
  | _, _ => .error .misuse

end Given

/-! ## Levels -/

/-- What words of one level may be. -/
structure Level where
  flags : List Flag
  /-- The names that end the level. -/
  subcommands : List String := []
  /-- The number of operands there is room for; any number if none is said. -/
  room : Option Nat := some 0

namespace Level

/-- Takes an operand, if there is room for it. -/
def takeOperand (level : Level) (g : Given) (text : String) : Except Stop Given :=
  match level.room with
  | some room =>
    if g.operands.length < room then .ok { g with operands := g.operands ++ [text] }
    else .error .misuse
  | none => .ok { g with operands := g.operands ++ [text] }

/-- Takes options by their letters. The rest of the word is the value of the first
that has one; if nothing is left, the value is the next word. -/
def takeLetters (level : Level) (g : Given) : List Char → Except Stop (Given × Option Flag)
  | [] => .ok (g, none)
  | c :: rest =>
    match level.flags.find? fun f => f.letter = some c with
    | none => .error .misuse
    | some f =>
      if f.takesValue then
        match rest with
        | [] => .ok (g, some f)
        | '=' :: v => (g.take f (some (String.ofList v))).map fun g => (g, none)
        | v => (g.take f (some (String.ofList v))).map fun g => (g, none)
      else (g.take f none).bind fun g => level.takeLetters g rest

/-- Takes the words of a level; `awaited` is the option whose value is next. What is
left begins with the name of a subcommand. -/
def takeWords (level : Level) (g : Given) (awaited : Option Flag) :
    List String → Except Stop (Given × List String)
  | [] => if awaited.isSome then .error .misuse else .ok (g, [])
  | w :: rest =>
    match awaited, Word.ofText w with
    | some f, .plain text => (g.take f (some text)).bind fun g => level.takeWords g none rest
    | some _, _ => .error .misuse
    | none, .plain text =>
      if level.subcommands.contains text then .ok (g, w :: rest)
      else (level.takeOperand g text).bind fun g => level.takeWords g none rest
    | none, .endOfOptions => (rest.foldlM level.takeOperand g).map fun g => (g, [])
    | none, .long name value =>
      match level.flags.find? fun f => f.name = name with
      | none => .error .misuse
      | some f =>
        if f.takesValue && value.isNone then level.takeWords g (some f) rest
        else (g.take f value).bind fun g => level.takeWords g none rest
    | none, .letters letters =>
      (level.takeLetters g letters).bind fun (g, awaited) => level.takeWords g awaited rest

/-- Reads the words of a level. -/
def scan (level : Level) (words : List String) : Except Stop (Given × List String) :=
  level.takeWords {} none words

end Level

end EmberClient.CommandLine
