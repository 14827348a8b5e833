/-!
# Stencil — the grammar of command lines

Options and arguments of one command. An option is a word that begins with a
hyphen; letters after a single hyphen are options of one letter each. The
value of an option is the rest of its word or the next word. The word `--`
ends the options. Where options may not follow arguments, the first argument
ends them too.
-/

namespace Stencil.Cli

/-- A spelling of an option and what it does. -/
structure Spelling where
  /-- All spellings that do the same. -/
  words : List String
  /-- The setting that it changes. -/
  setting : String
  /-- What it sets a flag to; without it the option takes a value. -/
  flag? : Option Bool
  deriving DecidableEq, Repr

/-- What an option on a command line sets. -/
inductive Value where
  | flag (value : Bool)
  | text (value : String)
  deriving DecidableEq, Repr

/-- An option on a command line. -/
structure Occurrence where
  setting : String
  value : Value
  deriving DecidableEq, Repr

/-- What is wrong with a command line. -/
inductive Fault where
  | noSuchOption (word : String)
  | needsValue (word : String)
  | takesNoValue (word : String)
  deriving DecidableEq, Repr

/-- A command line taken apart: its options in order, and its arguments. -/
structure Parsed where
  options : List Occurrence
  arguments : List String
  deriving DecidableEq, Repr

namespace Parsed

/-- Nothing. -/
def empty : Parsed :=
  ⟨[], []⟩

/-- With an argument in front. -/
def addArgument (word : String) (p : Parsed) : Parsed :=
  { p with arguments := word :: p.arguments }

/-- The value of a setting: the last one given. -/
def value? (p : Parsed) (setting : String) : Option Value :=
  (p.options.reverse.find? (·.setting == setting)).map (·.value)

/-- The text of a setting. -/
def text? (p : Parsed) (setting : String) : Option String :=
  match p.value? setting with
  | some (.text value) => some value
  | _ => none

/-- The flag of a setting, if it is given. -/
def flag? (p : Parsed) (setting : String) : Option Bool :=
  match p.value? setting with
  | some (.flag value) => some value
  | _ => none

/-- Whether a flag is set. -/
def isSet (p : Parsed) (setting : String) : Bool :=
  (p.flag? setting).getD false

end Parsed

/-- The spelling that a word is. -/
def spelled? (spellings : List Spelling) (word : String) : Option Spelling :=
  spellings.find? (·.words.contains word)

/-- Whether a word is an option with a name of its own, which may have a value
attached. -/
def isLong (word : List Char) : Bool :=
  ['-', '-'].isPrefixOf word

/-- A word cut at its first equals sign. -/
def splitValue (word : List Char) : String × Option String :=
  match word.dropWhile (· ≠ '=') with
  | [] => (String.ofList word, none)
  | _ :: value => (String.ofList (word.takeWhile (· ≠ '=')), some (String.ofList value))

/-- What the letters of one word set. The value of an option with a value is
what is left of the word, or else the next word. -/
def readLetters (spellings : List Spelling) (nextWord? : Option String) :
    List Char → Except Fault (List Occurrence × Bool)
  | [] => .ok ([], false)
  | c :: rest =>
    let word := String.ofList ['-', c]
    match spelled? spellings word with
    | none => .error (.noSuchOption word)
    | some s =>
      match s.flag? with
      | some value =>
        (readLetters spellings nextWord? rest).map fun (more, tookNext) =>
          (⟨s.setting, .flag value⟩ :: more, tookNext)
      | none =>
        match rest, nextWord? with
        | d :: ds, _ => .ok ([⟨s.setting, .text (String.ofList (d :: ds))⟩], false)
        | [], some value => .ok ([⟨s.setting, .text value⟩], true)
        | [], none => .error (.needsValue word)

/-- What a word with hyphens sets, and whether it takes the next word as its
value. -/
def readOption (spellings : List Spelling) (word : String) (nextWord? : Option String) :
    Except Fault (List Occurrence × Bool) :=
  let (name, attached?) := splitValue word.toList
  match (spelled? spellings name).filter fun _ => isLong name.toList with
  | none =>
    if isLong word.toList then .error (.noSuchOption name)
    else readLetters spellings nextWord? (word.toList.drop 1)
  | some s =>
    match s.flag?, attached?, nextWord? with
    | some value, none, _ => .ok ([⟨s.setting, .flag value⟩], false)
    | some _, some _, _ => .error (.takesNoValue name)
    | none, some value, _ => .ok ([⟨s.setting, .text value⟩], false)
    | none, none, some value => .ok ([⟨s.setting, .text value⟩], true)
    | none, none, none => .error (.needsValue name)

/-- Whether a word is an option. -/
def isOption (word : String) : Bool :=
  word.toList.head? = some '-' && 1 < word.length

/-- Takes a command line apart. `isMixed` says whether options may follow
arguments. -/
def parse (spellings : List Spelling) (isMixed : Bool) : List String → Except Fault Parsed
  | [] => .ok .empty
  | word :: rest =>
    if word = "--" then .ok ⟨[], rest⟩
    else if isOption word then
      match readOption spellings word rest.head? with
      | .error fault => .error fault
      | .ok (options, tookNext) =>
        (parse spellings isMixed (if tookNext then rest.tail else rest)).map fun p =>
          { p with options := options ++ p.options }
    else if isMixed then (parse spellings isMixed rest).map (Parsed.addArgument word)
    else .ok ⟨[], word :: rest⟩
termination_by words => words.length
decreasing_by
  · simp only [List.length_cons]
    split
    · simp only [List.length_tail]
      omega
    · omega
  · simp

end Stencil.Cli
