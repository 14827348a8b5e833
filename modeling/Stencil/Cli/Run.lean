import Stencil.Cli.Commands
import Stencil.Number.Numeral

/-!
# Stencil — the command line

From the words of a command line to the command that they call. The options of
the program itself come first and set up logging; then each group leads on to
one of its commands.
-/

namespace Stencil.Cli

open Stencil.Disk

/-- What the environment says. -/
abbrev Environment := List (String × String)

def levelVariable : String := "CRUDGEN_LOG_LEVEL"
def fileVariable : String := "CRUDGEN_LOG_FILE"
def fileLevelVariable : String := "CRUDGEN_LOG_FILE_LEVEL"

/-- The variables of the environment that are looked at. -/
def variableNames : List String := [levelVariable, fileVariable, fileLevelVariable]

/-- What the environment says about logging. -/
def logSurroundings (env : Environment) : Log.Surroundings where
  level? := env.lookup levelVariable
  file? := env.lookup fileVariable
  fileLevel? := env.lookup fileLevelVariable

/-- What the program says about its version. -/
def versionLine : String :=
  programName ++ ", version " ++ version

/-- The questions that are answered before anything else. -/
def question? (p : Parsed) : Option String :=
  (p.options.find? fun o => o.setting == "help" || o.setting == "version").map (·.setting)

/-- Answers a question about the command, if one is asked. -/
def answer (c : Command) (p : Parsed) : Session Unit :=
  match question? p with
  | none => return
  | some "version" => do
    Session.printLine versionLine
    Session.exit 0
  | some _ => do
    Session.print c.usage
    Session.exit 0

/-- The path that a word writes. A word that cannot be one ends the run. -/
def pathOf (word : String) : Session Path :=
  let path := Path.ofText word
  if path.hasNul then throw (.crash (.disk .nul)) else return path

/-- The configuration file that the options name, if they name one. -/
def configPath? (p : Parsed) : Session (Option Path) :=
  ((p.text? "config").filter (· ≠ "")).mapM pathOf

/-- Takes the words after a command apart. In a group the first argument ends
the options: it is a command with words of its own. An option that names a file
is looked at as soon as all are read. -/
def takeApart (c : Command) (words : List String) : Session Parsed := do
  match parse c.options (!c.isGroup) words with
  | .error fault => Session.misuse c (.grammar fault)
  | .ok p =>
    answer c p
    let _ ← configPath? p
    return p

/-- The command that a word calls. A word that looks like an option is taken
for one before it is refused. -/
def resolve (c : Command) (word : String) (rest : List String) : Session Command := do
  match c.subcommands.lookup word with
  | some sub => return sub
  | none =>
    if word.toList.head? = some '-' then
      let _ ← takeApart c (word :: rest)
    Session.misuse c (.noSuchCommand word)

/-- The number that a word writes. -/
def numberOf? (word : String) : Option Int :=
  match Number.wholeIn 10 (Text.Letter.plain word.toList) with
  | .ok n => some n
  | .error _ => none

/-- The misuse of one option of generation. -/
def optionMisuse? (o : Occurrence) (final : Option String) : Option Misuse :=
  match o.setting, final with
  | "framework", some word =>
    if (Framework.choices.lookup word).isSome then none else some (.notAChoice word)
  | "jobs", some word =>
    match numberOf? word with
    | none => some (.notAJobCount word)
    | some n => if n < 1 then some (.tooFewJobs n) else none
  | _, _ => none

/-- The first option with a value it cannot have, in the order given. -/
def valueMisuse? (p : Parsed) : Option Misuse :=
  p.options.findSome? fun o => optionMisuse? o (p.text? o.setting)

/-- Refuses arguments beyond those that a command takes. -/
def noMore (c : Command) (words : List String) : Session Unit :=
  if words.isEmpty then return else Session.misuse c (.extraArguments words)

/-- The one argument of a command, taken for what it is meant to be before the
command complains about others. -/
def onlyArgument {α : Type} (c : Command) (name : String) (p : Parsed)
    (take : String → Session α) : Session α := do
  match p.arguments with
  | [] => Session.misuse c (.missingArgument name)
  | word :: rest =>
    let value ← take word
    noMore c rest
    return value

/-- What the options say about a module. -/
def choicesOf (p : Parsed) : Choices where
  path? := p.text? "path"
  custom? := p.text? "custom"
  framework? := (p.text? "framework").bind fun word => Framework.choices.lookup word
  append? := p.flag? "append"
  isDryRun := p.isSet "dry-run"

/-- Runs a command. -/
def runCommand (configPath? : Option Path) (c : Command) (words : List String) :
    Session Unit := do
  let p ← takeApart c words
  let isJson := p.isSet "json"
  match c with
  | .configCheck =>
    noMore c p.arguments
    checkConfig configPath? isJson
  | .types =>
    let name ← onlyArgument c "NAME" p pure
    scaffoldTypes configPath? name (choicesOf p) (p.isSet "force") isJson
  | .generate =>
    match valueMisuse? p with
    | some m => Session.misuse c m
    | none =>
      noMore c p.arguments.tail
      let jobs := ((p.text? "jobs").bind numberOf?).getD 1
      generateModules configPath? p.arguments.head? (p.isSet "all") (choicesOf p) jobs isJson
  | .inspect =>
    let file ← onlyArgument c "FILE" p pathOf
    inspectFile file isJson
  | _ => Session.misuse c .missingCommand

/-- Shows how a group is used when it is called without any words. -/
def explain (c : Command) : Session Unit := do
  Session.complain c.usage
  Session.exit 2

/-- The next command and the words after it. -/
def nextCommand (c : Command) (p : Parsed) : Session (Command × List String) := do
  match p.arguments with
  | [] => Session.misuse c .missingCommand
  | word :: rest =>
    let sub ← resolve c word rest
    return (sub, rest)

/-- Runs a group: the words after it call one of its commands. -/
def runGroup (configPath? : Option Path) (c : Command) (words : List String) :
    Session Unit := do
  if words.isEmpty then explain c
  let p ← takeApart c words
  let (sub, rest) ← nextCommand c p
  runCommand configPath? sub rest

/-- Sets where log records go. -/
def startLog (env : Environment) (p : Parsed) : Session Unit :=
  let flags : Log.Flags := ⟨p.isSet "debug", p.isSet "verbose", p.isSet "quiet"⟩
  let around := logSurroundings env
  let setup := Log.Setup.of (Log.levelName flags around) around
  Session.attempt (Work.granted (.step (.setLog setup)))

/-- Runs the program. -/
def runProgram (env : Environment) (words : List String) : Session Unit := do
  if words.isEmpty then explain .root
  let p ← takeApart .root words
  let configPath? ← configPath? p
  let (sub, rest) ← nextCommand .root p
  startLog env p
  runGroup configPath? sub rest

/-- Runs a command line to its end. -/
def run (env : Environment) (words : List String) : Script Ending :=
  (runProgram env words).ending

end Stencil.Cli
