import Stencil.Cli.Grammar
import Stencil.Text.Quoted

/-!
# Stencil — commands and how they are used

The commands with their options, and what is said to someone who uses one
wrongly: the line of usage of the command, where it is known, and the error.
-/

namespace Stencil.Cli

/-- The name of the program. -/
def programName : String := "crudgen"

/-- The version of the program. -/
def version : String := "0.1.0"

/-- Something that can be called: the program, a group, or a command. -/
inductive Command where
  | root
  | config
  | configCheck
  | module
  | types
  | generate
  | inspect
  deriving DecidableEq, Repr

namespace Command

/-- The words that call it. -/
def words : Command → String
  | root => programName
  | config => programName ++ " config"
  | configCheck => programName ++ " config check"
  | module => programName ++ " module"
  | types => programName ++ " module types"
  | generate => programName ++ " module generate"
  | inspect => programName ++ " module inspect"

/-- Whether it only leads to other commands. -/
def isGroup : Command → Bool
  | root => true
  | config => true
  | module => true
  | _ => false

/-- What may follow the words. -/
def pattern : Command → String
  | configCheck => "[OPTIONS]"
  | types => "[OPTIONS] NAME"
  | generate => "[OPTIONS] [NAME]"
  | inspect => "[OPTIONS] FILE"
  | _ => "[OPTIONS] COMMAND [ARGS]..."

/-- The commands that a group leads to. -/
def subcommands : Command → List (String × Command)
  | root => [("config", config), ("module", module)]
  | config => [("check", configCheck)]
  | module => [("types", types), ("generate", generate), ("inspect", inspect)]
  | _ => []

/-- A flag that is off unless given. -/
def flag (words : List String) (setting : String) : Spelling :=
  ⟨words, setting, some true⟩

/-- An option with a value. -/
def valued (words : List String) (setting : String) : Spelling :=
  ⟨words, setting, none⟩

/-- What every command can be asked for. -/
def helpFlag : Spelling :=
  flag ["--help"] "help"

/-- The option for results as JSON. -/
def jsonFlag : Spelling :=
  flag ["--json-output", "--json"] "json"

/-- The option for doing nothing. -/
def dryRunFlag : Spelling :=
  flag ["--dry-run"] "dry-run"

/-- The options of a command. -/
def options : Command → List Spelling
  | root =>
    [flag ["--version"] "version", flag ["--verbose", "-v"] "verbose",
      flag ["--quiet", "-q"] "quiet", flag ["--debug"] "debug",
      valued ["--config", "-c"] "config", helpFlag]
  | configCheck => [jsonFlag, helpFlag]
  | types =>
    [valued ["--path"] "path", valued ["--custom"] "custom", flag ["--force"] "force",
      dryRunFlag, jsonFlag, helpFlag]
  | generate =>
    [flag ["--all"] "all", valued ["--path"] "path", valued ["--custom"] "custom",
      valued ["--framework"] "framework", flag ["--append"] "append",
      ⟨["--no-append"], "append", some false⟩, dryRunFlag, valued ["--jobs", "-j"] "jobs",
      jsonFlag, helpFlag]
  | inspect => [jsonFlag, helpFlag]
  | _ => [helpFlag]

/-- The line of usage. -/
def usage (c : Command) : String :=
  "Usage: " ++ c.words ++ " " ++ c.pattern ++ "\n"

end Command

/-- How a command is used wrongly. -/
inductive Misuse where
  | grammar (fault : Fault)
  | missingCommand
  | noSuchCommand (word : String)
  | missingArgument (name : String)
  | extraArguments (words : List String)
  | notAChoice (word : String)
  | notAJobCount (word : String)
  | tooFewJobs (given : Int)
  | nameOrAll
  | singleOnly
  | allNeedsConfig
  deriving DecidableEq, Repr

def Fault.message : Fault → String
  | .noSuchOption word => "No such option " ++ Text.quoted word ++ "."
  | .needsValue word => "Option " ++ Text.quoted word ++ " requires an argument."
  | .takesNoValue word => "Option " ++ Text.quoted word ++ " does not take a value."

def Misuse.message : Misuse → String
  | .grammar fault => fault.message
  | .missingCommand => "Missing command."
  | .noSuchCommand word => "No such command " ++ Text.quoted word ++ "."
  | .missingArgument name => "Missing argument '" ++ name ++ "'."
  | .extraArguments words =>
    "Got unexpected extra argument" ++ (if words.length = 1 then "" else "s") ++ " (" ++
      " ".intercalate words ++ ")"
  | .notAChoice word =>
    "Invalid value for '--framework': " ++ Text.quoted word ++
      " is not one of 'express', 'hono'."
  | .notAJobCount word =>
    "Invalid value for '--jobs' / '-j': " ++ Text.quoted word ++
      " is not a valid integer range."
  | .tooFewJobs given =>
    "Invalid value for '--jobs' / '-j': " ++ toString given ++ " is not in the range x>=1."
  | .nameOrAll => "Give a module NAME or --all (not both)."
  | .singleOnly => "--path and --custom apply to a single module, not --all."
  | .allNeedsConfig => "--all needs a " ++ programName ++ ".yml (none found)."

/-- Whether the command is named when this goes wrong. A value that is missing
or too much is noticed before the command is known. -/
def Misuse.namesCommand : Misuse → Bool
  | .grammar (.needsValue _) => false
  | .grammar (.takesNoValue _) => false
  | _ => true

/-- What is said about the misuse of a command. -/
def Misuse.report (c : Command) (m : Misuse) : String :=
  let usage :=
    if m.namesCommand then
      c.usage ++ "Try '" ++ c.words ++ " --help' for help.\n\n"
    else ""
  usage ++ "Error: " ++ m.message ++ "\n"

end Stencil.Cli
