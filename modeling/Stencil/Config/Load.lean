import Stencil.Config.Settings
import Stencil.Work
import Stencil.Yaml.Value

/-!
# Stencil — finding and loading settings

The settings of a project stand in a file of a fixed name in the project's
root. It is looked for in a directory and the directories around it, nearest
first, and only so far up.
-/

namespace Stencil.Config

open Stencil.Disk

/-- How many directories are searched. -/
def searchDepth : Nat := 20

/-- The configuration file in a directory or the nearest one around it, looking
at no more than `depth` directories. -/
def searchUp : (depth : Nat) → Path → Work (Option Path)
  | 0, _ => return none
  | depth + 1, directory => do
    let candidate := directory.child configFileName
    if ← Work.isFile? candidate then return some candidate
    else if directory.parent = directory then return none
    else searchUp depth directory.parent

/-- The nearest configuration file, seen from a directory or from the working
directory. -/
def find? (start? : Option Path) : Work (Option Path) := do
  let start ←
    match start? with
    | some path => pure path
    | none => Work.workingDirectory
  searchUp searchDepth (← Work.resolve start)

/-- Reads the text of a configuration file; that the disk refuses is a fault of
the configuration. -/
def readSource (path : Path) : Work String := do
  match ← Work.outcome (Work.readText path) with
  | .ok text => return text
  | .error (.disk fault) =>
    if fault.isRefusal then throw (.config (.unreadable path.text fault))
    else throw (.disk fault)
  | .error failure => throw failure

/-- How deep the data of a configuration are looked into. The innermost part of
settings is the list of names in the kind of module of an entry in the list of
modules; of what lies deeper only the kind matters. -/
def dataDepth : Nat := 5

/-- The data that a configuration text holds. -/
def parse (path : Path) (text : String) : Except Failure Data :=
  match Yaml.load dataDepth text with
  | .ok d => .ok d
  | .error .malformed => .error (.config (.malformed path.text))
  | .error (.value fault) => .error (.yamlValue fault)

/-- The settings that data hold; no data hold the usual settings. -/
def settingsOf (path : Path) (d : Data) : Except Failure Settings :=
  let checked (d : Data) : Except Failure Settings :=
    (Settings.ofData d).mapError fun report => .config (.invalid report)
  match d with
  | .null => checked (.record [])
  | .record entries => checked (.record entries)
  | other => .error (.config (.notARecord path.text other.kindName))

/-- Loads the settings of a file. -/
def loadFrom (path : Path) : Work Settings := do
  if ← Work.isFile? path then
    Work.log .debug .configuration ("Loading crudgen config from " ++ path.text)
    let text ← readSource path
    let d ← Work.ofExcept id (parse path text)
    let settings ← Work.ofExcept id (settingsOf path d)
    Work.log .info .configuration
      ("Loaded crudgen config with " ++ toString settings.modules.length ++ " module(s)")
    return settings
  else throw (.config (.noFile path.text))

/-- Loads the settings of a file, or of the nearest one. -/
def load (path? : Option Path) : Work Settings := do
  let found? ←
    match path? with
    | some path => pure (some path)
    | none => find? none
  match found? with
  | none => throw (.config .notFound)
  | some path => loadFrom path

/-- The root of the project whose configuration file this is. -/
def projectRoot (path : Path) : Work Path :=
  Work.resolve path.parent

end Stencil.Config
