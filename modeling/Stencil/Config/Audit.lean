import Stencil.Config.Load
import Stencil.Config.Requests
import Stencil.Text.Json

/-!
# Stencil — checking settings

What is wrong with a project's settings and what only looks wrong. Two modules
whose directories are the same are an error: each would overwrite the files of
the other. A module whose directory is missing is a warning.
-/

namespace Stencil.Config

open Stencil.Disk

/-- Two modules in one directory. -/
structure Collision where
  earlier : String
  later : String
  directory : Path
  deriving DecidableEq, Repr

/-- What is wrong with settings. -/
inductive Problem where
  | notFound
  | unloadable (cause : ConfigFault)
  | collision (c : Collision)
  deriving DecidableEq, Repr

/-- What looks wrong with settings. -/
inductive Warning where
  | noModules
  /-- The directory of a module, as written, is missing. -/
  | noDirectory (name directory : String)
  deriving DecidableEq, Repr

def Problem.message : Problem → String
  | .notFound => "No " ++ configFileName ++ " found."
  | .unloadable cause => cause.message
  | .collision c =>
    "Modules '" ++ c.earlier ++ "' and '" ++ c.later ++ "' resolve to the same path: " ++
      c.directory.text

def Warning.message : Warning → String
  | .noModules => "No modules defined. There is nothing to generate."
  | .noDirectory name directory =>
    "Module '" ++ name ++ "' path does not exist: " ++ directory

/-- The result of a check. -/
structure Audit where
  path? : Option Path
  settings? : Option Settings
  problems : List Problem
  warnings : List Warning
  deriving DecidableEq, Repr

/-- Whether nothing is wrong. -/
def Audit.isValid (a : Audit) : Bool :=
  a.problems.isEmpty && a.settings?.isSome

/-- The collision of a module with the nearest earlier one in its directory.
`seen` holds the earlier modules, the latest first. -/
def collision? (seen : List (Path × String)) (directory : Path) (name : String) :
    Option Collision :=
  (seen.lookup directory).map fun earlier => ⟨earlier, name, directory⟩

/-- What the directories of the modules give rise to; `seen` holds the
directories and names of the modules before, the latest first. -/
def auditModules (s : Settings) (root : Path) (seen : List (Path × String)) :
    List ModuleEntry → Work (List Problem × List Warning)
  | [] => return ([], [])
  | e :: rest => do
    let directory ← s.resolvedDirectory root e
    let isThere ← Work.isDirectory? directory
    let (problems, warnings) ← auditModules s root ((directory, e.name) :: seen) rest
    let problem := ((collision? seen directory e.name).map Problem.collision).toList
    let warning := if isThere then [] else [Warning.noDirectory e.name (s.directoryText e)]
    return (problem ++ problems, warning ++ warnings)

/-- Checks settings that could be loaded. -/
def auditSettings (path : Path) (s : Settings) : Work Audit := do
  let root ← projectRoot path
  let (problems, warnings) ← auditModules s root [] s.modules
  let empty := if s.modules.isEmpty then [Warning.noModules] else []
  return ⟨some path, some s, problems, empty ++ warnings⟩

/-- Checks the settings of a file. -/
def auditFile (path : Path) : Work Audit := do
  match ← Work.outcome (loadFrom path) with
  | .ok s => auditSettings path s
  | .error (.config cause) => return ⟨some path, none, [.unloadable cause], []⟩
  | .error failure => throw failure

/-- Checks the settings of a file, or of the nearest one. -/
def audit (path? : Option Path) : Work Audit := do
  let found? ←
    match path? with
    | some path => pure (some path)
    | none => find? none
  match found? with
  | none => return ⟨none, none, [.notFound], []⟩
  | some path => auditFile path

def Audit.json (a : Audit) : Json :=
  .object
    [("valid", .bool a.isValid),
      ("config_path", Json.optionalText (a.path?.map Path.text)),
      ("errors", .list (a.problems.map fun p => .text p.message)),
      ("warnings", .list (a.warnings.map fun w => .text w.message)),
      ("framework", Json.optionalText (a.settings?.map fun s => s.framework.name)),
      ("module_count", .int (a.settings?.elim 0 fun s => s.modules.length))]

end Stencil.Config
