import Stencil.Config.Settings
import Stencil.Work

/-!
# Stencil — requests for configured modules

Turning configured modules into requests. Overrides count more than what the
settings say.
-/

namespace Stencil

namespace Settings

/-- The directory of a module, without links. -/
def resolvedDirectory (s : Settings) (root : Disk.Path) (e : ModuleEntry) :
    Work Disk.Path :=
  Work.resolve (s.directory root e)

/-- The request for a configured module. -/
def request (s : Settings) (root : Disk.Path) (overrides : List (Data × Data))
    (e : ModuleEntry) : Work Request := do
  let path ← s.resolvedDirectory root e
  Work.ofExcept .invalid (Request.ofName e.name (s.defaults path e.apiType) overrides)

/-- The entries of the named modules; of all modules if none are named. -/
def select (s : Settings) (names? : Option (List String)) :
    Except Failure (List ModuleEntry) :=
  match names? with
  | none => .ok s.modules
  | some names =>
    names.mapM fun name =>
      match s.find? name with
      | some e => .ok e
      | none => .error (.unknownModule name)

/-- The requests for the named modules; for all modules if none are named. -/
def requests (s : Settings) (root : Disk.Path) (names? : Option (List String))
    (overrides : List (Data × Data)) : Work (List Request) := do
  let entries ← Work.ofExcept id (s.select names?)
  entries.mapM (s.request root overrides)

end Settings

end Stencil
