import Stencil.Disk.Path
import Stencil.Naming.ModuleName

/-!
# Stencil — where the files of a module are

Every file of a module has a role. The files of one operation lie in a
directory for each role and share their name; the routes lie in the module's
directory itself.
-/

namespace Stencil.Source

open Stencil.Naming

/-- What a file of a module is for. -/
inductive Role where
  | types
  | service
  | controller
  | validator
  | routes
  deriving DecidableEq, Repr

def Role.name : Role → String
  | .types => "types"
  | .service => "service"
  | .controller => "controller"
  | .validator => "validator"
  | .routes => "routes"

/-- The directories of a module. -/
def typesDirectory : String := "types"
def servicesDirectory : String := "services"
def controllersDirectory : String := "controllers"
def validatorsDirectory : String := "validators"

/-- The name that the files of an operation share, without its ending. -/
def fileStem (operation : String) (names : ModuleNames) : String :=
  operation ++ "." ++ names.file

/-- The path of an operation's file in a directory of the module. -/
def operationPath (directory operation : String) (names : ModuleNames) : Disk.Path :=
  (Disk.Path.ofText directory).join (.ofText (fileStem operation names ++ ".ts"))

/-- The path of the file with the module's routes. -/
def routesPath (names : ModuleNames) : Disk.Path :=
  .ofText (names.file ++ ".routes.ts")

/-- The path of a file of the module; routes belong to no operation. -/
def Role.path (role : Role) (operation : String) (names : ModuleNames) : Disk.Path :=
  match role with
  | .types => operationPath typesDirectory operation names
  | .service => operationPath servicesDirectory operation names
  | .controller => operationPath controllersDirectory operation names
  | .validator => operationPath validatorsDirectory operation names
  | .routes => routesPath names

/-- The name of a generated function: `createTodo` and what it is. -/
def functionName (operation : String) (names : ModuleNames) (what : String) : String :=
  operation ++ names.className ++ what

def serviceName (operation : String) (names : ModuleNames) : String :=
  functionName operation names "Service"

def controllerName (operation : String) (names : ModuleNames) : String :=
  functionName operation names "Controller"

end Stencil.Source
