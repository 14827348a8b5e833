import Stencil.Module.Write
import Stencil.Request.Basic
import Stencil.Source.Controller
import Stencil.Source.Routes
import Stencil.Source.Service
import Stencil.Source.TypeStub
import Stencil.Source.Validator

/-!
# Stencil — the files of a module

What is written for a module, and where, before anything is written: a
service, a controller and a validator for each operation that has a payload,
and one file of routes for all of them.
-/

namespace Stencil.Module

open Stencil.Naming Stencil.Source

/-- A file that is to be written. -/
structure PlannedFile where
  path : Disk.Path
  content : String
  /-- The operation the file belongs to, empty if to none. -/
  operation : String
  role : Role
  deriving DecidableEq, Repr

/-- A file and what was done with it. -/
structure WrittenFile where
  path : Disk.Path
  content : String
  operation : String
  role : Role
  action : Action
  deriving DecidableEq, Repr

/-- A body as the generated region of a file. -/
def wrapped (body : String) : String :=
  String.ofList (Region.wrap body.toList)

/-- The text of an operation's file, or of the type file to start from. -/
def operationBody (role : Role) (operation : String) (names : ModuleNames)
    (payload : Payload) (framework : Framework) : String :=
  match role with
  | .types => typeStub operation names
  | .service => (service operation names payload).render
  | .controller => (controller operation names payload.fields framework).render
  | .validator => (validator operation names payload.fields).render
  | .routes => (routes [operation] names framework).render

/-- The roles of the files generated for each operation, in order. -/
def operationRoles : List Role :=
  [.service, .controller, .validator]

/-- The type file of an operation. -/
def typeFile (r : Request) (operation : String) : Disk.Path :=
  r.modulePath.join (Role.types.path operation (moduleNames r.moduleName))

/-- The files of an operation with a payload. -/
def operationFiles (r : Request) (operation : String) (payload : Payload) :
    List PlannedFile :=
  let names := moduleNames r.moduleName
  operationRoles.map fun role =>
    { path := r.modulePath.join (role.path operation names)
      content := wrapped (operationBody role operation names payload r.framework)
      operation
      role }

/-- The file with the routes of the operations. -/
def routesFile (r : Request) (operations : List String) : PlannedFile :=
  let names := moduleNames r.moduleName
  { path := r.modulePath.join (routesPath names)
    content := wrapped (routes operations names r.framework).render
    operation := ""
    role := .routes }

/-- Operations with the payloads of their type files; an operation without a
type file has none. -/
abbrev Collected := List (String × Option Payload)

/-- The operations that have a payload. -/
def present (collected : Collected) : List (String × Payload) :=
  collected.filterMap fun (operation, payload?) => payload?.map fun p => (operation, p)

/-- Every file of a module, in the order of writing. -/
def plannedFiles (r : Request) (collected : Collected) : List PlannedFile :=
  match present collected with
  | [] => []
  | found =>
    found.flatMap (fun (operation, payload) => operationFiles r operation payload) ++
      [routesFile r (found.map (·.1))]

end Stencil.Module
