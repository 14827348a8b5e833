import Stencil.Request.Basic
import Stencil.Source.Import
import Stencil.Source.Layout

/-!
# Stencil — the routes of a module

One file for each module registers the controllers of its operations, in the
order given.
-/

namespace Stencil.Source

open Stencil.Naming

/-- What an operation is served on. -/
structure Route where
  method : String
  path : String
  deriving DecidableEq, Repr

/-- The route of an operation; one of the author's own is posted to under its
name. -/
def Route.ofOperation (operation : String) : Route :=
  match Crud.ofName? operation with
  | some .create => ⟨"post", "/"⟩
  | some .get => ⟨"get", "/:id"⟩
  | some .update => ⟨"put", "/:id"⟩
  | some .delete => ⟨"delete", "/:id"⟩
  | some .list => ⟨"get", "/"⟩
  | none => ⟨"post", "/" ++ operation⟩

/-- The registration of one controller. -/
structure Registration where
  route : Route
  handler : String
  deriving DecidableEq, Repr

/-- A file that exports the routes of a module. -/
structure Routes where
  framework : Framework
  imports : List Import
  registrations : List Registration
  deriving DecidableEq, Repr

/-- The import that a router needs. -/
def routerImport : Framework → Import
  | .express => ⟨.named ["Router"], .package "express"⟩
  | .hono => ⟨.named ["Hono"], .package "hono"⟩

/-- The variable that holds the router. -/
def routerName : Framework → String
  | .express => "router"
  | .hono => "app"

/-- The expression that makes a router. -/
def newRouter : Framework → String
  | .express => "Router()"
  | .hono => "new Hono()"

def Registration.render (router : String) (r : Registration) : String :=
  router ++ "." ++ r.route.method ++ "('" ++ r.route.path ++ "', " ++ r.handler ++ ");"

/-- The lines of the file. -/
def Routes.fileLines (r : Routes) : List String :=
  let router := routerName r.framework
  r.imports.map Import.render ++
    ["", "const " ++ router ++ " = " ++ newRouter r.framework ++ ";", ""] ++
    r.registrations.map (Registration.render router) ++
    ["", "export default " ++ router ++ ";"]

/-- The text of the file. -/
def Routes.render (r : Routes) : String :=
  String.join (r.fileLines.map (· ++ "\n"))

/-- The routes of the operations. -/
def routes (operations : List String) (names : ModuleNames) (framework : Framework) :
    Routes where
  framework := framework
  imports :=
    routerImport framework :: operations.map fun operation =>
      ⟨.whole (controllerName operation names),
        .below controllersDirectory (fileStem operation names)⟩
  registrations :=
    operations.map fun operation =>
      ⟨Route.ofOperation operation, controllerName operation names⟩

end Stencil.Source
