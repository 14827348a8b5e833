import Stencil.Disk.Path
import Stencil.Request.Operation

/-!
# Stencil — generation requests

What is to be generated for one module, where, and how files that exist
already are treated.
-/

namespace Stencil

/-- The web framework that generated code is written for. -/
inductive Framework where
  | express
  | hono
  deriving DecidableEq, Repr

namespace Framework

def name : Framework → String
  | express => "express"
  | hono => "hono"

/-- The frameworks by name. -/
def choices : List (String × Framework) :=
  [("express", express), ("hono", hono)]

/-- A name that no framework has. -/
structure Unknown where
  name : String
  deriving DecidableEq, Repr

def Unknown.message (u : Unknown) : String :=
  "Unsupported framework: " ++ u.name

/-- The framework of that name. -/
def ofName (name : String) : Except Unknown Framework :=
  match choices.lookup name with
  | some framework => .ok framework
  | none => .error ⟨name⟩

end Framework

/-- Which operations a module serves: the known ones or the author's own. -/
inductive ApiKind where
  | crud
  | custom
  deriving DecidableEq, Repr

namespace ApiKind

def name : ApiKind → String
  | crud => "crud"
  | custom => "custom"

/-- The kinds by name. -/
def choices : List (String × ApiKind) :=
  [("crud", crud), ("custom", custom)]

end ApiKind

/-- What a module serves. A module of known operations may carry names of its
own too; they are not used. -/
structure ApiType where
  kind : ApiKind
  customNames : List String
  deriving DecidableEq, Repr

namespace ApiType

/-- The known operations. -/
def crud : ApiType :=
  ⟨.crud, []⟩

/-- The names of the operations, in the order in which they are generated. -/
def operations (t : ApiType) : List String :=
  match t.kind with
  | .crud => Crud.all.map Crud.name
  | .custom => t.customNames

end ApiType

/-- One module to generate. -/
structure Request where
  moduleName : String
  /-- The directory of the module. -/
  modulePath : Disk.Path
  apiType : ApiType
  /-- Whether a file that exists keeps what stands around its generated
  region. -/
  isAppend : Bool
  framework : Framework
  /-- Whether nothing is written. -/
  isDryRun : Bool
  deriving DecidableEq, Repr

/-- The operations to generate. -/
def Request.operations (r : Request) : List String :=
  r.apiType.operations

end Stencil
