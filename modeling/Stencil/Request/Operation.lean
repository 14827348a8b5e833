/-!
# Stencil — operations

A module serves operations. Five of them are known: they have fixed routes,
input and results. Every other name is an operation of the author's own.
-/

namespace Stencil

/-- The operations on records that every plain module serves. -/
inductive Crud where
  | create
  | get
  | update
  | delete
  | list
  deriving DecidableEq, Repr

namespace Crud

def name : Crud → String
  | create => "create"
  | get => "get"
  | update => "update"
  | delete => "delete"
  | list => "list"

/-- All of them, in the order in which they are generated. -/
def all : List Crud :=
  [create, get, update, delete, list]

/-- The known operation of that name. -/
def ofName? (operation : String) : Option Crud :=
  all.find? (·.name == operation)

end Crud

end Stencil
