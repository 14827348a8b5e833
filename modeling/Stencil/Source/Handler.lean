import Stencil.Payload.Snippet
import Stencil.Source.Import

/-!
# Stencil — generated functions

A service and a controller are each a file of imports and one exported
function. The function is kept as its parameters and statements, so that the
names it binds can be read off before it is written.
-/

namespace Stencil.Source

open Stencil.Payload

/-- A statement at the top of a function's body. -/
inductive Statement where
  /-- `const name = value;` -/
  | bind (name value : String)
  /-- Binds every field of a payload. -/
  | takeApart (fields : List Field) (value : String)
  /-- Lines that bind nothing. -/
  | lines (texts : List String)
  deriving DecidableEq, Repr

/-- The names that a statement binds. -/
def Statement.bound : Statement → List String
  | .bind name _ => [name]
  | .takeApart fields _ => fields.map (·.name)
  | .lines _ => []

/-- The lines of a statement, before they are indented. -/
def Statement.texts : Statement → List String
  | .bind name value => ["const " ++ name ++ " = " ++ value ++ ";"]
  | .takeApart fields value => ["const " ++ destructuring fields ++ " = " ++ value ++ ";"]
  | .lines texts => texts

/-- A parameter and its type. -/
structure Parameter where
  name : String
  type : String
  deriving DecidableEq, Repr

def Parameter.render (p : Parameter) : String :=
  p.name ++ ": " ++ p.type

/-- A file that exports one function. -/
structure Handler where
  imports : List Import
  name : String
  parameters : List Parameter
  /-- The type of the result, where it is declared. -/
  result? : Option String
  body : List Statement
  deriving DecidableEq, Repr

namespace Handler

/-- The names bound in the function's scope, in order. -/
def bound (h : Handler) : List String :=
  h.parameters.map (·.name) ++ h.body.flatMap Statement.bound

/-- The line that opens the function. -/
def opening (h : Handler) : String :=
  "export default async function " ++ h.name ++ "(" ++
    ", ".intercalate (h.parameters.map Parameter.render) ++ ")" ++
    (match h.result? with
    | some type => ": " ++ type
    | none => "") ++ " \x7b"

/-- A line of the body; an empty one is not indented. -/
def indented (text : String) : String :=
  if text = "" then "" else "  " ++ text

/-- The lines of the file. -/
def fileLines (h : Handler) : List String :=
  h.imports.map Import.render ++ [""] ++ [h.opening] ++
    (h.body.flatMap Statement.texts).map indented ++ ["\x7d"]

/-- The text of the file. -/
def render (h : Handler) : String :=
  String.join (h.fileLines.map (· ++ "\n"))

end Handler

end Stencil.Source
