import Stencil.Naming.Words

/-!
# Stencil — module names

What an author may call a module, and every name that generated code derives
from it.
-/

namespace Stencil.Naming

open Stencil.Text

/-- Why a module name is refused. -/
inductive NameFlaw where
  | empty
  | characters
  | start
  deriving DecidableEq, Repr

def NameFlaw.message : NameFlaw → String
  | .empty => "Module name cannot be empty"
  | .characters =>
    "Module name can only contain letters, numbers, hyphens, and underscores"
  | .start => "Module name must start with a letter or underscore"

/-- The characters of a module name. -/
def isNameChar (c : Char) : Bool :=
  c.isAlphanum || c == '_' || c == '-'

/-- The characters a module name may start with. -/
def isNameStart (c : Char) : Bool :=
  c.isAlpha || c == '_'

/-- The module name that a given text stands for: the text without the blanks
around it, if that is not empty, has only letters, digits, hyphens and
underscores, and starts with a letter or an underscore. -/
def checkModuleName (given : String) : Except NameFlaw String :=
  match trim given.toList with
  | [] => .error .empty
  | c :: rest =>
    if !(c :: rest).all isNameChar then .error .characters
    else if !isNameStart c then .error .start
    else .ok (String.ofList (c :: rest))

/-- Every name derived from one module name. -/
structure ModuleNames where
  /-- The name as the author gave it, without the blanks around it. -/
  given : String
  directory : String
  file : String
  className : String
  variableName : String
  constant : String
  url : String
  deriving DecidableEq, Repr

/-- The names of the module called `name`. -/
def moduleNames (name : String) : ModuleNames :=
  let given := strip name
  { given
    directory := kebabCase given
    file := camelCase given
    className := pascalCase given
    variableName := camelCase given
    constant := constantCase given
    url := kebabCase given }

end Stencil.Naming
