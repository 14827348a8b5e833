/-!
# Stencil — imports of generated files

One import line: what it binds and where from. The place is either another
generated file, written relative to the importing one, or a package.
-/

namespace Stencil.Source

/-- What an import binds. -/
inductive Binding where
  /-- The default export, under a name. -/
  | whole (name : String)
  /-- Exports by name. -/
  | named (names : List String)
  /-- Exported types by name. -/
  | types (names : List String)
  deriving DecidableEq, Repr

/-- Where an import takes from. -/
inductive Origin where
  | package (name : String)
  /-- A file beside the importing one or below its directory. -/
  | below (directory file : String)
  /-- A file in a directory beside the one of the importing file. -/
  | beside (directory file : String)
  deriving DecidableEq, Repr

/-- One import line. -/
structure Import where
  binding : Binding
  origin : Origin
  deriving DecidableEq, Repr

/-- Names between braces. -/
def bracedNames (names : List String) : String :=
  "\x7b " ++ ", ".intercalate names ++ " \x7d"

def Binding.render : Binding → String
  | .whole name => name
  | .named names => bracedNames names
  | .types names => "type " ++ bracedNames names

/-- The module specifier, which leaves out the ending of the file's name. -/
def Origin.render : Origin → String
  | .package name => name
  | .below directory file => "./" ++ directory ++ "/" ++ file
  | .beside directory file => "../" ++ directory ++ "/" ++ file

def Import.render (i : Import) : String :=
  "import " ++ i.binding.render ++ " from '" ++ i.origin.render ++ "';"

end Stencil.Source
