/-!
# Stencil — identifiers

The names that generated code may declare: a letter, `_` or `$`, then letters,
digits, `_` and `$`, all of ASCII. `isDeclarable` is the check that names given
from outside go through; it does not look at a single line feed at the very
end of the name.
-/

namespace Stencil

/-- Whether an identifier may start with the character. -/
def isIdentifierStart (c : Char) : Bool :=
  c.isAlpha || c == '_' || c == '$'

/-- Whether an identifier may go on with the character. -/
def isIdentifierPart (c : Char) : Bool :=
  c.isAlphanum || c == '_' || c == '$'

/-- An identifier: a start character and then any number of part characters. -/
def isIdentifier : List Char → Bool
  | [] => false
  | c :: rest => isIdentifierStart c && rest.all isIdentifierPart

/-- A text without the line feed at its end, if it has one. -/
def dropFinalLineFeed (cs : List Char) : List Char :=
  if cs.getLast? = some '\n' then cs.dropLast else cs

/-- Whether a given name is taken: an identifier, or an identifier and one
line feed. -/
def isDeclarable (name : String) : Bool :=
  isIdentifier (dropFinalLineFeed name.toList)

end Stencil
