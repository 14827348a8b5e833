import Stencil.Payload.Declaration

/-!
# Stencil — the code lines of a declaration's body

The body is read line by line. What is left of a line after its comments are
taken out is its code; lines without code are passed over, and so is a line
that starts with `*` outside a block comment, a stray line of documentation.
A literal ends with its line: whether a comment starts is decided on each line
anew.
-/

namespace Stencil.Payload

open Stencil.Text

/-- A line that carries code. -/
structure CodeLine where
  /-- Counted from one, in the whole text. -/
  number : Nat
  /-- The whole line without the blanks around it. -/
  line : List Char
  /-- The line without comments and without the blanks around what is left. -/
  code : List Char
  deriving DecidableEq, Repr

/-- A line without its comments, read from the given region, and whether a
block comment is still open at its end. -/
def stripComments : Region → List Char → List Char × Bool
  | .blockComment, [] => ([], true)
  | _, [] => ([], false)
  | .lineComment, _ => ([], false)
  | .blockComment, '*' :: '/' :: rest => stripComments .code rest
  | .blockComment, _ :: rest => stripComments .blockComment rest
  | .literal q, '\\' :: c :: rest =>
    let (code, isOpen) := stripComments (.literal q) rest
    ('\\' :: c :: code, isOpen)
  | .literal q, c :: rest =>
    let (code, isOpen) := stripComments (if c = q then .code else .literal q) rest
    (c :: code, isOpen)
  | .code, '/' :: '/' :: _ => ([], false)
  | .code, '/' :: '*' :: rest => stripComments .blockComment rest
  | .code, c :: rest =>
    let (code, isOpen) := stripComments (if isQuote c then .literal c else .code) rest
    (c :: code, isOpen)

/-- The code of a trimmed line, and whether a block comment is open after it,
given whether one was open before it. -/
def codeOf (inComment : Bool) (line : List Char) : List Char × Bool :=
  if inComment then stripComments .blockComment line
  else if line.head? = some '*' then ([], false)
  else stripComments .code line

/-- The code lines among `rawLines`, the first of which has number `number`. -/
def codeLinesFrom (number : Nat) (inComment : Bool) : List (List Char) → List CodeLine
  | [] => []
  | raw :: rest =>
    let line := trim raw
    let (code, isOpen) := codeOf inComment line
    let others := codeLinesFrom (number + 1) isOpen rest
    match trim code with
    | [] => others
    | c :: cs => ⟨number, line, c :: cs⟩ :: others

/-- The code lines of a body that starts on line `firstLine`. -/
def codeLines (body : List Char) (firstLine : Nat) : List CodeLine :=
  codeLinesFrom firstLine false (pieces '\n' body)

end Stencil.Payload
