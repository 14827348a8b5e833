import Stencil.Text.Quoted

/-!
# Stencil — what can be wrong with a payload declaration

A declaration that cannot be read is refused with the cause, the file, and,
where it is known, the line: its number, and its text without the blanks
around it.
-/

namespace Stencil.Payload

/-- Why a payload declaration cannot be read. -/
inductive Flaw where
  /-- The text declares no payload type. -/
  | noDeclaration
  /-- The brace that opens the declaration is never closed. -/
  | openDeclaration
  /-- A brace opens inside the object type of a field. -/
  | tooDeep
  /-- A brace closes that no field opened. -/
  | strayBrace
  /-- The object type of the last field is never closed. -/
  | openObject
  /-- An entry is not a name, an optional `?`, a colon and a type. -/
  | notAField
  /-- A field has no type. -/
  | noType (name : String)
  /-- An earlier field has the same name. -/
  | repeated (name : String) (firstLine : Nat)
  deriving DecidableEq, Repr

/-- A refused declaration. -/
structure ParseError where
  flaw : Flaw
  source : String
  lineNumber : Option Nat
  line : Option String
  deriving DecidableEq, Repr

/-- The name of the declared type. -/
def payloadTypeName : String :=
  "typePayload"

def Flaw.message : Flaw → String
  | .noDeclaration =>
    "no 'export type " ++ payloadTypeName ++ " = \x7b' declaration found"
  | .openDeclaration => "unbalanced braces in " ++ payloadTypeName ++ " declaration"
  | .tooDeep => "object types nested more than one level deep are not supported"
  | .strayBrace => "unbalanced braces in field type"
  | .openObject => "unterminated nested object type"
  | .notAField => "cannot parse field line"
  | .noType name => "field " ++ Text.quoted name ++ " has no type"
  | .repeated name firstLine =>
    "duplicate field " ++ Text.quoted name ++ " (first declared on line " ++
      toString firstLine ++ ")"

def ParseError.message (e : ParseError) : String :=
  let place :=
    match e.lineNumber with
    | none => e.source
    | some n => e.source ++ ":" ++ toString n
  let detail :=
    match e.line with
    | none => ""
    | some l => ": " ++ Text.quoted l
  place ++ ": " ++ e.flaw.message ++ detail

end Stencil.Payload
