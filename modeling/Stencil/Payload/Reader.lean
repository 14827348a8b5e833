import Stencil.Identifier
import Stencil.Payload.Entry
import Stencil.Payload.Field

/-!
# Stencil — reading a payload declaration

`Payload.parse` reads the payload type that a source text declares: its
fields, in the order of their entries. Everything outside the declaration is
passed over.
-/

namespace Stencil.Payload

open Stencil.Text

/-- An entry taken apart. -/
structure EntryParts where
  name : List Char
  isOptional : Bool
  typeText : List Char
  deriving DecidableEq, Repr

/-- Whether a question mark comes first, and the text after it. -/
def dropMark : List Char → Bool × List Char
  | '?' :: rest => (true, rest)
  | cs => (false, cs)

/-- An entry's name, its `?`, and the type after the colon, which may be
empty. -/
def splitEntry? (text : List Char) : Option EntryParts :=
  match text with
  | [] => none
  | c :: rest =>
    if isIdentifierStart c then
      let name := c :: rest.takeWhile isIdentifierPart
      let (isOptional, rest) := dropMark (rest.dropWhile isIdentifierPart)
      match rest.dropWhile isBlank with
      | ':' :: rest => some ⟨name, isOptional, trim rest⟩
      | _ => none
    else none

/-- The line of the first of these fields that has the name. -/
def firstLine? (name : String) (earlier : List (String × Nat)) : Option Nat :=
  (earlier.find? (·.1 == name)).map (·.2)

/-- The fields of the entries, given the names and lines of the earlier
ones. -/
def fieldsOf (source : String) (earlier : List (String × Nat)) :
    List Entry → Except ParseError (List Field)
  | [] => .ok []
  | e :: rest =>
    let refuse (flaw : Flaw) : Except ParseError (List Field) :=
      .error ⟨flaw, source, some e.number, some (String.ofList e.line)⟩
    match splitEntry? e.text with
    | none => refuse .notAField
    | some parts =>
      let name := String.ofList parts.name
      if parts.typeText = [] then refuse (.noType name)
      else
        match firstLine? name earlier with
        | some line => refuse (.repeated name line)
        | none =>
          (fieldsOf source (earlier ++ [(name, e.number)]) rest).map
            (⟨name, parts.isOptional, String.ofList parts.typeText, some e.number⟩ :: ·)

end Stencil.Payload

namespace Stencil

open Stencil.Payload

/-- The payload type that the text declares. `source` names the text in
errors. -/
def Payload.parse (text : String) (source : String) : Except ParseError Payload := do
  let (body, firstLine) ← declaredBody source text.toList
  let es ← entries source (codeLines body firstLine)
  let fields ← fieldsOf source [] es
  return ⟨fields, source⟩

end Stencil
