import Stencil.Payload.Schema

/-!
# Stencil — snippets made from the fields

The three pieces of code that generated files are put together from: the
pattern that takes a payload apart, the object that puts it together again,
and the schema that checks it. Each lists the fields in order.
-/

namespace Stencil.Payload

/-- Texts with a separator between them. -/
def joinWith (separator : String) (parts : List String) : String :=
  separator.intercalate parts

/-- Items between braces. -/
def braced (items : List String) : String :=
  match items with
  | [] => "\x7b\x7d"
  | _ => "\x7b " ++ joinWith ", " items ++ " \x7d"

/-- The pattern that binds every field: `{ a, b }`. -/
def destructuring (fields : List Field) : String :=
  braced (fields.map (·.name))

/-- The object with every bound field: `{ a: a, b: b }`. -/
def fieldObject (fields : List Field) : String :=
  braced (fields.map fun f => f.name ++ ": " ++ f.name)

/-- The line of the schema that checks one field. -/
def schemaLine (f : Field) : String :=
  "  " ++ f.name ++ ": " ++ String.ofList f.schema ++ ","

/-- The schema that checks every field, one line each. -/
def validationStub (fields : List Field) : String :=
  match fields with
  | [] => "z.object(\x7b\x7d)"
  | _ => joinWith "\n" ("z.object(\x7b" :: fields.map schemaLine ++ ["\x7d)"])

/-- What a snippet is for. A whole file is put together from the others. -/
inductive SnippetKind where
  | destructuring
  | fieldObject
  | validationStub
  | wholeFile
  deriving DecidableEq, Repr

namespace SnippetKind

def name : SnippetKind → String
  | destructuring => "destructuring"
  | fieldObject => "field_object"
  | validationStub => "validation_stub"
  | wholeFile => "full_file_body"

/-- The kind of that name. -/
def ofName? (name : String) : Option SnippetKind :=
  [destructuring, fieldObject, validationStub, wholeFile].find? (·.name == name)

end SnippetKind

/-- The snippet of a kind, for the kinds that are made from fields. -/
def snippet? (fields : List Field) : SnippetKind → Option String
  | .destructuring => some (destructuring fields)
  | .fieldObject => some (fieldObject fields)
  | .validationStub => some (validationStub fields)
  | .wholeFile => none

end Stencil.Payload
