import Stencil.Payload.Snippet
import Stencil.Source.Import
import Stencil.Source.Layout

/-!
# Stencil — the validator of an operation

The schema of the payload and the function that checks an unknown value
against it.
-/

namespace Stencil.Source

open Stencil.Naming

/-- A file that exports the schema of a payload. -/
structure Validator where
  imports : List Import
  schema : String
  deriving DecidableEq, Repr

/-- The text of the file. -/
def Validator.render (v : Validator) : String :=
  String.join (v.imports.map (·.render ++ "\n")) ++
    "\nexport const payloadSchema = " ++ v.schema ++ ";\n" ++
    "\nexport const validatePayload = (payload: unknown) =>\n" ++
    "  payloadSchema.safeParse(payload) as z.SafeParseReturnType<unknown, typePayload>;\n"

/-- The validator of an operation. -/
def validator (operation : String) (names : ModuleNames) (fields : List Payload.Field) :
    Validator where
  imports :=
    [⟨.named ["z"], .package "zod"⟩,
      ⟨.types ["typePayload"], .beside typesDirectory (fileStem operation names)⟩]
  schema := Payload.validationStub fields

end Stencil.Source
