import Stencil.Check.Reader
import Stencil.Identifier
import Stencil.Payload.Field

/-!
# Stencil — payload fields given as data

Fields need not come from a declaration: `Field.ofData` reads one from data
and `Payload.ofFields` puts fields together. Both check what a declaration's
syntax would have guaranteed.
-/

namespace Stencil.Payload

open Stencil.Check

def readFieldName (d : Data) : Checked String :=
  match readText d with
  | .ok name => if isDeclarable name then .ok name else refuse (.refused (.fieldName name))
  | .error faults => .error faults

def readTypeText (d : Data) : Checked String :=
  match readText d with
  | .ok text => if Text.isBlankText text then refuse (.refused .emptyType) else .ok text
  | .error faults => .error faults

/-- The field that a record describes. -/
def Field.ofData (entries : List (Data × Data)) : Except Report Field :=
  let name := field entries "name" none readFieldName
  let isOptional := field entries "optional" (some false) readFlag
  let typeText := field entries "type_expression" none readTypeText
  let line := field entries "line" (some none) (nullable readWhole)
  match both name (both isOptional (both typeText line)) with
  | .ok (name, isOptional, typeText, line) => .ok ⟨name, isOptional, typeText, line⟩
  | .error faults => .error ⟨"PayloadField", faults⟩

end Stencil.Payload

namespace Stencil

open Stencil.Check

/-- The payload with these fields, if no two share a name. -/
def Payload.ofFields (fields : List Payload.Field) (source : String) :
    Except Report Payload :=
  match Payload.repeatedName? fields with
  | none => .ok ⟨fields, source⟩
  | some name =>
    .error ⟨"ParsedTypePayload", [⟨[.field "fields"], .refused (.repeatedField name)⟩]⟩

end Stencil
