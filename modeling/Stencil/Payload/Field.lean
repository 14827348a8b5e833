import Stencil.Text.Quoted

/-!
# Stencil — payload fields

A payload type is an ordered list of fields. The order is the one the author
wrote, and every text made from a payload follows it. The text of a field's
type is kept as written and not looked into.
-/

namespace Stencil.Payload

/-- One `name?: type` entry of a payload type. -/
structure Field where
  name : String
  isOptional : Bool
  typeText : String
  /-- The line of the entry, counted from one, where it is known. -/
  line : Option Int
  deriving DecidableEq, Repr

/-- Whether the type is an object type written in place. -/
def Field.isNested (f : Field) : Bool :=
  f.typeText.toList.head? == some '\x7b'

end Stencil.Payload

namespace Stencil

open Stencil.Payload

/-- The fields of one payload type and the file it was read from. -/
structure Payload where
  fields : List Field
  source : String
  deriving DecidableEq, Repr

namespace Payload

/-- The field names that mark the payload of a listing. -/
def paginationNames : List String :=
  ["page", "limit", "sort_by", "sort_order"]

/-- The names of the fields, in order. -/
def names (p : Payload) : List String :=
  p.fields.map (·.name)

def hasId (p : Payload) : Bool :=
  p.names.contains "id"

def hasPagination (p : Payload) : Bool :=
  p.names.any paginationNames.contains

/-- The field of that name. -/
def find? (p : Payload) (name : String) : Option Field :=
  p.fields.find? (·.name == name)

/-- The first name that an earlier field has too. -/
def repeatedName? (fields : List Field) : Option String :=
  go [] fields
where
  go (seen : List String) : List Field → Option String
    | [] => none
    | f :: rest => if seen.contains f.name then some f.name else go (f.name :: seen) rest

end Payload

end Stencil
