import Stencil.Request.Operation
import Stencil.Source.Handler
import Stencil.Source.Layout

/-!
# Stencil — the service of an operation

The function that a controller calls. It takes the payload apart and puts the
input for storage together; storing is left to the author. A listing with
`page` and `limit` works out where its page starts, and a deletion with an
`id` answers with it.
-/

namespace Stencil.Source

open Stencil.Naming

/-- The items of a page when the payload does not say. -/
def defaultPageSize : Nat := 20

/-- Whether the payload asks for one page of a listing. -/
def asksForPage (payload : Payload) : Bool :=
  (payload.find? "page").isSome && (payload.find? "limit").isSome

/-- What works out the page of a listing. -/
def pageStatements : List Statement :=
  [.bind "pageSize" ("limit ?? " ++ toString defaultPageSize),
    .bind "offset" "((page ?? 1) - 1) * pageSize"]

/-- The statements between the payload and the input. -/
def servicePrelude (operation : String) (payload : Payload) : List Statement :=
  if Crud.ofName? operation = some .list ∧ asksForPage payload then pageStatements else []

/-- What a listing says about its page. -/
def listingMetadata (payload : Payload) : String :=
  if asksForPage payload then
    "\x7b page: page ?? 1, limit: pageSize, offset, total_count: 0 \x7d"
  else "\x7b total_count: 0 \x7d"

/-- The expression that a service answers with. -/
def serviceData (operation : String) (payload : Payload) : String :=
  let value :=
    match Crud.ofName? operation with
    | some .list =>
      "\x7b items: [], _metadata: " ++ listingMetadata payload ++ " \x7d"
    | some .delete => if payload.hasId then "\x7b deleted_id: id \x7d" else "input"
    | _ => "input"
  value ++ " as unknown as typeResultData"

/-- The service of an operation. -/
def service (operation : String) (names : ModuleNames) (payload : Payload) : Handler where
  imports :=
    [⟨.types ["typePayload", "typeResult", "typeResultData"],
      .beside typesDirectory (fileStem operation names)⟩]
  name := serviceName operation names
  parameters := [⟨"payload", "typePayload"⟩]
  result? := some "Promise<typeResult>"
  body :=
    .takeApart payload.fields "payload" :: servicePrelude operation payload ++
      [.bind "input" (Payload.fieldObject payload.fields),
        .lines ["", "// " ++ names.constant ++ ": persist or query \x60input\x60 here",
          "return \x7b data: " ++ serviceData operation payload ++ ", error: null \x7d;"]]

end Stencil.Source
