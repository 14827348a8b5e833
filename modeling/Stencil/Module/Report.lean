import Stencil.Module.Batch
import Stencil.Module.Inspect
import Stencil.Payload.Snippet
import Stencil.Text.Json

/-!
# Stencil — results as JSON

The documents in which the results of generating and inspecting are handed
out.
-/

namespace Stencil.Module

open Stencil.Payload

/-- A field of a payload. -/
def fieldJson (f : Field) : Json :=
  .object
    [("name", .text f.name), ("optional", .bool f.isOptional), ("type", .text f.typeText),
      ("nested", .bool f.isNested),
      ("line", match f.line with | some n => .int n | none => .null)]

/-- The snippets made from fields, by kind. -/
def snippetsJson (fields : List Field) : Json :=
  .object
    [(SnippetKind.destructuring.name, .text (destructuring fields)),
      (SnippetKind.fieldObject.name, .text (fieldObject fields)),
      (SnippetKind.validationStub.name, .text (validationStub fields))]

/-- What there is to say about a payload. -/
def payloadMembers (p : Payload) : List (String × Json) :=
  [("fields", .list (p.fields.map fieldJson)), ("has_id", .bool p.hasId),
    ("has_pagination", .bool p.hasPagination), ("fragments", snippetsJson p.fields)]

def Inspection.json (i : Inspection) : Json :=
  match i.result with
  | .ok payload => .object (("path", .text i.path.text) :: payloadMembers payload)
  | .error failure =>
    .object [("path", .text i.path.text), ("error", .text failure.message)]

def Outcome.json (o : Outcome) : Json :=
  let file (f : WrittenFile) : Json :=
    .object
      [("path", .text f.path.text), ("operation", .text f.operation),
        ("role", .text f.role.name), ("action", .text f.action.name)]
  let failure :=
    match o.failure? with
    | none => []
    | some f => [("error", Json.text f.message), ("error_type", Json.text f.kindName)]
  .object
    ([("module", .text o.moduleName), ("path", .text o.modulePath.text),
      ("ok", .bool o.isOk), ("files", .list (o.files.map file))] ++ failure)

/-- The actions that a summary counts. -/
def summaryActions : List Action :=
  [.created, .replaced, .merged, .unchanged]

def BatchResult.json (b : BatchResult) : Json :=
  .object
    [("ok", .bool b.isOk), ("dry_run", .bool b.isDryRun),
      ("modules", .list (b.modules.map Outcome.json)),
      ("summary", .object
        ([("modules", .int b.modules.length), ("failed", .int b.failed.length)] ++
          summaryActions.map fun a => (a.name, .int (b.count a))))]

end Stencil.Module
