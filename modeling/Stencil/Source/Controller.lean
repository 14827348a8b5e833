import Stencil.Request.Basic
import Stencil.Source.Handler
import Stencil.Source.Layout

/-!
# Stencil — the controller of an operation

The function that answers a request: it checks the input, takes it apart,
calls the service and sends the result. The frameworks differ in how input is
read and how a response is sent.
-/

namespace Stencil.Source

open Stencil.Naming

/-- Where in a request an operation finds its input. -/
inductive InputSource where
  | body
  | parameters
  | query
  | parametersAndBody
  deriving DecidableEq, Repr

/-- The source of an operation's input; an operation of the author's own reads
the body. -/
def InputSource.ofOperation (operation : String) : InputSource :=
  match Crud.ofName? operation with
  | some .get => .parameters
  | some .update => .parametersAndBody
  | some .delete => .parameters
  | some .list => .query
  | _ => .body

/-- The expression that reads the input. -/
def InputSource.expression : InputSource → Framework → String
  | .body, .express => "req.body"
  | .parameters, .express => "req.params"
  | .query, .express => "req.query"
  | .parametersAndBody, .express => "\x7b ...req.params, ...req.body \x7d"
  | .body, .hono => "await c.req.json()"
  | .parameters, .hono => "c.req.param()"
  | .query, .hono => "c.req.query()"
  | .parametersAndBody, .hono => "\x7b ...c.req.param(), ...(await c.req.json()) \x7d"

/-- The status of a successful answer. -/
def successStatus (operation : String) : Nat :=
  if Crud.ofName? operation = some .create then 201 else 200

/-- The error of an answer to bad input. -/
def badInputError : String :=
  "error: \x7b code: 'VALIDATION_ERROR', message: validation.error.message, statusCode: 400 \x7d,"

/-- Answers bad input and returns. -/
def refuseInput : Framework → List String
  | .express =>
    ["if (!validation.success) \x7b", "  res.status(400).json(\x7b", "    data: null,",
      "    " ++ badInputError, "  \x7d);", "  return;", "\x7d", ""]
  | .hono =>
    ["if (!validation.success) \x7b", "  return c.json(", "    \x7b", "      data: null,",
      "      " ++ badInputError, "    \x7d,", "    400,", "  );", "\x7d", ""]

/-- Sends the result. -/
def sendResult (status : Nat) : Framework → String
  | .express =>
    "res.status(result.error ? result.error.statusCode : " ++ toString status ++
      ").json(result);"
  | .hono =>
    "return c.json(result, result.error ? result.error.statusCode : " ++ toString status ++
      ");"

/-- What a controller takes from its framework. -/
def frameworkImport : Framework → Import
  | .express => ⟨.named ["Request", "Response"], .package "express"⟩
  | .hono => ⟨.named ["Context"], .package "hono"⟩

def controllerParameters : Framework → List Parameter
  | .express => [⟨"req", "Request"⟩, ⟨"res", "Response"⟩]
  | .hono => [⟨"c", "Context"⟩]

def controllerResult? : Framework → Option String
  | .express => some "Promise<void>"
  | .hono => none

/-- The controller of an operation. -/
def controller (operation : String) (names : ModuleNames) (fields : List Payload.Field)
    (framework : Framework) : Handler where
  imports :=
    [frameworkImport framework,
      ⟨.named ["validatePayload"], .beside validatorsDirectory (fileStem operation names)⟩,
      ⟨.whole (serviceName operation names),
        .beside servicesDirectory (fileStem operation names)⟩]
  name := controllerName operation names
  parameters := controllerParameters framework
  result? := controllerResult? framework
  body :=
    [.bind "validation"
        ("validatePayload(" ++
          (InputSource.ofOperation operation).expression framework ++ ")"),
      .lines (refuseInput framework),
      .takeApart fields "validation.data",
      .bind "result"
        ("await " ++ serviceName operation names ++ "(" ++ Payload.fieldObject fields ++ ")"),
      .lines [sendResult (successStatus operation) framework]]

end Stencil.Source
