import Stencil.Module.Plan
import Stencil.Payload.Reader

/-!
# Stencil — generating a module

Generation has two phases. First every type file of the module is read: one
that is missing leaves its operation out, and one that cannot be read ends the
work before anything is written. Then the planned files are written, one after
the other.
-/

namespace Stencil.Module

/-- The payload that a type file declares. -/
def readPayload (path : Disk.Path) : Work Payload := do
  let text ← Work.readText path
  let payload ← Work.ofExcept .parse (Payload.parse text path.text)
  Work.log .debug .parsing
    ("Parsed " ++ toString payload.fields.length ++ " field(s) from " ++ path.text)
  return payload

/-- The payload of an operation, if it has a type file. -/
def collectOperation (r : Request) (operation : String) : Work (Option Payload) := do
  let path := typeFile r operation
  if ← Work.isFile? path then
    match ← Work.outcome (readPayload path) with
    | .ok payload => return some payload
    | .error (.parse cause) =>
      Work.log .error .generation
        ("Cannot parse " ++ path.text ++ ": " ++ cause.flaw.message)
      throw (.generation r.moduleName operation cause)
    | .error failure => throw failure
  else
    Work.log .info .generation
      ("No type file for " ++ r.moduleName ++ "." ++ operation ++ " at " ++ path.text ++
        ", skipping")
    return none

/-- Reads the type file of every operation, in order. -/
def collect (r : Request) : Work Collected := do
  if ← Work.isDirectory? r.modulePath then
    r.operations.mapM fun operation => do
      let payload? ← collectOperation r operation
      return (operation, payload?)
  else throw (.noModule r.modulePath.text)

/-- Writes one planned file. -/
def writePlanned (r : Request) (file : PlannedFile) : Work WrittenFile := do
  let composed ← writeGenerated file.path file.content r.isAppend r.isDryRun
  return ⟨file.path, composed.content, file.operation, file.role, composed.action⟩

/-- Generates a module: the files written, in order. -/
def generate (r : Request) : Work (List WrittenFile) := do
  Work.log .info .generation
    ("Generating module '" ++ r.moduleName ++ "' (" ++ r.apiType.kind.name ++ ") in " ++
      r.modulePath.text)
  let collected ← collect r
  let written ← (plannedFiles r collected).mapM (writePlanned r)
  Work.log .info .generation
    ("Module '" ++ r.moduleName ++ "': " ++ toString written.length ++
      " file(s) generated")
  return written

end Stencil.Module
