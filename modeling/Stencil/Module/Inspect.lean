import Stencil.Module.Generate

/-!
# Stencil — inspecting a type file

What is read from a type file, or why it cannot be read.
-/

namespace Stencil.Module

/-- What inspecting a type file gave. -/
structure Inspection where
  path : Disk.Path
  result : Except Failure Payload

/-- Reads a type file. A file that is missing or declares no payload is part of
the answer; one that is no text ends the work. -/
def inspect (path : Disk.Path) : Work Inspection := do
  match ← Work.outcome (readPayload path) with
  | .ok payload => return ⟨path, .ok payload⟩
  | .error failure =>
    match failure with
    | .parse _ => return ⟨path, .error failure⟩
    | _ => if failure.isDiskRefusal then return ⟨path, .error failure⟩ else throw failure

end Stencil.Module
