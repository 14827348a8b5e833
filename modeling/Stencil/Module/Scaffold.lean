import Stencil.Module.Plan

/-!
# Stencil — type files to start from

Scaffolding writes a type file for every operation of a module. An author
edits these files by hand, so one that exists is kept unless the author
insists.
-/

namespace Stencil.Module

/-- Writes the type file of one operation, or only says so. -/
def writeStub (r : Request) (operation : String) (action : Action) : Work String := do
  let path := typeFile r operation
  let content := Source.typeStub operation (Naming.moduleNames r.moduleName)
  if r.isDryRun then
    Work.log .info .scaffolding ("[dry-run] " ++ action.name ++ " " ++ path.text)
  else
    atomicWrite path content
    Work.log .info .scaffolding (action.title ++ " " ++ path.text)
  return content

/-- Keeps a type file: its text. -/
def keepTypeFile (path : Disk.Path) : Work String := do
  Work.log .info .scaffolding ("Keeping existing type file " ++ path.text)
  Work.readText path

/-- The type file of one operation. -/
def scaffoldOperation (r : Request) (isForced : Bool) (operation : String) :
    Work WrittenFile := do
  let path := typeFile r operation
  let isThere ← Work.exists? path
  let file (content : String) (action : Action) : WrittenFile :=
    ⟨path, content, operation, .types, action⟩
  if isThere && !isForced then
    let content ← keepTypeFile path
    return file content .skipped
  else
    let action := if isThere then Action.replaced else .created
    let content ← writeStub r operation action
    return file content action

/-- The type files of a module, in the order of its operations. -/
def scaffold (r : Request) (isForced : Bool) : Work (List WrittenFile) :=
  r.operations.mapM (scaffoldOperation r isForced)

end Stencil.Module
