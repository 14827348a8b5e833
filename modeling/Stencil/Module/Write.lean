import Stencil.Disk.Basic
import Stencil.Text.Case
import Stencil.Work

/-!
# Stencil — writing generated files

`compose` decides what a file is to hold and `writeGenerated` makes it so. In
place of the old text comes the new one; in append mode only the generated
region is replaced, and a file without a usable region is a conflict. A file
is replaced in one move: its new content is written to a temporary file beside
it first, and whatever fails before the move leaves the file as it was.
-/

namespace Stencil.Module

open Stencil.Disk

/-- What was done with a file. -/
inductive Action where
  | created
  | replaced
  | merged
  | unchanged
  | skipped
  deriving DecidableEq, Repr

def Action.name : Action → String
  | .created => "created"
  | .replaced => "replaced"
  | .merged => "merged"
  | .unchanged => "unchanged"
  | .skipped => "skipped"

/-- The action as the first word of a report. -/
def Action.title (a : Action) : String :=
  String.ofList (Text.capitalize a.name.toList)

/-- What a file is to hold, and what that means for it. -/
structure Composed where
  content : String
  action : Action
  deriving DecidableEq, Repr

/-- The bytes of a text. -/
def bytesOf (content : String) : List UInt8 :=
  Text.Utf8.encode content.toList

/-- What replaces a file that holds `bytes`. -/
def replaceIn (bytes : List UInt8) (new : String) : Composed :=
  ⟨new, if bytes = bytesOf new then .unchanged else .replaced⟩

/-- What a file that holds `bytes` is to hold with the region of `new` in place
of its own. -/
def mergeInto (path : Path) (bytes : List UInt8) (new : String) : Except Failure Composed :=
  match Text.Utf8.decode bytes with
  | .error fault => .error (.conflict path.text (.undecodable fault.position))
  | .ok existing =>
    match Region.splice existing new.toList with
    | .error (.generated flaw) => .error (.unmarked path.text flaw)
    | .error (.existing flaw) => .error (.conflict path.text (.region flaw))
    | .ok merged =>
      .ok ⟨String.ofList merged, if merged = existing then .unchanged else .merged⟩

/-- What a file is to hold. Nothing is written. -/
def compose (path : Path) (new : String) (isAppend : Bool) : Work Composed := do
  if ← Work.exists? path then
    let bytes ← Work.read path
    if isAppend then Work.ofExcept id (mergeInto path bytes new)
    else return replaceIn bytes new
  else return ⟨new, .created⟩

/-- The permissions of what a path leads to, or those of a new file. -/
def modeToKeep (path : Path) : Work Nat := do
  if ← Work.exists? path then
    let mode ← Work.mode path
    return mode
  else return newFileMode

/-- Makes a directory if there is none. -/
def ensureDirectory (path : Path) : Work Unit := do
  match ← Work.outcome (Work.makeDirectory path) with
  | .ok () => return
  | .error failure =>
    if failure.isDiskRefusal && failure ≠ .disk (.refused .noEntry path.text) then
      if ← Work.isDirectory? path then return else throw failure
    else throw failure

/-- Makes the directory that the names lead to, innermost first, and those
around it. -/
def ensureNames (anchor : Anchor) : List String → Work Unit
  | [] => ensureDirectory ⟨anchor, []⟩
  | name :: outer => do
    let path : Path := ⟨anchor, (name :: outer).reverse⟩
    match ← Work.outcome (ensureDirectory path) with
    | .ok () => return
    | .error failure =>
      if failure = .disk (.refused .noEntry path.text) then
        ensureNames anchor outer
        ensureDirectory path
      else throw failure

/-- Makes a directory and those around it. -/
def ensureDirectories (path : Path) : Work Unit :=
  ensureNames path.anchor path.parts.reverse

/-- Writes a temporary file and moves it to a path. -/
def fillAndMove (temporary path : Path) (content : List UInt8) (mode : Nat) : Work Unit := do
  Work.fill temporary content
  Work.setMode temporary mode
  Work.rename temporary path

/-- Replaces a file in one move. A file that was there keeps its permissions. -/
def atomicWrite (path : Path) (content : String) : Work Unit := do
  ensureDirectories path.parent
  let mode ← modeToKeep path
  let temporary ← Work.makeTemporary path
  match ← Work.outcome (fillAndMove temporary path (bytesOf content) mode) with
  | .ok () => return
  | .error failure =>
    Work.remove temporary
    throw failure

/-- Reports a conflict before it ends the work. -/
def reportConflict : Failure → Work Unit
  | .conflict path reason =>
    Work.log .error .writing ("Refusing to merge " ++ path ++ ": " ++ reason.message)
  | _ => return

/-- Writes one file, or only says what would be written. -/
def writeGenerated (path : Path) (new : String) (isAppend isDryRun : Bool) :
    Work Composed := do
  match ← Work.outcome (compose path new isAppend) with
  | .error failure =>
    reportConflict failure
    throw failure
  | .ok composed =>
    let action := composed.action
    if isDryRun then
      Work.log .info .writing ("[dry-run] " ++ action.name ++ " " ++ path.text)
    else if action = .unchanged then
      Work.log .debug .writing ("Unchanged " ++ path.text)
    else
      atomicWrite path composed.content
      Work.log .info .writing (action.title ++ " " ++ path.text)
    return composed

end Stencil.Module
