import Stencil.Failure
import Stencil.Script

/-!
# Stencil — work that can fail

A script that ends with a value or a failure, and the single requests it is
made of. A request that the disk refuses is a failure of the work, unless the
work catches it.
-/

namespace Stencil

open Stencil.Disk

/-- A script that can fail. -/
abbrev Work (α : Type) := ExceptT Failure Script α

namespace Work

/-- A step that always succeeds. -/
def just {α : Type} (s : Script α) : Work α :=
  ExceptT.lift s

/-- A step that the disk may refuse. -/
def granted {α : Type} (s : Script (Except Fault α)) : Work α :=
  ExceptT.mk do
    match ← s with
    | .ok a => return .ok a
    | .error fault => return .error (.disk fault)

/-- A value, or a failure. -/
def ofExcept {α ε : Type} (toFailure : ε → Failure) : Except ε α → Work α
  | .ok a => pure a
  | .error e => throw (toFailure e)

/-- Carries work out and keeps its outcome, good or bad. -/
def outcome {α : Type} (work : Work α) : Work (Except Failure α) :=
  just work.run

def exists? (path : Path) : Work Bool :=
  granted (.step (.exists? path))

def isFile? (path : Path) : Work Bool :=
  granted (.step (.isFile? path))

def isDirectory? (path : Path) : Work Bool :=
  granted (.step (.isDirectory? path))

def read (path : Path) : Work (List UInt8) :=
  granted (.step (.read path))

def mode (path : Path) : Work Nat :=
  granted (.step (.mode path))

def makeDirectory (path : Path) : Work Unit :=
  granted (.step (.makeDirectory path))

def makeTemporary (path : Path) : Work Path :=
  granted (.step (.makeTemporary path))

def fill (path : Path) (bytes : List UInt8) : Work Unit :=
  granted (.step (.fill path bytes))

def setMode (path : Path) (mode : Nat) : Work Unit :=
  granted (.step (.setMode path mode))

def rename (source target : Path) : Work Unit :=
  granted (.step (.rename source target))

def resolve (path : Path) : Work Path :=
  granted (.step (.resolve path))

def workingDirectory : Work Path :=
  just (.step .workingDirectory)

/-- Removes a file; if it is gone already, that is no failure. -/
def remove (path : Path) : Work Unit :=
  ExceptT.mk do
    match ← Script.step (.remove path) with
    | .ok () => return .ok ()
    | .error (.refused .noEntry _) => return .ok ()
    | .error fault => return .error (.disk fault)

def log (severity : Log.Severity) (topic : Log.Topic) (message : String) : Work Unit :=
  just (.step (.log ⟨severity, topic, message⟩))

/-- Reads a text file. Every line end becomes a line feed. -/
def readText (path : Path) : Work String := do
  let bytes ← read path
  let cs ← ofExcept .undecodable (Text.Utf8.decode bytes)
  return String.ofList (Text.unifyLineEnds cs)

end Work

end Stencil
