import Stencil.Cli.Usage
import Stencil.Text.ControlSequence
import Stencil.Text.Json
import Stencil.Work

/-!
# Stencil — running a command

A command prints and then ends with a status, or ends because of a failure
that it does not handle.
-/

namespace Stencil.Cli

/-- How a command ends. -/
inductive Ending where
  | exit (status : Nat)
  | crash (failure : Failure)
  deriving DecidableEq, Repr

/-- The run of a command, which can end early. -/
abbrev Session (α : Type) := ExceptT Ending Script α

namespace Session

def print (text : String) : Session Unit :=
  ExceptT.lift (Script.step (.print (Text.printed text)))

/-- Prints to the standard error. -/
def complain (text : String) : Session Unit :=
  ExceptT.lift (Script.step (.complain (Text.printed text)))

def printLine (text : String) : Session Unit :=
  print (text ++ "\n")

def printJson (j : Json) : Session Unit :=
  printLine j.render

/-- Ends with a status. -/
def exit {α : Type} (status : Nat) : Session α :=
  throw (.exit status)

/-- Ends with status 0 if all went well and 1 if not. -/
def exitIf {α : Type} (isOk : Bool) : Session α :=
  exit (if isOk then 0 else 1)

/-- Ends because a command is used wrongly. -/
def misuse {α : Type} (c : Command) (m : Misuse) : Session α := do
  complain (m.report c)
  exit 2

/-- Says what went wrong and ends. -/
def refuse {α : Type} (message : String) : Session α := do
  printLine ("❌ " ++ message)
  exit 1

/-- Carries work out and keeps its outcome. -/
def outcome {α : Type} (work : Work α) : Session (Except Failure α) :=
  ExceptT.lift work.run

/-- Carries work out; a failure ends the command. -/
def attempt {α : Type} (work : Work α) : Session α := do
  match ← outcome work with
  | .ok a => return a
  | .error failure => throw (.crash failure)

/-- How a run ends; one that comes to its end does so with status 0. -/
def ending (s : Session Unit) : Script Ending := do
  match ← s.run with
  | .ok () => return .exit 0
  | .error e => return e

end Session

end Stencil.Cli
