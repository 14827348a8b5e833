import Stencil.Cli.Run
import Stencil.Machine

/-!
# Stencil — the program

The command line on the machine: the words and the environment go in, and the
exit status comes out. A failure that no command handles is named on the
standard error.
-/

/-- What the environment says, as far as it is looked at. -/
def Stencil.Machine.environment : IO Stencil.Cli.Environment :=
  Stencil.Cli.variableNames.filterMapM fun name =>
    return (← IO.getEnv name).map fun value => (name, value)

/-- Runs the program. -/
def main (words : List String) : IO UInt32 := do
  let script := Stencil.Cli.run (← Stencil.Machine.environment) words
  match ← (Stencil.Machine.carryOut script).run' none with
  | .exit status => return status.toUInt32
  | .crash failure =>
    IO.eprintln (failure.kindName ++ ": " ++ failure.message)
    return 1
