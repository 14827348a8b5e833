/-!
# Stencil — log records

What the program reports while it works: how serious it is, which part of the
program speaks, and what it says.
-/

namespace Stencil.Log

/-- How serious a record is. -/
inductive Severity where
  | debug
  | info
  | warning
  | error
  deriving DecidableEq, Repr

def Severity.number : Severity → Nat
  | .debug => 10
  | .info => 20
  | .warning => 30
  | .error => 40

def Severity.name : Severity → String
  | .debug => "DEBUG"
  | .info => "INFO"
  | .warning => "WARNING"
  | .error => "ERROR"

/-- The parts of the program that report. -/
inductive Topic where
  | parsing
  | writing
  | generation
  | scaffolding
  | batch
  | configuration
  deriving DecidableEq, Repr

def Topic.name : Topic → String
  | .parsing => "crudgen.core.services.type_parser"
  | .writing => "crudgen.core.services.merge"
  | .generation => "crudgen.core.services.two_phase"
  | .scaffolding => "crudgen.core.use_cases.scaffold"
  | .batch => "crudgen.core.use_cases.generate"
  | .configuration => "crudgen.core.config.loader"

/-- One report. -/
structure Record where
  severity : Severity
  topic : Topic
  message : String
  deriving DecidableEq, Repr

end Stencil.Log
