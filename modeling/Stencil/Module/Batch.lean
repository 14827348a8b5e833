import Stencil.Module.Generate

/-!
# Stencil — generating several modules

Modules are independent of each other: what goes wrong in one is recorded with
it, and the others are generated all the same. Outcomes come in the order of
the requests.
-/

namespace Stencil.Module

/-- What became of one module. -/
structure Outcome where
  moduleName : String
  modulePath : Disk.Path
  files : List WrittenFile
  failure? : Option Failure
  deriving DecidableEq, Repr

/-- Whether the module was generated. -/
def Outcome.isOk (o : Outcome) : Bool :=
  o.failure?.isNone

/-- What became of a batch. -/
structure BatchResult where
  modules : List Outcome
  isDryRun : Bool
  deriving DecidableEq, Repr

namespace BatchResult

/-- The modules that were not generated. -/
def failed (b : BatchResult) : List Outcome :=
  b.modules.filter (!·.isOk)

/-- Whether every module was generated. -/
def isOk (b : BatchResult) : Bool :=
  b.modules.all Outcome.isOk

/-- How many files were treated in one way. -/
def count (b : BatchResult) (a : Action) : Nat :=
  (b.modules.flatMap (·.files)).countP (·.action = a)

end BatchResult

/-- Whether a failure is one of a module's own files: it is recorded with the
module. -/
def isModuleFailure : Failure → Bool
  | .generation _ _ _ => true
  | .conflict _ _ => true
  | failure => failure.isDiskRefusal

/-- Generates one module and records what became of it. -/
def generateModule (r : Request) : Work Outcome := do
  match ← Work.outcome (generate r) with
  | .ok files => return ⟨r.moduleName, r.modulePath, files, none⟩
  | .error failure =>
    if isModuleFailure failure then
      Work.log .warning .batch
        ("Module '" ++ r.moduleName ++ "' failed: " ++ failure.message)
      return ⟨r.moduleName, r.modulePath, [], some failure⟩
    else throw failure

/-- Generates modules one after the other; a failure that is not a module's own
ends the batch at once. -/
def generateInTurn (requests : List Request) : Work (List Outcome) :=
  requests.mapM generateModule

/-- The values, or the first failure. -/
def firstFailure {α : Type} : List (Except Failure α) → Except Failure (List α)
  | [] => .ok []
  | .ok a :: rest => (firstFailure rest).map (a :: ·)
  | .error failure :: _ => .error failure

/-- Generates modules side by side; a failure that is not a module's own ends
the batch when all modules are done. -/
def generateTogether (requests : List Request) : Work (List Outcome) := do
  let outcomes ← requests.mapM fun r => Work.outcome (generateModule r)
  Work.ofExcept id (firstFailure outcomes)

/-- Generates every requested module with at most `jobs` of them at a time. -/
def generateAll (requests : List Request) (jobs : Int) : Work BatchResult := do
  let outcomes ←
    if jobs ≤ 1 ∨ requests.length ≤ 1 then generateInTurn requests
    else generateTogether requests
  return ⟨outcomes, requests.any (·.isDryRun)⟩

end Stencil.Module
