import Stencil.Naming.ModuleName
import Stencil.Text.Quoted

/-!
# Stencil — what is wrong with given data

Data that does not fit is refused with a report that names every fault: where
it stands and what the problem is. The parts of one value are all looked at,
so a report can hold several faults.
-/

namespace Stencil.Check

/-- One step from a value to a part of it. -/
inductive Step where
  | field (name : String)
  | item (index : Nat)
  deriving DecidableEq, Repr

/-- Why a value of the right kind is refused all the same. -/
inductive Refusal where
  | moduleName (flaw : Naming.NameFlaw)
  | repeatedModules (names : List String)
  | fieldName (name : String)
  | emptyType
  | repeatedField (name : String)
  | operationName (name : String)
  | repeatedOperations (names : List String)
  | noOperations
  deriving DecidableEq, Repr

/-- What is wrong with a value. -/
inductive Problem where
  | missing
  | notText
  | undecodableText
  | notFlag
  | unreadableFlag
  | notWhole
  | unreadableWhole
  | oversizedWhole
  | fractional
  | notFinite
  | notList
  | notSequence
  | notRecord (kind : String)
  | notPath
  | notOneOf (choices : List String)
  | refused (reason : Refusal)
  deriving DecidableEq, Repr

/-- A problem and the place of the value that has it. -/
structure Fault where
  place : List Step
  problem : Problem
  deriving DecidableEq, Repr

/-- Every fault of a value. -/
structure Report where
  /-- What the value was meant to be. -/
  title : String
  faults : List Fault
  deriving DecidableEq, Repr

def Step.text : Step → String
  | .field name => name
  | .item index => toString index

/-- Names with a comma and a space between them. -/
def listed (names : List String) : String :=
  ", ".intercalate names

def Refusal.message : Refusal → String
  | .moduleName flaw => flaw.message
  | .repeatedModules names => "duplicate module names: " ++ listed names
  | .fieldName name => "not an identifier: " ++ Text.quoted name
  | .emptyType => "type expression must not be empty"
  | .repeatedField name => "duplicate field name: " ++ Text.quoted name
  | .operationName name => "custom operation is not an identifier: " ++ Text.quoted name
  | .repeatedOperations names => "duplicate custom operations: " ++ listed names
  | .noOperations => "custom api type needs at least one custom name"

/-- The short name of a problem. -/
def Problem.code : Problem → String
  | .missing => "missing"
  | .notText => "string_type"
  | .undecodableText => "string_unicode"
  | .notFlag => "bool_type"
  | .unreadableFlag => "bool_parsing"
  | .notWhole => "int_type"
  | .unreadableWhole => "int_parsing"
  | .oversizedWhole => "int_parsing_size"
  | .fractional => "int_from_float"
  | .notFinite => "finite_number"
  | .notList => "list_type"
  | .notSequence => "tuple_type"
  | .notRecord _ => "model_type"
  | .notPath => "path_type"
  | .notOneOf _ => "literal_error"
  | .refused _ => "value_error"

/-- Choices between quotes, the last one after `or`. -/
def choiceText (choices : List String) : String :=
  let shown := choices.map fun c => "'" ++ c ++ "'"
  match shown.getLast? with
  | none => ""
  | some final =>
    if shown.dropLast.isEmpty then final else listed shown.dropLast ++ " or " ++ final

def Problem.message : Problem → String
  | .missing => "Field required"
  | .notText => "Input should be a valid string"
  | .undecodableText =>
    "Input should be a valid string, unable to parse raw data as a unicode string"
  | .notFlag => "Input should be a valid boolean"
  | .unreadableFlag => "Input should be a valid boolean, unable to interpret input"
  | .notWhole => "Input should be a valid integer"
  | .unreadableWhole =>
    "Input should be a valid integer, unable to parse string as an integer"
  | .oversizedWhole => "Unable to parse input string as an integer, exceeded maximum size"
  | .fractional => "Input should be a valid integer, got a number with a fractional part"
  | .notFinite => "Input should be a finite number"
  | .notList => "Input should be a valid list"
  | .notSequence => "Input should be a valid tuple"
  | .notRecord kind => "Input should be a valid dictionary or instance of " ++ kind
  | .notPath => "Input is not a valid path for <class 'pathlib.Path'>"
  | .notOneOf choices => "Input should be " ++ choiceText choices
  | .refused reason => "Value error, " ++ reason.message

/-- The lines of a report that tell of one fault. A fault of the whole value
has no line for its place. -/
def Fault.text (f : Fault) : String :=
  let place :=
    match f.place with
    | [] => ""
    | steps => "\n" ++ ".".intercalate (steps.map Step.text)
  place ++ "\n  " ++ f.problem.message ++ " [type=" ++ f.problem.code ++ "]"

/-- The report as a message of several lines. -/
def Report.message (r : Report) : String :=
  toString r.faults.length ++
    (if r.faults.length = 1 then " validation error for " else " validation errors for ") ++
    r.title ++ String.join (r.faults.map Fault.text)

end Stencil.Check
