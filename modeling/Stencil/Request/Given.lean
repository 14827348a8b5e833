import Stencil.Check.Reader
import Stencil.Identifier
import Stencil.Request.Basic

/-!
# Stencil — requests given as data

Reading an api type and a request from data. Every field is looked at, and a
rule about a whole value is asked only when all its fields are right.
-/

namespace Stencil

open Stencil.Check

/-- The first rule that custom operation names break: each is an identifier,
and no two are the same. -/
def operationsRefusal? (names : List String) : Option Refusal :=
  match names.find? fun n => !isDeclarable n with
  | some name => some (.operationName name)
  | none =>
    match repeated names with
    | [] => none
    | again => some (.repeatedOperations again)

def readOperations (d : Data) : Checked (List String) :=
  match readItems .notSequence readText d with
  | .error faults => .error faults
  | .ok names =>
    match operationsRefusal? names with
    | none => .ok names
    | some reason => refuse (.refused reason)

namespace ApiType

/-- An api type of these parts: a custom one has at least one operation. -/
def ofParts (kind : ApiKind) (customNames : List String) : Checked ApiType :=
  if kind = .custom ∧ customNames = [] then refuse (.refused .noOperations)
  else .ok ⟨kind, customNames⟩

/-- The api type that a record describes. -/
def ofEntries (entries : List (Data × Data)) : Checked ApiType :=
  match
    both (field entries "type" (some .crud) (readChoice ApiKind.choices))
      (field entries "custom_names" (some []) readOperations) with
  | .ok (kind, customNames) => ofParts kind customNames
  | .error faults => .error faults

def read : Data → Checked ApiType
  | .record entries => ofEntries entries
  | _ => refuse (.notRecord "ApiType")

/-- The api type that a record describes, given on its own. -/
def ofData (entries : List (Data × Data)) : Except Report ApiType :=
  match ofEntries entries with
  | .ok t => .ok t
  | .error faults => .error ⟨"ApiType", faults⟩

end ApiType

def readModuleName (d : Data) : Checked String :=
  match readText d with
  | .error faults => .error faults
  | .ok given =>
    match Naming.checkModuleName given with
    | .ok name => .ok name
    | .error flaw => refuse (.refused (.moduleName flaw))

def readPath : Data → Checked Disk.Path
  | .text value => .ok (.ofText value)
  | _ => refuse .notPath

namespace Request

/-- What a request holds where its record says nothing. -/
structure Defaults where
  modulePath? : Option Disk.Path
  apiType : ApiType
  isAppend : Bool
  framework : Framework
  isDryRun : Bool
  deriving DecidableEq, Repr

/-- The defaults of a request that stands on its own. -/
def Defaults.plain : Defaults :=
  ⟨none, .crud, false, .express, false⟩

/-- The request that a record describes. -/
def ofData (defaults : Defaults) (entries : List (Data × Data)) : Except Report Request :=
  let moduleName := field entries "module_name" none readModuleName
  let modulePath := field entries "module_path" defaults.modulePath? readPath
  let apiType := field entries "api_type" (some defaults.apiType) ApiType.read
  let isAppend := field entries "append_mode" (some defaults.isAppend) readFlag
  let framework :=
    field entries "framework" (some defaults.framework) (readChoice Framework.choices)
  let isDryRun := field entries "dry_run" (some defaults.isDryRun) readFlag
  match
    both moduleName (both modulePath (both apiType (both isAppend
      (both framework isDryRun)))) with
  | .ok (name, path, apiType, isAppend, framework, isDryRun) =>
    .ok ⟨name, path, apiType, isAppend, framework, isDryRun⟩
  | .error faults => .error ⟨"ModuleGenerationRequest", faults⟩

/-- The request for the module of that name with these defaults and the
overrides that say something. -/
def ofName (name : String) (defaults : Defaults) (overrides : List (Data × Data)) :
    Except Report Request :=
  ofData defaults ((.text "module_name", .text name) :: overrides.filter (!·.2.isNull))

end Request

end Stencil
