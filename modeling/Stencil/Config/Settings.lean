import Stencil.Request.Given

/-!
# Stencil — settings

What a configuration file says: the modules of a project and the defaults for
generating them.
-/

namespace Stencil

open Stencil.Check

/-- One module of a project. -/
structure ModuleEntry where
  name : String
  /-- The directory, where it is not the usual one. -/
  path? : Option String
  apiType : ApiType
  deriving DecidableEq, Repr

/-- The settings of a project. -/
structure Settings where
  version : Int
  framework : Framework
  /-- Where modules without a path of their own lie. -/
  apisDirectory : String
  isAppend : Bool
  modules : List ModuleEntry
  deriving DecidableEq, Repr

namespace ModuleEntry

/-- The entry that data describe. -/
def read : Data → Checked ModuleEntry
  | .record entries =>
    let name := field entries "name" none readModuleName
    let path? := field entries "path" (some none) (nullable readText)
    let apiType := field entries "api_type" (some ApiType.crud) ApiType.read
    match both name (both path? apiType) with
    | .ok (name, path?, apiType) => .ok ⟨name, path?, apiType⟩
    | .error faults => .error faults
  | _ => refuse (.notRecord "ModuleEntry")

/-- An entry that says nothing but its name. -/
def plain (name : String) : ModuleEntry :=
  ⟨name, none, .crud⟩

end ModuleEntry

/-- The modules of a project: no two have the same name. -/
def readModules (d : Data) : Checked (List ModuleEntry) :=
  match readItems .notList ModuleEntry.read d with
  | .error faults => .error faults
  | .ok modules =>
    match repeated (modules.map (·.name)) with
    | [] => .ok modules
    | again => refuse (.refused (.repeatedModules again))

namespace Settings

/-- The directory of modules when nothing else is said. -/
def usualApisDirectory : String := "src/apis"

/-- The settings that a record describes. -/
def ofEntries (entries : List (Data × Data)) : Checked Settings :=
  let version := field entries "version" (some 1) readWhole
  let framework := field entries "framework" (some .express) (readChoice Framework.choices)
  let apisDirectory := field entries "apis_dir" (some usualApisDirectory) readText
  let isAppend := field entries "append_mode" (some false) readFlag
  let modules := field entries "modules" (some []) readModules
  match both version (both framework (both apisDirectory (both isAppend modules))) with
  | .ok (version, framework, apisDirectory, isAppend, modules) =>
    .ok ⟨version, framework, apisDirectory, isAppend, modules⟩
  | .error faults => .error faults

/-- The settings that data describe. -/
def ofData (d : Data) : Except Report Settings :=
  let checked :=
    match d with
    | .record entries => ofEntries entries
    | _ => refuse (.notRecord "GeneratorConfig")
  match checked with
  | .ok settings => .ok settings
  | .error faults => .error ⟨"GeneratorConfig", faults⟩

/-- The entry of the module of that name. -/
def find? (s : Settings) (name : String) : Option ModuleEntry :=
  s.modules.find? (·.name == name)

/-- Where a module lies, as written, seen from the root of the project. -/
def directoryText (s : Settings) (e : ModuleEntry) : String :=
  match e.path?.filter (· ≠ "") with
  | some path => path
  | none => s.apisDirectory ++ "/" ++ Naming.kebabCase e.name

/-- Where a module lies, before links are followed. -/
def directory (s : Settings) (root : Disk.Path) (e : ModuleEntry) : Disk.Path :=
  match e.path?.filter (· ≠ "") with
  | some path => root.join (.ofText path)
  | none =>
    (root.join (.ofText s.apisDirectory)).join (.ofText (Naming.kebabCase e.name))

/-- What a request holds where nothing else is said. -/
def defaults (s : Settings) (path : Disk.Path) (apiType : ApiType) : Request.Defaults :=
  ⟨some path, apiType, s.isAppend, s.framework, false⟩

end Settings

end Stencil
