import Stencil.Cli.Session
import Stencil.Config.Audit
import Stencil.Module.Report
import Stencil.Module.Scaffold

/-!
# Stencil — the commands

What each command does once its options are known. Results go to the standard
output, as text for people or as one JSON document.
-/

namespace Stencil.Cli

open Stencil.Disk Stencil.Module

/-! ## Checking the configuration -/

/-- Lines with a dot in front. -/
def printPoints (messages : List String) : Session Unit :=
  messages.forM fun m => Session.printLine ("   • " ++ m)

/-- The result of a check, for people. -/
def printAudit (a : Config.Audit) : Session Unit := do
  match a.isValid, a.settings? with
  | true, some s =>
    Session.printLine "✅ Configuration is valid"
    Session.printLine ("   Framework: " ++ s.framework.name)
    Session.printLine ("   Modules: " ++ toString s.modules.length)
  | _, _ =>
    Session.printLine "❌ Configuration errors:"
    printPoints (a.problems.map Config.Problem.message)
  if !a.warnings.isEmpty then
    Session.printLine ""
    Session.printLine "⚠️  Warnings:"
    printPoints (a.warnings.map Config.Warning.message)
  Session.printLine ""

/-- Checks the configuration. -/
def checkConfig (configPath? : Option Path) (isJson : Bool) : Session Unit := do
  let a ← Session.attempt (Config.audit configPath?)
  if isJson then Session.printJson a.json else printAudit a
  Session.exitIf a.isValid

/-! ## Requests from the command line -/

/-- The settings of the project, if it has any, and its root. -/
structure Context where
  settings? : Option Settings
  root : Path
  deriving DecidableEq, Repr

/-- The project that a command works in. Without a configuration file it is the
working directory. -/
def findContext (configPath? : Option Path) : Work (Except ConfigFault Context) := do
  let found? ←
    match configPath? with
    | some path => pure (some path)
    | none => Config.find? none
  match found? with
  | none => return .ok ⟨none, ← Work.workingDirectory⟩
  | some path =>
    match ← Work.outcome (Config.loadFrom path) with
    | .ok s => return .ok ⟨some s, ← Config.projectRoot path⟩
    | .error (.config cause) => return .error cause
    | .error failure => throw failure

/-- What the options of a command say about a module. -/
structure Choices where
  path? : Option String
  custom? : Option String
  framework? : Option Framework
  append? : Option Bool
  isDryRun : Bool
  deriving DecidableEq, Repr

/-- The names between commas. -/
def commaNames (text : String) : List String :=
  ((Text.pieces ',' text.toList).map fun piece => String.ofList (Text.trim piece)).filter
    (· ≠ "")

/-- The operations that an option names, if it names any. -/
def customApiType (custom? : Option String) : Except Failure (Option ApiType) :=
  match custom?.filter (· ≠ "") with
  | none => .ok none
  | some text =>
    let names := commaNames text
    match
      ApiType.ofData
        [(.text "type", .text ApiKind.custom.name),
          (.text "custom_names", .list (names.map .text))] with
    | .ok t => .ok (some t)
    | .error report => .error (.invalid report)

/-- Where a module lies that is not configured, or for which a path is given. -/
def givenDirectory (context : Context) (name : String) (path? : Option String) : Path :=
  match path?.filter (· ≠ "") with
  | some path => .ofText path
  | none =>
    let apisDirectory :=
      context.settings?.elim Settings.usualApisDirectory (·.apisDirectory)
    (context.root.join (.ofText apisDirectory)).join (.ofText (Naming.kebabCase name))

/-- The configured module of that name, unless a path is given. -/
def configured? (context : Context) (name : String) (path? : Option String) :
    Option (Settings × ModuleEntry) :=
  match path?, context.settings? with
  | none, some s => (s.find? name).map fun e => (s, e)
  | _, _ => none

/-- The request for one module: what the options say counts more than what the
configuration says. -/
def singleRequest (context : Context) (name : String) (choices : Choices) :
    Work Request := do
  let custom? ← Work.ofExcept id (customApiType choices.custom?)
  let isAppend := choices.append?.getD (context.settings?.elim false (·.isAppend))
  let framework := choices.framework?.getD (context.settings?.elim .express (·.framework))
  let defaults (path : Path) (apiType : ApiType) : Request.Defaults :=
    ⟨some path, custom?.getD apiType, isAppend, framework, choices.isDryRun⟩
  match configured? context name choices.path? with
  | some (s, e) =>
    let path ← s.resolvedDirectory context.root e
    Work.ofExcept .invalid (Request.ofName e.name (defaults path e.apiType) [])
  | none =>
    let path ← Work.resolve (givenDirectory context name choices.path?)
    Work.ofExcept .invalid (Request.ofName name (defaults path .crud) [])

/-- The overrides that the options of a command give every module. -/
def overridesOf (choices : Choices) : List (Data × Data) :=
  [(.text "framework", choices.framework?.elim .null fun f => .text f.name),
    (.text "append_mode", choices.append?.elim .null .bool),
    (.text "dry_run", .bool choices.isDryRun)]

/-! ## Reporting files -/

/-- The sign in front of a file. -/
def actionSign : Action → String
  | .created => "+"
  | .replaced => "~"
  | .merged => "≈"
  | .unchanged => "="
  | .skipped => "⊘"

/-- The line that reports a file. -/
def fileLine (f : WrittenFile) : String :=
  "   " ++ actionSign f.action ++ " " ++ Log.padded 9 f.action.name ++ " " ++ f.path.text

def printFiles (files : List WrittenFile) : Session Unit :=
  files.forM fun f => Session.printLine (fileLine f)

/-- What stands in front of a report when nothing is written. -/
def dryRunLabel (isDryRun : Bool) : String :=
  if isDryRun then "[dry-run] " else ""

/-! ## Scaffolding -/

/-- The failures that scaffolding reports by itself. -/
def isReported (failure : Failure) : Bool :=
  failure.isValueFault || failure.isDiskRefusal

/-- A failure as a JSON document. -/
def failureJson (message : String) : Json :=
  .object [("ok", .bool false), ("error", .text message)]

/-- The type files of a module as a JSON document. -/
def stubsJson (r : Request) (files : List WrittenFile) : Json :=
  .object
    [("ok", .bool true), ("module", .text r.moduleName),
      ("files", .list (files.map fun f =>
        .object
          [("path", .text f.path.text), ("operation", .text f.operation),
            ("action", .text f.action.name)]))]

/-- The request for one module and its type files. -/
def scaffoldOne (configPath? : Option Path) (name : String) (choices : Choices)
    (isForced : Bool) : Work (Except ConfigFault (Request × List WrittenFile)) := do
  match ← findContext configPath? with
  | .error cause => return .error cause
  | .ok context =>
    let r ← singleRequest context name choices
    let files ← scaffold r isForced
    return .ok (r, files)

/-- Writes the type files of a module. -/
def scaffoldTypes (configPath? : Option Path) (name : String) (choices : Choices)
    (isForced isJson : Bool) : Session Unit := do
  match ← Session.outcome (scaffoldOne configPath? name choices isForced) with
  | .error failure =>
    if isReported failure then
      if isJson then
        Session.printJson (failureJson failure.message)
        Session.exit 1
      else Session.refuse failure.message
    else throw (.crash failure)
  | .ok (.error cause) => Session.refuse cause.message
  | .ok (.ok (r, files)) =>
    if isJson then Session.printJson (stubsJson r files)
    else
      Session.printLine
        ("📝 " ++ dryRunLabel choices.isDryRun ++ "Types for " ++ r.moduleName)
      printFiles files
      Session.printLine ""

/-! ## Generating -/

/-- Which modules to generate. -/
inductive Selection where
  | one (name : String)
  | all
  deriving DecidableEq, Repr

/-- The selected modules, or how the selection is wrong. -/
def selectModules (name? : Option String) (isAll : Bool) (choices : Choices) :
    Except Misuse Selection :=
  match name?.filter (· ≠ ""), isAll with
  | none, false => .error .nameOrAll
  | some _, true => .error .nameOrAll
  | some name, false => .ok (.one name)
  | none, true =>
    let isGiven (text? : Option String) : Bool := (text?.filter (· ≠ "")).isSome
    if isGiven choices.path? || isGiven choices.custom? then .error .singleOnly
    else .ok .all

/-- Why there are no requests. -/
inductive NoRequests where
  | config (cause : ConfigFault)
  | misuse (m : Misuse)
  deriving DecidableEq, Repr

/-- The requests for the selected modules. -/
def requestsFor (configPath? : Option Path) (choices : Choices) (selection : Selection) :
    Work (Except NoRequests (List Request)) := do
  match ← findContext configPath? with
  | .error cause => return .error (.config cause)
  | .ok context =>
    match selection, context.settings? with
    | .one name, _ =>
      let r ← singleRequest context name choices
      return .ok [r]
    | .all, none => return .error (.misuse .allNeedsConfig)
    | .all, some s =>
      let rs ← s.requests context.root none (overridesOf choices)
      return .ok rs

/-- What became of one module, for people. -/
def printOutcome (label : String) (o : Outcome) : Session Unit := do
  match o.failure? with
  | none =>
    Session.printLine ("⚙️  " ++ label ++ o.moduleName)
    if o.files.isEmpty then
      Session.printLine "   No type files found; nothing generated."
    printFiles o.files
  | some failure =>
    Session.printLine ("❌ " ++ o.moduleName ++ ": " ++ failure.message)
  Session.printLine ""

/-- What became of a batch, for people. -/
def printBatch (label : String) (b : BatchResult) : Session Unit := do
  b.modules.forM (printOutcome label)
  if !b.isOk then
    let total := b.modules.length
    Session.printLine
      ("   " ++ toString (total - b.failed.length) ++ "/" ++ toString total ++
        " module(s) generated")
    Session.exit 1

/-- Generates the selected modules. -/
def generateModules (configPath? : Option Path) (name? : Option String) (isAll : Bool)
    (choices : Choices) (jobs : Int) (isJson : Bool) : Session Unit := do
  match selectModules name? isAll choices with
  | .error m => Session.misuse .generate m
  | .ok selection =>
    match ← Session.outcome (requestsFor configPath? choices selection) with
    | .error failure =>
      if failure.isValueFault then Session.refuse failure.message
      else throw (.crash failure)
    | .ok (.error (.config cause)) => Session.refuse cause.message
    | .ok (.error (.misuse m)) => Session.misuse .generate m
    | .ok (.ok requests) =>
      let b ← Session.attempt (generateAll requests jobs)
      if isJson then
        Session.printJson b.json
        Session.exitIf b.isOk
      else printBatch (dryRunLabel choices.isDryRun) b

/-! ## Inspecting -/

/-- The line that reports a field. -/
def fieldLine (f : Payload.Field) : String :=
  "     • " ++ f.name ++ (if f.isOptional then "?" else " ") ++ " " ++ f.typeText

/-- A payload, for people. -/
def printPayload (path : Path) (p : Payload) : Session Unit := do
  Session.printLine ("🔍 " ++ path.text)
  Session.printLine ("   Fields: " ++ toString p.fields.length)
  p.fields.forM fun f => Session.printLine (fieldLine f)
  Session.printLine ""
  Session.printLine ("   Destructuring: " ++ Payload.destructuring p.fields)
  Session.printLine ("   Field object:  " ++ Payload.fieldObject p.fields)
  Session.printLine "   Validation:"
  (Text.lines (Payload.validationStub p.fields).toList).forM fun l =>
    Session.printLine ("     " ++ String.ofList (Text.withoutEnd l))
  Session.printLine ""

/-- Shows what is read from a type file. -/
def inspectFile (path : Path) (isJson : Bool) : Session Unit := do
  let i ← Session.attempt (inspect path)
  match i.result with
  | .error failure =>
    if isJson then
      Session.printJson i.json
      Session.exit 1
    else Session.refuse failure.message
  | .ok p => if isJson then Session.printJson i.json else printPayload i.path p

end Stencil.Cli
