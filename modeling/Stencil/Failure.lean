import Stencil.Check.Report
import Stencil.Disk.Fault
import Stencil.Payload.ParseError
import Stencil.Region
import Stencil.Text.Utf8
import Stencil.Yaml.Fault

/-!
# Stencil — failures

Everything that can end a piece of work, by cause, with the message it gives
and the kind under which it is reported.
-/

namespace Stencil

/-- Why a file cannot be merged into. -/
inductive ConflictReason where
  | region (flaw : Region.Flaw)
  /-- The file is no text; the number counts the bytes before the fault. -/
  | undecodable (position : Nat)
  deriving DecidableEq, Repr

def ConflictReason.message : ConflictReason → String
  | .region flaw => flaw.message
  | .undecodable position =>
    "existing file is not valid UTF-8 (byte " ++ toString position ++ ")"

/-- The name of the configuration file. -/
def configFileName : String := "crudgen.yml"

/-- Why there is no configuration. -/
inductive ConfigFault where
  | notFound
  | noFile (path : String)
  | unreadable (path : String) (fault : Disk.Fault)
  | malformed (path : String)
  | notARecord (path kind : String)
  | invalid (report : Check.Report)
  deriving DecidableEq, Repr

/-- The details of a malformed text are not given; `<yaml>` stands for them. -/
def ConfigFault.message : ConfigFault → String
  | .notFound => "No " ++ configFileName ++ " found. Create one, or specify --config."
  | .noFile path => "Config file not found: " ++ path
  | .unreadable path fault => "Cannot read " ++ path ++ ": " ++ fault.message
  | .malformed path => "Invalid YAML in " ++ path ++ ": <yaml>"
  | .notARecord path kind => "Expected a YAML mapping in " ++ path ++ ", got " ++ kind
  | .invalid report => "Invalid crudgen configuration: " ++ report.message

/-- What ended a piece of work. -/
inductive Failure where
  | disk (fault : Disk.Fault)
  /-- The directory of a module is missing. -/
  | noModule (path : String)
  | undecodable (fault : Text.Utf8.Fault)
  | conflict (path : String) (reason : ConflictReason)
  /-- Generated text without a region of its own. -/
  | unmarked (path : String) (flaw : Region.Flaw)
  | parse (cause : Payload.ParseError)
  | generation (moduleName operation : String) (cause : Payload.ParseError)
  | config (cause : ConfigFault)
  | invalid (report : Check.Report)
  | unknownModule (name : String)
  | yamlValue (fault : Yaml.ValueFault)
  deriving DecidableEq, Repr

namespace Text.Utf8

def Flaw.message : Flaw → String
  | .start => "invalid start byte"
  | .continuation => "invalid continuation byte"
  | .truncated => "unexpected end of data"

/-- Names the byte if there is one, and else the span of bytes. -/
def Fault.message (f : Fault) : String :=
  let place :=
    match f.bytes with
    | [b] =>
      "byte 0x" ++ String.ofList (hexDigits 2 b.toNat) ++ " in position " ++
        toString f.position
    | bytes =>
      "bytes in position " ++ toString f.position ++ "-" ++
        toString (f.position + bytes.length - 1)
  "'utf-8' codec can't decode " ++ place ++ ": " ++ f.flaw.message

end Text.Utf8

namespace Failure

def message : Failure → String
  | disk fault => fault.message
  | noModule path => "Module path not found: " ++ path
  | undecodable fault => fault.message
  | conflict path reason => path ++ ": " ++ reason.message
  | unmarked path flaw =>
    "generated content for " ++ path ++ " is not marker-wrapped: " ++ flaw.message
  | parse cause => cause.message
  | generation moduleName operation cause =>
    "module '" ++ moduleName ++ "', operation '" ++ operation ++ "': " ++ cause.message
  | config cause => cause.message
  | invalid report => report.message
  | unknownModule name => Text.quoted name
  | yamlValue fault => fault.message

/-- The kind of failure, as named in reports. -/
def kindName : Failure → String
  | disk fault => fault.kindName
  | noModule _ => "FileNotFoundError"
  | undecodable _ => "UnicodeDecodeError"
  | conflict _ _ => "MergeConflict"
  | unmarked _ _ => "ValueError"
  | parse _ => "ParseError"
  | generation _ _ _ => "GenerationError"
  | config _ => "ConfigError"
  | invalid _ => "ValidationError"
  | unknownModule _ => "KeyError"
  | yamlValue fault => fault.kindName

/-- Whether the disk refused something: a missing module counts as that. -/
def isDiskRefusal : Failure → Bool
  | disk fault => fault.isRefusal
  | noModule _ => true
  | _ => false

/-- Whether a value that was given is to blame. -/
def isValueFault : Failure → Bool
  | disk .nul => true
  | undecodable _ => true
  | unmarked _ _ => true
  | invalid _ => true
  | yamlValue fault => fault.kindName == "ValueError"
  | _ => false

end Failure

end Stencil
