import Std.Time.Zoned
import Stencil.Disk.Basic
import Stencil.Script
import Stencil.Text.Utf8

/-!
# Stencil — scripts on the machine

Carries a script out on the machine itself: every step becomes the requests to
the system that answer it. Nothing is decided here; a request that the system
refuses is answered with the reason, and one refused for a reason that no
script knows ends the run.
-/

namespace Stencil.Machine

open Stencil.Disk

/-- Where log records go: how they are laid out, and the log file while it is
open. -/
structure OpenLog where
  setup : Log.Setup
  file? : Option IO.FS.Handle

/-- A run on the machine. It knows where log records go. -/
abbrev Run := StateT (Option OpenLog) IO

/-- The number under which an error is reported. -/
def reportedNumber? : IO.Error → Option UInt32
  | .alreadyExists _ n _ | .otherError n _ | .resourceBusy n _ | .resourceVanished n _
  | .unsupportedOperation n _ | .hardwareFault n _ | .unsatisfiedConstraints n _
  | .illegalOperation n _ | .protocolError n _ | .timeExpired n _ | .interrupted _ n _
  | .noFileOrDirectory _ n _ | .invalidArgument _ n _ | .permissionDenied _ n _
  | .resourceExhausted _ n _ | .inappropriateType _ n _ | .noSuchThing _ n _ => some n
  | .unexpectedEof | .userError _ => none

/-- The number under which the system knows an error. Some are reported with a
minus sign. -/
def errorNumber? (e : IO.Error) : Option Nat :=
  (reportedNumber? e).map fun n => n.toInt32.toInt.natAbs

/-- A request, and the reason if it is refused. -/
def request {α : Type} (action : IO α) : IO (Except Errno α) := do
  try
    return .ok (← action)
  catch e =>
    match (errorNumber? e).bind Errno.ofNumber? with
    | some code => return .error code
    | none => throw e

/-- A request about a path, which cannot hold the null character. -/
def requestAt {α : Type} (p : Path) (action : String → IO α) : IO (Except Fault α) := do
  if p.hasNul then return .error .nul
  else return (← request (action p.text)).mapError fun code => .refused code p.text

/-- Whether a written path leads to anything. Opening what is not there tells
why it is not; only a name that is too long is a failure. -/
def leadsSomewhere (p : Path) (text : String) : IO (Except Fault Bool) := do
  if p.hasNul then return .ok false
  try
    let _ ← IO.FS.realPath text
    return .ok true
  catch _ =>
    match ← request (IO.FS.Handle.mk text .read) with
    | .error .nameTooLong => return .error (.refused .nameTooLong p.text)
    | .error _ => return .ok false
    | .ok _ => return .ok true

def exists? (p : Path) : IO (Except Fault Bool) :=
  leadsSomewhere p p.text

/-- A directory holds itself under the name `.`, and nothing else does. -/
def isDirectory? (p : Path) : IO (Except Fault Bool) :=
  leadsSomewhere p (p.text ++ "/.")

def isFile? (p : Path) : IO (Except Fault Bool) := do
  match ← exists? p, ← isDirectory? p with
  | .ok isThere, .ok isDirectory => return .ok (isThere && !isDirectory)
  | .error fault, _ => return .error fault
  | _, .error fault => return .error fault

def read (p : Path) : IO (Except Fault (List UInt8)) :=
  requestAt p fun text => return (← IO.FS.readBinFile text).toList

/-- The permissions of what is there are not to be had here; they count as
those of a new file. -/
def mode (p : Path) : IO (Except Fault Nat) := do
  match ← exists? p with
  | .ok true => return .ok newFileMode
  | .ok false => return .error (.refused .noEntry p.text)
  | .error fault => return .error fault

/-- What one digit of permissions allows. -/
def accessRight (digit : Nat) : IO.AccessRight where
  read := digit.testBit 2
  write := digit.testBit 1
  execution := digit.testBit 0

def setMode (p : Path) (mode : Nat) : IO (Except Fault Unit) :=
  requestAt p fun text =>
    IO.setAccessRights text
      ⟨accessRight (mode / 64), accessRight (mode / 8), accessRight mode⟩

/-- The path with the working directory in front if it starts there. -/
def absolute (p : Path) : IO Path :=
  return (Path.ofText (toString (← IO.currentDir))).join p

/-- The characters of a fresh name. -/
def freshCharacters : List Char := "abcdefghijklmnopqrstuvwxyz0123456789_".toList

/-- A name that is most likely not taken. -/
def freshPart : IO String := do
  let picks ← (List.range 8).mapM fun _ => IO.rand 0 (freshCharacters.length - 1)
  return String.ofList (picks.filterMap (freshCharacters[·]?))

/-- Makes an empty temporary file beside the file at a path. A name that is
taken is passed over, as often as there are tries. -/
def makeTemporary (p : Path) : (tries : Nat) → IO (Except Fault Path)
  | 0 => return .error (.refused .alreadyThere p.text)
  | tries + 1 => do
    let directory ← absolute p.parent
    let temporary := directory.child ("." ++ p.name ++ "." ++ (← freshPart) ++ ".tmp")
    match ← requestAt temporary fun text => IO.FS.Handle.mk text .writeNew with
    | .error (.refused .alreadyThere _) => makeTemporary p tries
    | .error fault => return .error fault
    | .ok _ => return (← setMode temporary 0o600).map fun _ => temporary

/-- The number of names that are tried for a temporary file. -/
def temporaryTries : Nat := 100

def fill (p : Path) (bytes : List UInt8) : IO (Except Fault Unit) :=
  requestAt p fun text => IO.FS.writeBinFile text ⟨bytes.toArray⟩

def rename (source target : Path) : IO (Except Fault Unit) := do
  if source.hasNul || target.hasNul then return .error .nul
  let answer ← request (IO.FS.rename source.text target.text)
  return answer.mapError fun code => .refusedPair code source.text target.text

/-- Walks names from a path without links. What is not there is walked as it
is written. -/
def resolveNames (p : Path) : List String → IO Path
  | [] => return p
  | ".." :: rest => resolveNames p.parent rest
  | name :: rest => do
    let next := p.child name
    match ← request (IO.FS.realPath next.text) with
    | .ok real => resolveNames (Path.ofText (toString real)) rest
    | .error _ => resolveNames next rest

def resolve (p : Path) : IO (Except Fault Path) := do
  if p.hasNul then return .error .nul
  let full ← absolute p
  return .ok (← resolveNames ⟨full.anchor, []⟩ full.parts)

/-- A number with two digits at least. -/
def twoDigits (n : Nat) : String :=
  if n < 10 then "0" ++ toString n else toString n

/-- The time in a format. -/
def writeTime (t : Std.Time.PlainDateTime) : List Char → String
  | '%' :: 'Y' :: rest => toString t.year.toInt ++ writeTime t rest
  | '%' :: 'm' :: rest => twoDigits t.month.toNat ++ writeTime t rest
  | '%' :: 'd' :: rest => twoDigits t.day.toNat ++ writeTime t rest
  | '%' :: 'H' :: rest => twoDigits t.hour.toNat ++ writeTime t rest
  | '%' :: 'M' :: rest => twoDigits t.minute.toNat ++ writeTime t rest
  | '%' :: 'S' :: rest => twoDigits t.second.toNat ++ writeTime t rest
  | c :: rest => c.toString ++ writeTime t rest
  | [] => ""

/-- The stamp of a record that is laid out now. Records do not know which line
of the program they come from. -/
def stampNow (layout : Log.Layout) : IO Log.Stamp := do
  let now ← Std.Time.PlainDateTime.now
  return ⟨writeTime now (layout.timeFormat?.getD "").toList, "0"⟩

def print (text : String) : IO Unit := do
  let out ← IO.getStdout
  out.putStr text
  out.flush

/-- Writes a record wherever records go. -/
def log (r : Log.Record) : Run Unit := do
  if let some ⟨setup, handle?⟩ ← get then
    let layout := Log.consoleLayout setup.console
    IO.eprint (layout.writeFrom setup.console (← stampNow layout) r)
    if let (some file, some handle) := (setup.file?, handle?) then
      handle.putStr
        (Log.Layout.file.writeFrom file.threshold (← stampNow Log.Layout.file) r)
      handle.flush

/-- Sets where records go; a log file is opened at once. -/
def setLog (setup : Log.Setup) : Run (Except Fault Unit) := do
  match setup.file? with
  | none =>
    set (some (⟨setup, none⟩ : OpenLog))
    return .ok ()
  | some file =>
    match ← requestAt (← absolute (.ofText file.name)) fun text =>
        IO.FS.Handle.mk text .append with
    | .error fault => return .error fault
    | .ok handle =>
      set (some (⟨setup, some handle⟩ : OpenLog))
      return .ok ()

/-- The answer to one step. -/
def perform : (call : Call) → Run call.Answer
  | .exists? path => exists? path
  | .isFile? path => isFile? path
  | .isDirectory? path => isDirectory? path
  | .read path => read path
  | .mode path => mode path
  | .makeDirectory path => requestAt path fun text => IO.FS.createDir text
  | .makeTemporary path => makeTemporary path temporaryTries
  | .fill path bytes => fill path bytes
  | .setMode path mode => setMode path mode
  | .rename source target => rename source target
  | .remove path => requestAt path fun text => IO.FS.removeFile text
  | .resolve path => resolve path
  | .workingDirectory => return Path.ofText (toString (← IO.currentDir))
  | .setLog setup => setLog setup
  | .log record => log record
  | .print text => print text
  | .complain text => IO.eprint text

/-- Carries a script out. -/
def carryOut {α : Type} : Script α → Run α
  | .done a => return a
  | .ask call next => do
    let answer ← perform call
    carryOut (next answer)

end Stencil.Machine
