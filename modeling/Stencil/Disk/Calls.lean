import Stencil.Disk.Resolve

/-!
# Stencil — requests to the disk

What a program can ask of a disk, one function for each request. A request
that changes something answers with the changed disk, and one that fails
changes nothing.
-/

namespace Stencil.Disk

/-- What a path leads to, or `none` if it leads nowhere. Only a name that is
too long is a failure. -/
def probe (d : Disk) (p : Path) : Except Fault (Option Entry) :=
  if p.hasNul then .ok none
  else
    match d.entryAt p with
    | .ok e => .ok (some e)
    | .error .nameTooLong => .error (.refused .nameTooLong p.text)
    | .error _ => .ok none

/-- Whether the path leads to anything. -/
def exists? (d : Disk) (p : Path) : Except Fault Bool :=
  (d.probe p).map (·.isSome)

def Entry.isFile : Entry → Bool
  | .file _ _ => true
  | _ => false

def Entry.isDirectory : Entry → Bool
  | .directory _ => true
  | _ => false

/-- Whether the path leads to a file. -/
def isFile? (d : Disk) (p : Path) : Except Fault Bool :=
  (d.probe p).map fun e => e.any Entry.isFile

/-- Whether the path leads to a directory. -/
def isDirectory? (d : Disk) (p : Path) : Except Fault Bool :=
  (d.probe p).map fun e => e.any Entry.isDirectory

/-- The bytes of a file. -/
def read (d : Disk) (p : Path) : Except Fault (List UInt8) :=
  if p.hasNul then .error .nul
  else
    match d.entryAt p with
    | .ok (.file bytes _) => .ok bytes
    | .ok _ => .error (.refused .isDirectory p.text)
    | .error code => .error (.refused code p.text)

/-- The permissions of an entry. -/
def Entry.mode : Entry → Nat
  | .file _ mode => mode
  | .directory mode => mode
  | .link _ => 0o777

/-- The permissions of what a path leads to. -/
def modeAt (d : Disk) (p : Path) : Except Fault Nat :=
  if p.hasNul then .error .nul
  else
    match d.entryAt p with
    | .ok e => .ok e.mode
    | .error code => .error (.refused code p.text)

/-- Makes one directory. -/
def makeDirectory (d : Disk) (p : Path) : Except Fault Disk :=
  if p.hasNul then .error .nul
  else
    match d.locate .atLink p with
    | .error code => .error (.refused code p.text)
    | .ok place =>
      match d.look place with
      | some _ => .error (.refused .alreadyThere p.text)
      | none => .ok (d.put place (.directory newDirectoryMode))

/-- A number as eight characters, filled up with stars. -/
def freshPart (n : Nat) : String :=
  let digits := if n = 0 then [] else Nat.toDigits 10 n
  String.ofList (List.replicate (8 - digits.length) '*' ++ digits)

/-- The name of a temporary file for a file of the given name. -/
def temporaryName (name : String) (n : Nat) : String :=
  "." ++ name ++ "." ++ freshPart n ++ ".tmp"

/-- The path of a new temporary file beside the file at a path: the first that
is not taken. -/
def temporaryPath (d : Disk) (p : Path) : Path :=
  let candidate (n : Nat) : Path := (d.absolute p.parent).child (temporaryName p.name n)
  let taken (n : Nat) : Bool :=
    match d.locate .atLink (candidate n) with
    | .ok place => (d.look place).isSome
    | .error _ => false
  candidate (((List.range (d.entries.length + 1)).find? (!taken ·)).getD 0)

/-- The permissions of a temporary file. -/
def temporaryMode : Nat := 0o600

/-- Makes an empty temporary file beside the file at a path, and answers with
its path. -/
def makeTemporary (d : Disk) (p : Path) : Except Fault (Path × Disk) :=
  let temporary := d.temporaryPath p
  if temporary.hasNul then .error .nul
  else
    match d.locate .atLink temporary with
    | .error code => .error (.refused code temporary.text)
    | .ok place => .ok (temporary, d.put place (.file [] temporaryMode))

/-- Changes the file that a path leads to. -/
def changeFile (d : Disk) (p : Path) (change : List UInt8 → Nat → Entry) :
    Except Fault Disk :=
  match d.locate .beyond p with
  | .error code => .error (.refused code p.text)
  | .ok place =>
    match d.look place with
    | some (.file bytes mode) => .ok (d.put place (change bytes mode))
    | some _ => .error (.refused .isDirectory p.text)
    | none => .error (.refused .noEntry p.text)

/-- Gives a file that is there new content. -/
def fill (d : Disk) (p : Path) (content : List UInt8) : Except Fault Disk :=
  d.changeFile p fun _ mode => .file content mode

/-- Sets the permissions of what a path leads to. -/
def setMode (d : Disk) (p : Path) (mode : Nat) : Except Fault Disk :=
  if p.hasNul then .error .nul
  else
    match d.locate .beyond p with
    | .error code => .error (.refused code p.text)
    | .ok place =>
      match d.look place with
      | some (.file bytes _) => .ok (d.put place (.file bytes mode))
      | some (.directory _) => .ok (d.put place (.directory mode))
      | some (.link _) => .error (.refused .linkLoop p.text)
      | none => .error (.refused .noEntry p.text)

/-- Whether a path ends in a name that something can be put at. -/
def Path.endsInName (p : Path) : Bool :=
  p.name ≠ "" ∧ p.name ≠ ".."

/-- Moves a file to where another path leads, in place of a file or link that
is there. -/
def rename (d : Disk) (source target : Path) : Except Fault Disk :=
  let refuse (code : Errno) : Except Fault Disk :=
    .error (.refusedPair code source.text target.text)
  if source.hasNul || target.hasNul then .error .nul
  else
    match d.locate .atLink source, d.locate .atLink target with
    | .error code, _ => refuse code
    | _, .error code => refuse code
    | .ok origin, .ok place =>
      if !target.endsInName then refuse .busy
      else
        match d.look origin, d.look place with
        | none, _ => refuse .noEntry
        | _, some (.directory _) => refuse .isDirectory
        | some e, _ => .ok ((d.erase origin).put place e)

/-- Removes a file or link. -/
def remove (d : Disk) (p : Path) : Except Fault Disk :=
  if p.hasNul then .error .nul
  else
    match d.locate .atLink p with
    | .error code => .error (.refused code p.text)
    | .ok place =>
      match d.look place with
      | none => .error (.refused .noEntry p.text)
      | some (.directory _) => .error (.refused .isDirectory p.text)
      | some _ => .ok (d.erase place)

/-- Opens a file to add to it: its place, and the disk with an empty file there
if there was none. The path of a failure is written out in full. -/
def openForAppending (d : Disk) (p : Path) : Except Fault (Place × Disk) :=
  let full := d.absolute p
  if full.hasNul then .error .nul
  else
    match d.locate .making full with
    | .error code => .error (.refused code full.text)
    | .ok place =>
      match d.look place with
      | none => .ok (place, d.put place (.file [] newFileMode))
      | some (.directory _) => .error (.refused .isDirectory full.text)
      | some _ => .ok (place, d)

/-- Adds to the end of the file at a place. -/
def appendAt (d : Disk) (place : Place) (content : List UInt8) : Disk :=
  match d.look place with
  | some (.file bytes mode) => d.put place (.file (bytes ++ content) mode)
  | _ => d

end Stencil.Disk
