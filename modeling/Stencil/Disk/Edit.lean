import Stencil.Disk.Calls

/-!
# Stencil — edits by hand

What someone does to a disk besides the program: writing a file in place,
setting a link. `changes` tells two disks apart, as seen from the working
directory; permissions do not count.
-/

namespace Stencil.Disk

/-- Writes a file in place; a new one has the permissions of new files. -/
def writeInPlace (d : Disk) (p : Path) (content : List UInt8) : Except Fault Disk :=
  if p.hasNul then .error .nul
  else
    match d.locate .making p with
    | .error code => .error (.refused code p.text)
    | .ok place =>
      match d.look place with
      | some (.directory _) => .error (.refused .isDirectory p.text)
      | some e => .ok (d.put place (.file content e.mode))
      | none => .ok (d.put place (.file content newFileMode))

/-- Sets a link where nothing is. What it leads to need not be there, but it
must be something that could be a path. -/
def makeLink (d : Disk) (p : Path) (target : String) : Except Fault Disk :=
  let refuse (code : Errno) : Except Fault Disk := .error (.refusedPair code target p.text)
  if p.hasNul || target.toList.contains '\x00' then .error .nul
  else if target = "" then refuse .noEntry
  else if pathLimit ≤ target.utf8ByteSize then refuse .nameTooLong
  else
    match d.locate .atLink p with
    | .error code => refuse code
    | .ok place =>
      match d.look place with
      | some _ => refuse .alreadyThere
      | none => .ok (d.put place (.link target))

/-- Whether two entries are the same apart from their permissions. -/
def Entry.sameContent : Entry → Entry → Bool
  | .file a _, .file b _ => a == b
  | .directory _, .directory _ => true
  | .link a, .link b => a == b
  | _, _ => false

/-- Whether the same lies at a place, permissions apart. -/
def sameContent : Option Entry → Option Entry → Bool
  | some a, some b => a.sameContent b
  | none, none => true
  | _, _ => false

/-- The path of a place below the working directory, seen from there. -/
def fromHere? (d : Disk) (place : Place) : Option Path :=
  if d.here.isSuffixOf place ∧ place ≠ d.here then
    some ⟨.here, (place.take (place.length - d.here.length)).reverse⟩
  else none

/-- The places below the working directory that differ, with what lies there
on the second disk. -/
def changes (old new : Disk) : List (Path × Option Entry) :=
  ((old.entries ++ new.entries).map (·.1)).eraseDups.filterMap fun place =>
    if sameContent (old.look place) (new.look place) then none
    else (new.fromHere? place).map fun p => (p, new.look place)

end Stencil.Disk
