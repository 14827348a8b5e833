import Stencil.Disk.Fault

/-!
# Stencil — the disk

The disk as a finite map from places to entries. A place is the list of names
that lead to it, innermost first, so that its tail is the directory it lies
in; the root is the empty list and always there. A path is walked name by
name: every name but the last must be a directory or a link to one, and `..`
leaves the directory the walk has come to. What a link leads to must be a
directory too if the link says so with a slash or a dot at its end.
-/

namespace Stencil.Disk

/-- The names that lead to a place, innermost first. -/
abbrev Place := List String

/-- What can lie at a place. -/
inductive Entry where
  | file (bytes : List UInt8) (mode : Nat)
  | directory (mode : Nat)
  | link (target : String)
  deriving DecidableEq, Repr

/-- The permissions of a new directory. -/
def newDirectoryMode : Nat := 0o755

/-- The permissions of a new file. -/
def newFileMode : Nat := 0o644

end Stencil.Disk

namespace Stencil

open Stencil.Disk

/-- What lies where, and the working directory. -/
structure Disk where
  entries : List (Place × Entry)
  here : Place
  deriving DecidableEq, Repr

namespace Disk

/-- What lies at a place. -/
def look (d : Disk) : Place → Option Entry
  | [] => some (.directory newDirectoryMode)
  | place => d.entries.lookup place

/-- The disk with this entry at a place. -/
def put (d : Disk) (place : Place) (e : Entry) : Disk :=
  { d with entries := (place, e) :: d.entries.filter (·.1 ≠ place) }

/-- The disk with nothing at a place. -/
def erase (d : Disk) (place : Place) : Disk :=
  { d with entries := d.entries.filter (·.1 ≠ place) }

/-- A place and the places around it, without the root. -/
def outward : Place → List Place
  | [] => []
  | name :: rest => (name :: rest) :: outward rest

/-- The disk whose working directory and the directories around it hold
nothing else. -/
def empty (here : Place) : Disk :=
  ⟨(outward here).map fun place => (place, .directory newDirectoryMode), here⟩

/-- The place that a path is walked from. -/
def start (d : Disk) (p : Path) : Place :=
  match p.anchor with
  | .here => d.here
  | _ => []

/-- The longest name that a directory can hold, in bytes. -/
def nameLimit : Nat := 255

/-- The length from which on no path is taken, in bytes. -/
def pathLimit : Nat := 4096

/-- The number of links that a walk follows. -/
def linkLimit : Nat := 40

/-- How a walk ends. -/
inductive Arrival where
  /-- A link at the very end is what the path leads to. -/
  | atLink
  /-- Such a link is followed. -/
  | beyond
  /-- Such a link is followed, to a file that may have to be made. -/
  | making
  deriving DecidableEq, Repr

/-- The name that a link ends with if it leads to a directory. -/
def slashName : String := "/"

/-- The name of the directory that a walk has come to. -/
def dotName : String := "."

/-- The names that a link leads along. -/
def linkNames (target : String) : List String :=
  let pieces := (Text.pieces '/' target.toList).reverse
  let final :=
    if (pieces.dropWhile (· = [])).head? = some ['.'] then [dotName]
    else if pieces.head? = some [] then [slashName]
    else []
  (Path.ofText target).parts ++ final

/-- Walks names from a place. A link is handed to `follow` with the place it
leads to the start of and the names that are then to be walked. The last name
may lead to nothing. A file to be made cannot be a directory. -/
def walkNames (d : Disk) (arrival : Arrival)
    (follow : Place → List String → Except Errno Place) :
    Place → List String → Except Errno Place
  | place, [] => .ok place
  | place, name :: rest =>
    match d.look place with
    | none => .error .noEntry
    | some (.directory _) =>
      if name = ".." then walkNames d arrival follow place.tail rest
      else if name = dotName ∨ name = slashName then walkNames d arrival follow place rest
      else if arrival = .making ∧ rest = [slashName] then .error .isDirectory
      else if nameLimit < name.utf8ByteSize then .error .nameTooLong
      else
        match d.look (name :: place) with
        | none => if rest = [] then .ok (name :: place) else .error .noEntry
        | some (.link target) =>
          if rest = [] ∧ arrival = .atLink then .ok (name :: place)
          else
            follow (if (Path.ofText target).isAbsolute then [] else place)
              (linkNames target ++ rest)
        | some _ => walkNames d arrival follow (name :: place) rest
    | some _ => .error .notDirectory

/-- Walks names from a place, following at most `links` links. -/
def walk (d : Disk) (arrival : Arrival) : (links : Nat) → Place → List String →
    Except Errno Place
  | 0 => walkNames d arrival fun _ _ => .error .linkLoop
  | links + 1 => walkNames d arrival (walk d arrival links)

/-- The place that a path leads to. Its directory is there; it may itself hold
nothing. -/
def locate (d : Disk) (arrival : Arrival) (p : Path) : Except Errno Place :=
  if pathLimit ≤ p.text.utf8ByteSize then .error .nameTooLong
  else walk d arrival linkLimit (d.start p) p.parts

/-- What a path leads to. -/
def entryAt (d : Disk) (p : Path) : Except Errno Entry :=
  match d.locate .beyond p with
  | .error code => .error code
  | .ok place =>
    match d.look place with
    | none => .error .noEntry
    | some e => .ok e

end Disk

end Stencil
