import Stencil.Disk.Basic

/-!
# Stencil — resolved paths

The absolute path without links and without `..` that a path stands for. Names
that lead to nothing stay as they are. `absolute` does the same by the text of
the path alone, as if there were no links.
-/

namespace Stencil.Disk

/-- The names of a path with every `..` taken against the name before it;
innermost first, after the names already passed. -/
def foldNames : Place → List String → Place
  | place, [] => place
  | place, name :: rest => foldNames (if name = ".." then place.tail else name :: place) rest

/-- The path of a place. -/
def pathOf (place : Place) : Path :=
  ⟨.root, place.reverse⟩

/-- How far a path could be resolved. -/
inductive Resolution where
  | done (place : Place)
  /-- A link leads back to itself: the path of that link with what was still to
  be walked behind it. -/
  | stuck (path : Path)
  deriving DecidableEq, Repr

/-- What a text writes between its slashes, without the slash at the front. -/
def stepsOf (text : String) : List String :=
  let pieces := (Text.pieces '/' text.toList).map String.ofList
  if (Path.ofText text).isAbsolute then pieces.tail else pieces

/-- The path that steps write. If one of two slashes in a row is walked past, the
rest starts with the other one and so is a path from the root. -/
def pathOfSteps (steps : List String) : Path :=
  .ofText ("/".intercalate steps)

end Stencil.Disk

namespace Stencil.Disk

open Stencil

/-- The absolute path that a path writes, by its text alone. -/
def absolute (d : Disk) (p : Path) : Path :=
  match p.anchor with
  | .here => pathOf (foldNames d.here p.parts)
  | anchor => ⟨anchor, (foldNames [] p.parts).reverse⟩

/-- Resolves steps from a place. `follow` resolves the link at a place. -/
def resolveSteps (d : Disk) (follow : Place → String → Resolution) :
    Place → List String → Resolution
  | place, [] => .done place
  | place, name :: rest =>
    if name = "" ∨ name = "." then resolveSteps d follow place rest
    else if name = ".." then resolveSteps d follow place.tail rest
    else
      match d.look (name :: place) with
      | some (.link target) =>
        match follow (name :: place) target with
        | .done next => resolveSteps d follow next rest
        | .stuck path => .stuck (path.join (pathOfSteps rest))
      | _ => resolveSteps d follow (name :: place) rest

/-- Resolves the link at a place while the links of `active` are being
resolved. Each of them is passed once, so `depth` need be no more than the
number of links there are. -/
def resolveLink (d : Disk) : (depth : Nat) → (active : List Place) → Place → String →
    Resolution
  | 0, _, place, _ => .stuck (pathOf place)
  | depth + 1, active, place, target =>
    if active.contains place then .stuck (pathOf place)
    else
      resolveSteps d (resolveLink d depth (place :: active))
        (if (Path.ofText target).isAbsolute then [] else place.tail) (stepsOf target)

/-- Resolves a path. -/
def resolution (d : Disk) (p : Path) : Resolution :=
  resolveSteps d (resolveLink d (d.entries.length + 1) []) (d.start p) p.parts

/-- The resolved path. A loop of links is refused, unless the names after it
lead out of it again. -/
def resolve (d : Disk) (p : Path) : Except Fault Path :=
  if p.hasNul then .error .nul
  else
    match d.resolution p with
    | .done place => .ok (pathOf place)
    | .stuck path =>
      let q := d.absolute path
      match d.entryAt q with
      | .error .linkLoop => .error (.loop q.text)
      | _ => .ok q

end Stencil.Disk
