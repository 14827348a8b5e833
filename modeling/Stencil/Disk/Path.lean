import Stencil.Text.Lines

/-!
# Stencil — paths

A path is where it starts and the names on the way. Writing a path down and
reading it again drops what makes no difference: repeated and trailing
slashes and the name `.`. The name `..` stays, because a link may stand
before it. Two slashes at the very front are not the same as one.
-/

namespace Stencil.Disk

/-- Where a path starts: at the working directory, at the root, or at the
place that two slashes stand for. -/
inductive Anchor where
  | here
  | root
  | doubleRoot
  deriving DecidableEq, Repr

/-- A path: its start and the names on the way. -/
structure Path where
  anchor : Anchor
  parts : List String
  deriving DecidableEq, Repr

/-- How the start of a path is written. -/
def Anchor.text : Anchor → String
  | .here => ""
  | .root => "/"
  | .doubleRoot => "//"

namespace Path

/-- The start of a written path. -/
def anchorOf : List Char → Anchor
  | '/' :: '/' :: '/' :: _ => .root
  | '/' :: '/' :: _ => .doubleRoot
  | '/' :: _ => .root
  | _ => .here

/-- The names between the slashes of a written path. -/
def partsOf (cs : List Char) : List String :=
  ((Text.pieces '/' cs).map String.ofList).filter fun p => p ≠ "" ∧ p ≠ "."

/-- The path that a text writes. -/
def ofText (text : String) : Path :=
  ⟨anchorOf text.toList, partsOf text.toList⟩

/-- The written path; the path without names from here is `.`. -/
def text (p : Path) : String :=
  match p.anchor, p.parts with
  | .here, [] => "."
  | anchor, parts => anchor.text ++ "/".intercalate parts

def isAbsolute (p : Path) : Bool :=
  p.anchor ≠ .here

/-- The second path, seen from where the first one leads. -/
def join (base p : Path) : Path :=
  match p.anchor with
  | .here => ⟨base.anchor, base.parts ++ p.parts⟩
  | _ => p

/-- The path with one more name. -/
def child (p : Path) (name : String) : Path :=
  ⟨p.anchor, p.parts ++ [name]⟩

/-- The path without its last name. -/
def parent (p : Path) : Path :=
  ⟨p.anchor, p.parts.dropLast⟩

/-- The last name, empty if there is none. -/
def name (p : Path) : String :=
  p.parts.getLast?.getD ""

/-- Whether the path holds the character that no name can hold. -/
def hasNul (p : Path) : Bool :=
  p.parts.any fun part => part.toList.contains '\x00'

end Path

end Stencil.Disk
