import Stencil.Yaml.Scalar

/-!
# Stencil — the nodes of a YAML document

A document is a graph: an alias leads to the node with its anchor, and that may
be one of the nodes around it. So the nodes are numbered in the order in which
they begin, and what a list or a map holds are numbers. A node's kind is told by
its tag, or by its form if it has none.
-/

namespace Stencil.Yaml

open Stencil.Text (Letter)

/-- The number of a node. -/
abbrev NodeId := Nat

/-- What a node holds. -/
inductive Content where
  | scalar (text : List Letter)
  | list (items : List NodeId)
  | map (entries : List (NodeId × NodeId))
  deriving DecidableEq, Repr

/-- A node. -/
structure Node where
  kind : Kind
  content : Content
  deriving DecidableEq, Repr

/-- The nodes of a document. -/
abbrev Nodes := Array Node

/-- A scalar with nothing written. -/
def Node.empty : Node :=
  ⟨.null, .scalar []⟩

/-- The node with a number. -/
def Nodes.node (nodes : Nodes) (id : NodeId) : Node :=
  nodes[id]?.getD .empty

/-! ## The kinds that tags name -/

/-- What a tag says about a node. -/
inductive Tag where
  /-- Nothing: the kind and form of the node decide. -/
  | unsaid
  /-- Nothing, and the form of the node counts for nothing either. -/
  | untagged
  | named (address : List Char)
  deriving DecidableEq, Repr

/-- The kinds that an address names. -/
def standardKinds : List (String × Kind) :=
  [("null", .null), ("bool", .bool), ("int", .int), ("float", .real), ("binary", .bytes),
    ("timestamp", .moment), ("omap", .orderedMap), ("pairs", .pairs), ("set", .set),
    ("str", .text), ("seq", .list), ("map", .map), ("merge", .merge), ("value", .value)]

/-- What the addresses of the standard kinds begin with. -/
def standardLeader : List Char :=
  "tag:yaml.org,2002:".toList

/-- The kind that an address names. -/
def kindOfAddress (address : List Char) : Kind :=
  if standardLeader.isPrefixOf address then
    (standardKinds.lookup (String.ofList (address.drop standardLeader.length))).getD .unknown
  else .unknown

/-- The kind that a tag names, or else the one given. -/
def Tag.kindOr (tag : Tag) (kind : Kind) : Kind :=
  match tag with
  | .named address => kindOfAddress address
  | _ => kind

/-- A scalar with a tag. -/
def Node.scalar (tag : Tag) (text : List Letter) : Node :=
  ⟨tag.kindOr (if tag = .unsaid then kindOfForm text else .text), .scalar text⟩

end Stencil.Yaml
