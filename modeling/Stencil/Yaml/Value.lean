import Stencil.Data
import Stencil.Yaml.Document
import Stencil.Yaml.Merge

/-!
# Stencil — the value of a YAML text

The nodes of a document as data. What holds no other nodes is valued where it
is met. Lists and maps wait for their turn, in the order in which they are met,
so that of several nodes without a value the one nearest to the root is
reported. Only what lies within a depth is shown, since a list may hold itself.
-/

namespace Stencil.Yaml

open Stencil.Text (Letter)

/-- Whether nodes of a kind are collections, whose parts have values of their
own. -/
def Kind.isCollection (kind : Kind) : Bool :=
  kind = .list || kind = .map || kind = .set || kind = .orderedMap || kind = .pairs

/-- Whether nodes of a kind have no value at all. -/
def Kind.isValueless (kind : Kind) : Bool :=
  kind = .unknown || kind = .merge || kind = .value

namespace Nodes

/-- The text of a scalar; of a map, the text under its value key. A map that
leads back to itself has no end. -/
def textOf (nodes : Nodes) : (fuel : Nat) → NodeId → Except Fault (List Letter)
  | 0, _ => .error (.value .endless)
  | fuel + 1, id =>
    match (nodes.node id).content with
    | .scalar text => .ok text
    | .list _ => .error .malformed
    | .map entries =>
      match entries.find? fun e => (nodes.node e.1).kind = .value with
      | some (_, value) => textOf nodes fuel value
      | none => .error .malformed

/-- A text as data. -/
def textData (text : List Letter) : Data :=
  match Letter.chars? text with
  | some cs => .text (String.ofList cs)
  | none => .brokenText text

/-- The value that a text has as a scalar of a kind. -/
def scalarData (kind : Kind) (text : List Letter) : Except Fault Data :=
  match kind with
  | .null => .ok .null
  | .bool => ((truthValue text).map .bool).mapError .value
  | .int => ((intValue text).map .int).mapError .value
  | .real => ((realValue text).map .real).mapError .value
  | .moment => (momentValue text).mapError .value
  | .text => .ok (textData text)
  | .bytes => (bytesValue? text).elim (.error .malformed) fun bytes => .ok (.bytes bytes)
  | _ => .error .malformed

/-- The value of a node that is no collection. -/
def singleData (nodes : Nodes) (id : NodeId) : Except Fault Data := do
  let n := nodes.node id
  if n.kind.isValueless then throw .malformed
  let text ← nodes.textOf (nodes.size + 1) id
  if n.kind = .moment ∧ n.content matches .map _ then throw (.value .momentOfMap)
  scalarData n.kind text

end Nodes

/-! ## Valuing a document -/

/-- What is known of the value of a node. -/
inductive Valued where
  | notYet
  | single (value : Data)
  | collection
  deriving Repr

/-- How far the valuing of a document has come. -/
structure Valuing where
  nodes : Nodes
  values : Array Valued
  /-- The collections that were met, in that order. -/
  collections : Array NodeId
  deriving Repr

namespace Valuing

/-- Meets a node: values it, or has it wait for its turn. -/
def meet (v : Valuing) (id : NodeId) : Except Fault Valuing :=
  match v.values[id]?.getD .notYet with
  | .notYet =>
    if (v.nodes.node id).kind.isCollection then
      .ok { v with
        values := v.values.setIfInBounds id .collection, collections := v.collections.push id }
    else do
      let value ← v.nodes.singleData id
      return { v with values := v.values.setIfInBounds id (.single value) }
  | _ => .ok v

/-- Meets the key of a map, which must not be a collection. -/
def meetKey (v : Valuing) (key : NodeId) : Except Fault Valuing := do
  let v ← v.meet key
  if (v.nodes.node key).kind.isCollection then throw .malformed
  return v

/-- Meets what a collection holds. An ordered map is a list of maps with one
entry each. -/
def meetParts (fuel : Nat) (v : Valuing) (id : NodeId) : Except Fault Valuing :=
  let n := v.nodes.node id
  match n.kind, n.content with
  | .list, .list items => items.foldlM meet v
  | .map, .map _ => meetEntries
  | .set, .map _ => meetEntries
  | .orderedMap, .list items => items.foldlM meetPair v
  | .pairs, .list items => items.foldlM meetPair v
  | _, _ => .error .malformed
where
  meetEntries : Except Fault Valuing := do
    let nodes ← v.nodes.mergeInto fuel id []
    (nodes.entries id).foldlM (fun v (key, value) => do (← v.meetKey key).meet value)
      { v with nodes }
  meetPair (v : Valuing) (item : NodeId) : Except Fault Valuing :=
    match v.nodes.entries item with
    | [(key, value)] => do (← v.meet key).meet value
    | _ => .error .malformed

/-- Gives the collections their turns, from the one with number `n` on. -/
def meetAll (mergeFuel : Nat) : (fuel n : Nat) → Valuing → Except Fault Valuing
  | 0, _, v => .ok v
  | fuel + 1, n, v =>
    match v.collections[n]? with
    | none => .ok v
    | some id => do meetAll mergeFuel fuel (n + 1) (← v.meetParts mergeFuel id)

/-- Values the nodes that the root leads to. -/
def ofNodes (nodes : Nodes) (root : NodeId) : Except Fault Valuing := do
  let v : Valuing := ⟨nodes, Array.replicate nodes.size .notYet, #[]⟩
  meetAll (nodes.mergeCount + 1) nodes.size 0 (← v.meet root)

/-! ## The value -/

/-- Whether a node stands for what is no number by the word of this format. -/
def isCommonUndefined (v : Valuing) (id : NodeId) : Bool :=
  (v.nodes.node id).kind = .real &&
    match v.nodes.textOf (v.nodes.size + 1) id with
    | .ok text => Yaml.isCommonUndefined text
    | .error _ => false

/-- The value of a node that is no collection. -/
def single (v : Valuing) (id : NodeId) : Data :=
  match v.values[id]? with
  | some (.single value) => value
  | _ => .null

/-- Whether two members of a set are one. -/
def isSameMember (v : Valuing) (a b : NodeId) : Bool :=
  a == b || (v.single a).same (v.single b) || (v.isCommonUndefined a && v.isCommonUndefined b)

/-- The members of a set without those that repeat an earlier one. -/
def distinct (v : Valuing) : List NodeId → List NodeId
  | [] => []
  | id :: rest => id :: (distinct v rest).filter (!v.isSameMember id ·)

/-- The data that a node stands for. Collections that lie deeper than `depth`
come out empty. -/
def data (v : Valuing) : (depth : Nat) → NodeId → Data
  | 0, id =>
    match (v.nodes.node id).kind with
    | .list => .list []
    | .orderedMap => .list []
    | .pairs => .list []
    | .map => .record []
    | .set => .set []
    | _ => v.single id
  | depth + 1, id =>
    let n := v.nodes.node id
    let pairOf (item : NodeId) : Data :=
      .list ((v.nodes.entries item).flatMap fun (key, value) =>
        [v.data depth key, v.data depth value])
    match n.kind, n.content with
    | .list, .list items => .list (items.map (v.data depth))
    | .orderedMap, .list items => .list (items.map pairOf)
    | .pairs, .list items => .list (items.map pairOf)
    | .map, .map entries =>
      .record (entries.map fun (key, value) => (v.data depth key, v.data depth value))
    | .set, .map entries => .set ((v.distinct (entries.map (·.1))).map (v.data depth))
    | _, _ => v.single id

end Valuing

/-- The value of a text that holds one document, down to a depth; null if it
holds none. -/
def load (depth : Nat) (text : String) : Except Fault Data := do
  match ← readDocument (tokensOf text.toList) with
  | none => return .null
  | some (nodes, root) => return (← Valuing.ofNodes nodes root).data depth root

end Stencil.Yaml
