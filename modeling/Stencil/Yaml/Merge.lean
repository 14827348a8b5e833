import Stencil.Yaml.Fault
import Stencil.Yaml.Node

/-!
# Stencil — merge keys

Under its merge key a map names other maps, and their entries come to stand in
front of its own, so that its own count more. Of several maps in a list the
first counts most. The maps that are named have their own merge keys replaced
at the same time, also for every other place where they stand.
-/

namespace Stencil.Yaml.Nodes

/-- The entries of a map. -/
def entries (nodes : Nodes) (id : NodeId) : List (NodeId × NodeId) :=
  match (nodes.node id).content with
  | .map entries => entries
  | _ => []

/-- Gives a map other entries. -/
def withEntries (nodes : Nodes) (id : NodeId) (entries : List (NodeId × NodeId)) : Nodes :=
  nodes.setIfInBounds id { nodes.node id with content := .map entries }

/-- Takes the special meaning from keys that may stand for the value of their
map. -/
def withPlainKeys (nodes : Nodes) (entries : List (NodeId × NodeId)) : Nodes :=
  entries.foldl (fun nodes (key, _) =>
    if (nodes.node key).kind = .value then
      nodes.setIfInBounds key { nodes.node key with kind := .text }
    else nodes) nodes

/-- Whether an entry names maps to be merged. -/
def isMerge (nodes : Nodes) (entry : NodeId × NodeId) : Bool :=
  (nodes.node entry.1).kind = .merge

/-- The number of entries that name maps to be merged. -/
def mergeCount (nodes : Nodes) : Nat :=
  (List.range nodes.size).foldl
    (fun count id => count + (nodes.entries id).countP nodes.isMerge) 0

/-- The maps that an entry names, one or a list of them. -/
def mergedMaps (nodes : Nodes) (id : NodeId) : Except Fault (List NodeId) :=
  match (nodes.node id).content with
  | .map _ => .ok [id]
  | .list items =>
    if items.all fun item => (nodes.node item).content matches .map _ then .ok items
    else .error .malformed
  | .scalar _ => .error .malformed

/-- Replaces the merge keys of a map, one after the other; `gathered` is what
the ones before have stood for. Each key is taken out before the maps under it
are looked at, so that a map may name itself. -/
def mergeInto : (fuel : Nat) → (id : NodeId) → (gathered : List (NodeId × NodeId)) →
    Nodes → Except Fault Nodes
  | 0, _, _, _ => .error .malformed
  | fuel + 1, id, gathered, nodes =>
    let own := nodes.entries id
    match own.find? nodes.isMerge with
    | none =>
      let all := gathered ++ own
      .ok ((nodes.withEntries id all).withPlainKeys all)
    | some entry => do
      let maps ← nodes.mergedMaps entry.2
      let rest := own.eraseP nodes.isMerge
      let (nodes, found) ← maps.foldlM (fun (nodes, found) map => do
        let nodes ← mergeInto fuel map [] nodes
        return (nodes, nodes.entries map :: found)) (nodes.withEntries id rest, [])
      mergeInto fuel id (gathered ++ found.flatten) nodes

end Stencil.Yaml.Nodes
