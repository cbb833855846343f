import Coupling.Graph.Basic
import Coupling.Json.Basic

/-!
# Graphs as JSON

A graph is written as an object from each node to the array of its successors.
-/

namespace Coupling.Graph

/-- The graph as an object from each node to its successors. -/
def toJson (graph : Graph) : Json :=
  .record (graph.adjacency.toList.map fun (node, targets) => (node, .texts targets.toList))

/-- Adds one member of an object. A repeated node takes the successors that stand last. -/
def addMember? (graph : Graph) (member : Json.Text × Json) : Option Graph := do
  let node ← member.1
  let targets ← member.2.asTexts?
  return ⟨graph.adjacency.insert node (NameSet.ofList targets)⟩

/-- The graph that an object describes. -/
def ofJson? : Json → Option Graph
  | .object members => members.foldlM addMember? ∅
  | _ => none

end Coupling.Graph
