import Std.Data.ExtTreeMap
import Coupling.Name

/-!
# Dependency graphs

A directed graph from each node to the set of its successors. Adding an edge makes its source a node
but not its target, so an edge may point outside the nodes.
-/

namespace Coupling

/-- A directed graph over names. -/
structure Graph where
  /-- The successors of each node. -/
  adjacency : Std.ExtTreeMap String NameSet
deriving DecidableEq

namespace Graph

/-- The graph without nodes. -/
def empty : Graph := ⟨∅⟩

instance : EmptyCollection Graph := ⟨empty⟩

instance : Inhabited Graph := ⟨∅⟩

/-- The successors of a node, or nothing if it is no node of this graph. -/
def successors? (graph : Graph) (node : String) : Option NameSet :=
  graph.adjacency[node]?

/-- The successors of a name; one that is no node has none. -/
def successors (graph : Graph) (node : String) : NameSet :=
  (graph.successors? node).getD ∅

/-- The name is a node of this graph. -/
def contains (graph : Graph) (node : String) : Bool :=
  graph.adjacency.contains node

/-- There is an edge between the two names. -/
def hasEdge (graph : Graph) (source target : String) : Bool :=
  (graph.successors source).contains target

/-- Adds a node without edges unless it is there already. -/
def addNode (graph : Graph) (node : String) : Graph :=
  ⟨graph.adjacency.insertIfNew node ∅⟩

/-- Adds an edge. Its source becomes a node, its target does not. -/
def addEdge (graph : Graph) (source target : String) : Graph :=
  ⟨graph.adjacency.insert source ((graph.successors source).insert target)⟩

/-- The graph with exactly the given edges, whose nodes are their sources. -/
def ofEdges (edges : List (String × String)) : Graph :=
  edges.foldl (fun graph edge => graph.addEdge edge.1 edge.2) ∅

/-- The nodes in ascending order. -/
def nodes (graph : Graph) : List String :=
  graph.adjacency.keys

/-- The edges in ascending order of source, then target. -/
def edges (graph : Graph) : List (String × String) :=
  graph.adjacency.toList.flatMap fun (source, targets) =>
    targets.toList.map fun target => (source, target)

/-- The number of nodes. -/
def nodeCount (graph : Graph) : Nat :=
  graph.adjacency.size

/-- The number of edges. -/
def edgeCount (graph : Graph) : Nat :=
  graph.adjacency.toList.foldr (fun (_, targets) total => targets.size + total) 0

/-- The graph has no nodes. -/
def isEmpty (graph : Graph) : Bool :=
  graph.adjacency.isEmpty

/-- The part of the graph on the names that `keep` accepts: an edge stays iff both its ends do. -/
def restrict (graph : Graph) (keep : String → Bool) : Graph :=
  ⟨(graph.adjacency.filter fun node _ => keep node).map fun _ targets => targets.filter keep⟩

end Graph

end Coupling
