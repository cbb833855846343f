import Coupling.Graph.Basic

/-!
# Dependency cycles

A cycle is a strongly connected component with at least two nodes, or one node with an edge to
itself. The search visits the graph depth first from a list of roots. It keeps its suspended visits
as a list of frames, so that its depth is not bounded by the depth of the program's own stack.

Each visited node carries the index at which it was discovered and a low link: the smallest index of
an open node that the search has reached from it. A node whose visit ends with its low link equal to
its index is the first discovered member of its component, and the component is what lies above it
on the stack of open nodes.
-/

namespace Coupling.Graph

/-- What the search has found so far. -/
structure Search where
  /-- The number of nodes discovered, which is the index of the next one. -/
  counter : Nat
  /-- The index at which each node was discovered. -/
  index : Std.ExtTreeMap String Nat
  /-- The smallest index of an open node known to be reachable from each node. -/
  lowLink : Std.ExtTreeMap String Nat
  /-- The nodes whose component is not closed, latest first. -/
  stack : List String
  /-- The members of the stack. -/
  onStack : NameSet
  /-- The closed components, latest first. -/
  components : List (List String)

/-- A suspended visit: a node and those of its successors it has not looked at. -/
structure Frame where
  /-- The visited node. -/
  node : String
  /-- The successors still to look at, in ascending order. -/
  pending : List String

namespace Search

/-- The search before any visit. -/
def start : Search where
  counter := 0
  index := ∅
  lowLink := ∅
  stack := []
  onStack := ∅
  components := []

/-- Discovers a node: it gets the next index and is put on the stack. -/
def discover (search : Search) (node : String) : Search :=
  { search with
    counter := search.counter + 1
    index := search.index.insert node search.counter
    lowLink := search.lowLink.insert node search.counter
    stack := node :: search.stack
    onStack := search.onStack.insert node }

/-- Lowers the low link of a node to a candidate. -/
def lower (search : Search) (node : String) (candidate : Nat) : Search :=
  match search.lowLink[node]? with
  | some low => { search with lowLink := search.lowLink.insert node (min low candidate) }
  | none => search

/-- Splits the stack after the first occurrence of `root`: what is popped, and what stays. -/
def popThrough (root : String) (stack : List String) : List String × List String :=
  match stack.dropWhile (· != root) with
  | [] => (stack, [])
  | top :: below => (stack.takeWhile (· != root) ++ [top], below)

/-- Closes the component whose first discovered member is `root`. Its members are listed in the
order in which they leave the stack. -/
def close (search : Search) (root : String) : Search :=
  let (component, kept) := popThrough root search.stack
  { search with
    stack := kept
    onStack := component.foldl (fun members member => members.erase member) search.onStack
    components := component :: search.components }

end Search

/-- The visit of a node that has looked at none of its successors. -/
def Frame.opening (graph : Graph) (node : String) : Frame :=
  ⟨node, (graph.successors node).toList⟩

/-- One step of the search: the innermost visit looks at its next successor, or ends. -/
def Search.step (graph : Graph) : Search × List Frame → Search × List Frame
  | (search, []) => (search, [])
  | (search, ⟨node, successor :: pending⟩ :: outer) =>
    match search.index[successor]? with
    | none =>
      (search.discover successor, Frame.opening graph successor :: ⟨node, pending⟩ :: outer)
    | some successorIndex =>
      if search.onStack.contains successor then
        (search.lower node successorIndex, ⟨node, pending⟩ :: outer)
      else
        (search, ⟨node, pending⟩ :: outer)
  | (search, ⟨node, []⟩ :: outer) =>
    let low := search.lowLink.getD node 0
    let lowered :=
      match outer with
      | parent :: _ => search.lower parent.node low
      | [] => search
    if search.index[node]? = some low then (lowered.close node, outer) else (lowered, outer)

/-- Steps until no visit is suspended, at most `fuel` times. -/
def Search.run (graph : Graph) : Nat → Search × List Frame → Search
  | 0, (search, _) => search
  | _ + 1, (search, []) => search
  | fuel + 1, (search, frame :: outer) => run graph fuel (step graph (search, frame :: outer))

/-- Enough steps for any search: each edge is looked at once, each node or target of an edge is
visited at most once, and each visit ends once. -/
def searchBound (graph : Graph) : Nat :=
  graph.nodeCount + 2 * graph.edgeCount + 2

/-- Visits everything reachable from `root` that has not been discovered. -/
def Search.visit (graph : Graph) (search : Search) (root : String) : Search :=
  if graph.contains root && !search.index.contains root then
    run graph (searchBound graph) (search.discover root, [Frame.opening graph root])
  else
    search

/-- The strongly connected components reachable from the roots, dependencies first. A root that is
no node is skipped. -/
def componentsFrom (graph : Graph) (roots : List String) : List (List String) :=
  (roots.foldl (Search.visit graph) Search.start).components.reverse

/-- A component is a cycle unless it is one node without an edge to itself. -/
def isCyclic (graph : Graph) : List String → Bool
  | [single] => graph.hasEdge single single
  | _ => true

/-- The cycles reachable from the roots. The search follows every edge of the graph, so a cycle may
name nodes that are no roots. -/
def cyclesFrom (graph : Graph) (roots : List String) : List (List String) :=
  (graph.componentsFrom roots).filter graph.isCyclic

/-- All cycles of the graph. -/
def cycles (graph : Graph) : List (List String) :=
  graph.cyclesFrom graph.nodes

end Coupling.Graph
