import Mathlib.Data.Set.Subsingleton
import Mathlib.Logic.Relation
import Mathlib.Order.Minimal
import Coupling.Graph.Cycle

/-!
# Reachability in dependency graphs

Edges as a relation, the walks along them, and the components that the walks
induce. Names that are no nodes take part: an edge may lead to one, but none
leads on from it.

A component is a greatest set of names that reach each other. It is cyclic if
it has at least two members, or one that has an edge to itself.
-/

namespace Coupling.Graph

variable {graph : Graph} {source target node : String}

/-- There is an edge from the first name to the second. -/
def Edge (graph : Graph) (source target : String) : Prop :=
  graph.hasEdge source target = true

/-- A walk along edges, perhaps of no length, leads from the first name to the second. -/
def Reaches (graph : Graph) : String → String → Prop :=
  Relation.ReflTransGen graph.Edge

theorem edge_iff_mem_successors :
    graph.Edge source target ↔ target ∈ graph.successors source := by
  simp [Edge, hasEdge]

theorem mem_toList_successors :
    target ∈ (graph.successors source).toList ↔ graph.Edge source target := by
  rw [Std.ExtTreeSet.mem_toList, edge_iff_mem_successors]

theorem successors_of_not_contains (unknown : graph.contains node = false) :
    graph.successors node = ∅ := by
  have absent : graph.adjacency[node]? = none :=
    Std.ExtTreeMap.getElem?_eq_none_of_contains_eq_false unknown
  simp [successors, successors?, absent]

theorem Edge.contains_source (edge : graph.Edge source target) :
    graph.contains source = true := by
  by_contra unknown
  have none : graph.successors source = ∅ := successors_of_not_contains (by simpa using unknown)
  rw [edge_iff_mem_successors, none] at edge
  simp at edge

theorem mem_nodes : node ∈ graph.nodes ↔ graph.contains node = true := by
  rw [nodes, Std.ExtTreeMap.mem_keys, contains, Std.ExtTreeMap.contains_iff_mem]

namespace Reaches

theorem refl (node : String) : graph.Reaches node node :=
  Relation.ReflTransGen.refl

theorem ofEdge (edge : graph.Edge source target) : graph.Reaches source target :=
  Relation.ReflTransGen.single edge

theorem trans {middle : String} (first : graph.Reaches source middle)
    (second : graph.Reaches middle target) : graph.Reaches source target :=
  Relation.ReflTransGen.trans first second

/-- What is closed under edges is closed under walks. -/
theorem closed (holds : String → Prop)
    (closedEdge : ∀ source target, holds source → graph.Edge source target → holds target)
    (reaches : graph.Reaches source target) (start : holds source) : holds target := by
  induction reaches with
  | refl => exact start
  | tail _ edge ih => exact closedEdge _ _ ih edge

end Reaches

/-- Any two of the names reach each other. -/
def Connected (graph : Graph) (members : Set String) : Prop :=
  ∀ source ∈ members, ∀ target ∈ members, graph.Reaches source target

/-- A greatest set of names that reach each other. -/
def IsComponent (graph : Graph) (members : Set String) : Prop :=
  Maximal graph.Connected members

/-- A component with at least two members, or with one that has an edge to itself. -/
def IsCyclicComponent (graph : Graph) (members : Set String) : Prop :=
  graph.IsComponent members ∧
    (members.Nontrivial ∨ ∃ node, members = {node} ∧ graph.Edge node node)

/-- The set of names that the given name reaches and that reach it. -/
def componentOf (graph : Graph) (node : String) : Set String :=
  {other | graph.Reaches node other ∧ graph.Reaches other node}

theorem mem_componentOf_self : node ∈ graph.componentOf node :=
  ⟨.refl node, .refl node⟩

theorem connected_componentOf (graph : Graph) (node : String) :
    graph.Connected (graph.componentOf node) := by
  intro source sourceMem target targetMem
  exact sourceMem.2.trans targetMem.1

theorem Connected.subset_componentOf {members : Set String} (connected : graph.Connected members)
    (nodeMem : node ∈ members) : members ⊆ graph.componentOf node := by
  intro other otherMem
  exact ⟨connected node nodeMem other otherMem, connected other otherMem node nodeMem⟩

theorem IsComponent.eq_componentOf {members : Set String} (component : graph.IsComponent members)
    (nodeMem : node ∈ members) : members = graph.componentOf node := by
  apply Set.Subset.antisymm
  · exact component.prop.subset_componentOf nodeMem
  · apply component.le_of_ge (graph.connected_componentOf node)
    exact component.prop.subset_componentOf nodeMem

theorem IsComponent.nonempty {members : Set String} (component : graph.IsComponent members) :
    members.Nonempty := by
  by_contra empty
  rw [Set.not_nonempty_iff_eq_empty] at empty
  have larger : members ⊆ graph.componentOf "" := by simp [empty]
  have smaller := component.le_of_ge (graph.connected_componentOf "") larger
  have : ("" : String) ∈ members := smaller mem_componentOf_self
  simp [empty] at this

/-- The components are exactly the classes of mutually reachable names. -/
theorem isComponent_iff {members : Set String} :
    graph.IsComponent members ↔ ∃ node, members = graph.componentOf node := by
  constructor
  · intro component
    rcases component.nonempty with ⟨node, nodeMem⟩
    exact ⟨node, component.eq_componentOf nodeMem⟩
  · rintro ⟨node, rfl⟩
    refine ⟨graph.connected_componentOf node, ?_⟩
    intro larger connected subset
    exact connected.subset_componentOf (subset mem_componentOf_self)

theorem isComponent_componentOf (graph : Graph) (node : String) :
    graph.IsComponent (graph.componentOf node) :=
  isComponent_iff.mpr ⟨node, rfl⟩

/-- Two different names that reach each other lie in a cyclic component. -/
theorem isCyclicComponent_of_ne (forth : graph.Reaches source target)
    (back : graph.Reaches target source) (different : source ≠ target) :
    graph.IsCyclicComponent (graph.componentOf source) := by
  refine ⟨graph.isComponent_componentOf source, Or.inl ?_⟩
  exact ⟨source, mem_componentOf_self, target, ⟨forth, back⟩, different⟩

/-- Each member of a cyclic component has an edge, so it is a node. -/
theorem IsCyclicComponent.contains {members : Set String}
    (cyclic : graph.IsCyclicComponent members) (nodeMem : node ∈ members) :
    graph.contains node = true := by
  rcases cyclic with ⟨component, several | ⟨single, rfl, edge⟩⟩
  · rcases several.exists_ne node with ⟨other, otherMem, different⟩
    have reaches := component.prop node nodeMem other otherMem
    rcases Relation.ReflTransGen.cases_head reaches with same | ⟨next, edge, _⟩
    · exact absurd same.symm different
    · exact edge.contains_source
  · rw [Set.mem_singleton_iff] at nodeMem
    exact nodeMem ▸ edge.contains_source

end Coupling.Graph
