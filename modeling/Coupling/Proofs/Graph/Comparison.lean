import Coupling.Proofs.Graph.Cycles

/-!
# Comparing the cycles of two searches

Two searches may differ in their graphs or in their roots. A graph that has all
edges of another one joins components and splits none, so a cycle of the part
lies inside one cycle of the whole. Other roots leave the components as they
are, and only decide which of them are found.
-/

namespace Coupling.Graph

variable {graph part whole : Graph} {keep : String → Bool} {node source target : String}
  {roots : List String} {members : Set String}

/-- Different positions of an exact list hold different sets. -/
theorem ListsExactly.position_eq {cycles : List (List String)} {wanted : Set String → Prop}
    (lists : ListsExactly cycles wanted) {first second : Fin cycles.length}
    (sameSet : {node | node ∈ cycles.get first} = {node | node ∈ cycles.get second}) :
    first = second := by
  by_contra different
  rcases Fin.lt_or_lt_of_ne different with before | after
  · exact List.pairwise_iff_get.mp lists.distinct _ _ before sameSet
  · exact List.pairwise_iff_get.mp lists.distinct _ _ after sameSet.symm

theorem contains_restrict :
    (graph.restrict keep).contains node = true ↔
      graph.contains node = true ∧ keep node = true := by
  simp [restrict, contains, Std.ExtTreeMap.mem_filter]

theorem edge_restrict :
    (graph.restrict keep).Edge source target ↔
      graph.Edge source target ∧ keep source = true ∧ keep target = true := by
  simp only [edge_iff_mem_successors, restrict, successors, successors?,
    Std.ExtTreeMap.getElem?_map, Std.ExtTreeMap.getElem?_filter']
  cases graph.adjacency[source]? with
  | none => simp
  | some targets =>
      by_cases kept : keep source = true
      · simp [Option.filter_some, kept]
      · simp [Option.filter_some, kept]

/-- Every edge of the one graph is an edge of the other. -/
def IsPartOf (part whole : Graph) : Prop :=
  ∀ source target, part.Edge source target → whole.Edge source target

theorem restrict_isPartOf (graph : Graph) (keep : String → Bool) :
    (graph.restrict keep).IsPartOf graph := by
  intro source target edge
  exact (edge_restrict.mp edge).1

/-- The component of a name is cyclic iff a walk of at least one edge leads from the name back to
it. -/
theorem isCyclicComponent_componentOf_iff :
    graph.IsCyclicComponent (graph.componentOf node) ↔ Relation.TransGen graph.Edge node node := by
  constructor
  · rintro ⟨_, several | ⟨single, singleton, edge⟩⟩
    · rcases several.exists_ne node with ⟨other, ⟨forth, back⟩, different⟩
      rcases Relation.ReflTransGen.cases_head forth with same | ⟨next, edge, rest⟩
      · exact absurd same.symm different
      · exact Relation.TransGen.head' edge (rest.trans back)
    · have nodeMem : node ∈ graph.componentOf node := mem_componentOf_self
      rw [singleton, Set.mem_singleton_iff] at nodeMem
      subst nodeMem
      exact .single edge
  · intro closedWalk
    rcases Relation.TransGen.head'_iff.mp closedWalk with ⟨next, edge, back⟩
    by_cases same : next = node
    · subst same
      refine ⟨graph.isComponent_componentOf next, ?_⟩
      have nextMem : next ∈ graph.componentOf next := mem_componentOf_self
      rcases Set.eq_singleton_or_nontrivial nextMem with singleton | several
      · exact Or.inr ⟨next, singleton, edge⟩
      · exact Or.inl several
    · exact isCyclicComponent_of_ne (.ofEdge edge) back (Ne.symm same)

namespace IsPartOf

theorem reaches (included : part.IsPartOf whole) (reaches : part.Reaches source target) :
    whole.Reaches source target :=
  Relation.ReflTransGen.mono included _ _ reaches

theorem connected (included : part.IsPartOf whole) (connected : part.Connected members) :
    whole.Connected members := by
  intro source sourceMem target targetMem
  exact included.reaches (connected source sourceMem target targetMem)

/-- Each member of a cyclic component of the part lies in one of the whole. -/
theorem isCyclicComponent (included : part.IsPartOf whole)
    (cyclic : part.IsCyclicComponent members) (nodeMem : node ∈ members) :
    whole.IsCyclicComponent (whole.componentOf node) := by
  have closedWalk : Relation.TransGen part.Edge node node := by
    rw [← isCyclicComponent_componentOf_iff, ← cyclic.1.eq_componentOf nodeMem]
    exact cyclic
  rw [isCyclicComponent_componentOf_iff]
  exact Relation.TransGen.mono included _ _ closedWalk

/-- A cycle of the part lies in exactly one of the cycles that a search of the whole lists, if the
search reaches the nodes of the part. -/
theorem existsUnique_cycle (included : part.IsPartOf whole) {cycle : List String}
    (cyclic : part.IsCyclicComponent {node | node ∈ cycle})
    (reached : ∀ node, part.contains node = true → whole.ReachedFrom roots node) :
    ∃! position : Fin (whole.cyclesFrom roots).length,
      cycle ⊆ (whole.cyclesFrom roots).get position := by
  have lists := whole.cyclesFrom_listsExactly roots
  rcases isComponent_iff.mp cyclic.1 with ⟨node, members⟩
  have nodeMem : node ∈ cycle := (Set.ext_iff.mp members node).mpr mem_componentOf_self
  have within : {node | node ∈ cycle} ⊆ whole.componentOf node :=
    (included.connected cyclic.1.prop).subset_componentOf nodeMem
  rcases lists.complete _ ⟨included.isCyclicComponent cyclic nodeMem, node, mem_componentOf_self,
    reached node (cyclic.contains nodeMem)⟩ with ⟨listed, listedMem, listedMembers⟩
  rcases List.mem_iff_get.mp listedMem with ⟨position, rfl⟩
  refine ⟨position, ?_, ?_⟩
  · intro member memberMem
    exact (Set.ext_iff.mp listedMembers member).mpr (within memberMem)
  · intro other otherHolds
    have otherComponent := (lists.sound _ ((whole.cyclesFrom roots).get_mem other)).1.1
    apply lists.position_eq
    rw [listedMembers]
    exact otherComponent.eq_componentOf (otherHolds nodeMem)

end IsPartOf

/-- The sets of names that the lists name. -/
def nodeSets (cycles : List (List String)) : Set (Set String) :=
  {members | ∃ cycle ∈ cycles, {node | node ∈ cycle} = members}

theorem mem_nodeSets_cyclesFrom :
    members ∈ nodeSets (graph.cyclesFrom roots) ↔
      graph.IsCyclicComponent members ∧ ∃ node ∈ members, graph.ReachedFrom roots node := by
  constructor
  · rintro ⟨cycle, cycleMem, rfl⟩
    exact (graph.cyclesFrom_listsExactly roots).sound cycle cycleMem
  · intro wanted
    exact (graph.cyclesFrom_listsExactly roots).complete members wanted

/-- More roots find more cycles, and find them as the same sets. -/
theorem nodeSets_cyclesFrom_mono {more : List String} (included : roots ⊆ more) :
    nodeSets (graph.cyclesFrom roots) ⊆ nodeSets (graph.cyclesFrom more) := by
  intro members
  rw [mem_nodeSets_cyclesFrom, mem_nodeSets_cyclesFrom]
  rintro ⟨cyclic, node, nodeMem, root, rootMem, isNode, reaches⟩
  exact ⟨cyclic, node, nodeMem, root, included rootMem, isNode, reaches⟩

/-- Roots that come from two lists find the cycles of both. -/
theorem nodeSets_cyclesFrom_union {first second : List String}
    (fromBoth : ∀ root, root ∈ roots ↔ root ∈ first ∨ root ∈ second) :
    nodeSets (graph.cyclesFrom roots) =
      nodeSets (graph.cyclesFrom first) ∪ nodeSets (graph.cyclesFrom second) := by
  apply Set.Subset.antisymm
  · intro members
    rw [Set.mem_union, mem_nodeSets_cyclesFrom, mem_nodeSets_cyclesFrom, mem_nodeSets_cyclesFrom]
    rintro ⟨cyclic, node, nodeMem, root, rootMem, known⟩
    rcases (fromBoth root).mp rootMem with inFirst | inSecond
    · exact Or.inl ⟨cyclic, node, nodeMem, root, inFirst, known⟩
    · exact Or.inr ⟨cyclic, node, nodeMem, root, inSecond, known⟩
  · apply Set.union_subset
    · apply nodeSets_cyclesFrom_mono
      intro root inFirst
      exact (fromBoth root).mpr (Or.inl inFirst)
    · apply nodeSets_cyclesFrom_mono
      intro root inSecond
      exact (fromBoth root).mpr (Or.inr inSecond)

end Coupling.Graph
