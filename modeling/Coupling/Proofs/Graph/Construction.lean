import Coupling.Proofs.Graph.Reachability

/-!
# Building graphs

The nodes and edges of a graph that is built up one source at a time: each
source becomes a node, with edges to a list of targets. The package graph and
the class graph of a project are both built so.
-/

namespace Coupling.Graph

variable {graph : Graph} {node source target other : String}

theorem successors_addNode : (graph.addNode node).successors other = graph.successors other := by
  simp only [addNode, successors, successors?, Std.ExtTreeMap.getElem?_insertIfNew]
  split
  · rename_i added
    rcases added with ⟨same, absent⟩
    rw [Std.LawfulEqCmp.eq_of_compare same] at absent
    simp [Std.ExtTreeMap.getElem?_eq_none absent]
  · rfl

theorem contains_addNode :
    (graph.addNode node).contains other = true ↔ other = node ∨ graph.contains other = true := by
  simp only [addNode, contains, Std.ExtTreeMap.contains_insertIfNew, Bool.or_eq_true, beq_iff_eq,
    Std.compare_eq_iff_eq, eq_comm (a := node)]

theorem edge_addNode : (graph.addNode node).Edge source target ↔ graph.Edge source target := by
  rw [edge_iff_mem_successors, successors_addNode, ← edge_iff_mem_successors]

theorem contains_addEdge :
    (graph.addEdge source target).contains other = true ↔
      other = source ∨ graph.contains other = true := by
  simp only [addEdge, contains, Std.ExtTreeMap.contains_insert, Bool.or_eq_true, beq_iff_eq,
    Std.compare_eq_iff_eq, eq_comm (a := source)]

theorem edge_addEdge {start stop : String} :
    (graph.addEdge source target).Edge start stop ↔
      (start = source ∧ stop = target) ∨ graph.Edge start stop := by
  simp only [edge_iff_mem_successors]
  by_cases same : start = source
  · subst same
    simp [addEdge, successors, successors?, eq_comm (a := target)]
  · simp [addEdge, successors, successors?, Std.ExtTreeMap.getElem?_insert, same, Ne.symm same]

/-- A source with edges to some targets, as one step of building a graph. -/
def addStar (graph : Graph) (source : String) (targets : List String) : Graph :=
  targets.foldl (fun graph target => graph.addEdge source target) (graph.addNode source)

theorem foldl_addEdge_spec {targets : List String} (isNode : graph.contains source = true) :
    (∀ name, (targets.foldl (fun graph target => graph.addEdge source target) graph).contains name =
      true ↔ graph.contains name = true) ∧
    ∀ start stop,
      (targets.foldl (fun graph target => graph.addEdge source target) graph).Edge start stop ↔
        (start = source ∧ stop ∈ targets) ∨ graph.Edge start stop := by
  induction targets generalizing graph with
  | nil => simp
  | cons target rest ih =>
      rcases @ih (graph.addEdge source target) (contains_addEdge.mpr (Or.inl rfl)) with
        ⟨containsRest, edgeRest⟩
      refine ⟨fun name => ?_, fun start stop => ?_⟩
      · rw [List.foldl_cons, containsRest, contains_addEdge]
        constructor
        · rintro (rfl | known)
          · exact isNode
          · exact known
        · exact Or.inr
      · rw [List.foldl_cons, edgeRest, edge_addEdge, List.mem_cons]
        tauto

theorem contains_addStar {targets : List String} :
    (graph.addStar source targets).contains node = true ↔
      node = source ∨ graph.contains node = true := by
  have isNode : (graph.addNode source).contains source = true := contains_addNode.mpr (Or.inl rfl)
  rw [addStar, (foldl_addEdge_spec isNode).1, contains_addNode]

theorem edge_addStar {targets : List String} {start stop : String} :
    (graph.addStar source targets).Edge start stop ↔
      (start = source ∧ stop ∈ targets) ∨ graph.Edge start stop := by
  have isNode : (graph.addNode source).contains source = true := contains_addNode.mpr (Or.inl rfl)
  rw [addStar, (foldl_addEdge_spec isNode).2, edge_addNode]

section Stars

variable {α : Type} (sourceOf : α → String) (targetsOf : α → List String)

/-- The nodes of a graph built from stars are their sources. -/
theorem contains_foldl_addStar (items : List α) :
    (items.foldl (fun graph item => graph.addStar (sourceOf item) (targetsOf item)) graph).contains
        node = true ↔
      (∃ item ∈ items, node = sourceOf item) ∨ graph.contains node = true := by
  induction items generalizing graph with
  | nil => simp
  | cons item rest ih =>
      rw [List.foldl_cons, ih, contains_addStar]
      simp only [List.mem_cons, exists_eq_or_imp]
      rw [or_left_comm, or_assoc]

/-- The edges of a graph built from stars are theirs. -/
theorem edge_foldl_addStar (items : List α) {start stop : String} :
    (items.foldl (fun graph item => graph.addStar (sourceOf item) (targetsOf item)) graph).Edge
        start stop ↔
      (∃ item ∈ items, start = sourceOf item ∧ stop ∈ targetsOf item) ∨
        graph.Edge start stop := by
  induction items generalizing graph with
  | nil => simp
  | cons item rest ih =>
      rw [List.foldl_cons, ih, edge_addStar]
      simp only [List.mem_cons, exists_eq_or_imp]
      rw [or_left_comm, or_assoc]

end Stars

theorem not_contains_empty : ¬(∅ : Graph).contains node = true := by
  intro known
  change (∅ : Std.ExtTreeMap String NameSet).contains node = true at known
  simp at known

theorem not_edge_empty : ¬(∅ : Graph).Edge source target :=
  fun edge => not_contains_empty edge.contains_source

end Coupling.Graph
