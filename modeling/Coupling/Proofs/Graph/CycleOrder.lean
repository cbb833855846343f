import Coupling.Proofs.Graph.Cycles
import Coupling.Proofs.Graph.DepthFirst

/-!
# The order of the reported cycles

A component is closed when everything that it reaches is in it or in components
that were closed before, whichever root they were found from. So a cycle comes
after all cycles that it depends on.

Inside a cycle the members stand as they leave the stack of the search, which
holds names against the order of their discovery. That order is the one of plain
depth-first search, which knows neither stack nor low links.
-/

namespace Coupling.Graph

variable {graph : Graph} {roots : List String}

theorem LeadsBack.pairwise {components : List (List String)} (leads : LeadsBack graph components)
    (nodup : components.flatten.Nodup) :
    components.Pairwise fun later earlier =>
      ∀ source ∈ earlier, ∀ target ∈ later, ¬graph.Reaches source target := by
  induction components with
  | nil => exact List.Pairwise.nil
  | cons last earlier ih =>
      rw [List.flatten_cons, List.nodup_append] at nodup
      refine List.pairwise_cons.mpr ⟨?_, ih leads.2 nodup.2.1⟩
      intro component componentMem source sourceMem target targetMem reaches
      -- Walks from an earlier component stay in the earlier ones, which share no name with the last.
      have targetEarlier : target ∈ earlier.flatten :=
        leads.2.closed_reaches (List.mem_flatten_of_mem componentMem sourceMem) reaches
      exact nodup.2.2 target targetMem target targetEarlier rfl

theorem componentsFrom_pairwise (graph : Graph) (roots : List String) :
    (graph.componentsFrom roots).Pairwise fun earlier later =>
      ∀ source ∈ earlier, ∀ target ∈ later, ¬graph.Reaches source target := by
  rcases Search.invariant_finished graph roots with ⟨invariant, _⟩
  rw [componentsFrom, List.pairwise_reverse]
  exact invariant.leadsBack.pairwise invariant.tables.placed_nodup.of_append_right

/-- The cycles are listed dependencies first: no member of a cycle reaches a member of a cycle that
is listed later. -/
theorem cycles_listed_dependencies_first (graph : Graph) (roots : List String)
    {first second : Fin (graph.cyclesFrom roots).length} (before : first < second)
    {source target : String} (sourceMem : source ∈ (graph.cyclesFrom roots).get first)
    (targetMem : target ∈ (graph.cyclesFrom roots).get second) :
    ¬graph.Reaches source target := by
  have ordered := (graph.componentsFrom_pairwise roots).filter graph.isCyclic
  exact List.pairwise_iff_get.mp ordered first second before source sourceMem target targetMem

/-- Three pairs of names that refer to each other. The first is referred to from the second, and the
second from the third. -/
def chainedPairs : Graph :=
  .ofEdges [("a", "b"), ("b", "a"), ("c", "d"), ("d", "b"), ("d", "c"), ("e", "f"), ("f", "c"),
    ("f", "e")]

/-- The first pair is found from one root and the others from another one. -/
theorem chained_pairs_dependencies_first :
    chainedPairs.cyclesFrom ["b", "e"] = [["a", "b"], ["d", "c"], ["f", "e"]] ∧
      chainedPairs.Reaches "f" "a" ∧ ¬chainedPairs.Reaches "a" "f" := by
  have listed : chainedPairs.cyclesFrom ["b", "e"] = [["a", "b"], ["d", "c"], ["f", "e"]] := by
    decide +kernel
  have three : (chainedPairs.cyclesFrom ["b", "e"]).length = 3 := by rw [listed]; rfl
  have edges : ∀ edge ∈ [("f", "c"), ("c", "d"), ("d", "b"), ("b", "a")],
      chainedPairs.hasEdge edge.1 edge.2 = true := by decide +kernel
  refine ⟨listed, ?_, ?_⟩
  · have toPair : chainedPairs.Reaches "f" "d" :=
      .tail (.single (edges ("f", "c") (by simp))) (edges ("c", "d") (by simp))
    exact .tail (.tail toPair (edges ("d", "b") (by simp))) (edges ("b", "a") (by simp))
  · have before : (⟨0, by omega⟩ : Fin (chainedPairs.cyclesFrom ["b", "e"]).length) <
        ⟨2, by omega⟩ := Nat.zero_lt_two
    apply chainedPairs.cycles_listed_dependencies_first ["b", "e"] before
    · simp [listed]
    · simp [listed]

theorem filter_mem_of_sublist {part whole : List String} (nodup : whole.Nodup)
    (sublist : part.Sublist whole) : whole.filter (· ∈ part) = part := by
  have kept : part.filter (· ∈ part) = part := List.filter_eq_self.mpr (by simp)
  have included : part.Sublist (whole.filter (· ∈ part)) := by
    nth_rewrite 1 [← kept]
    exact sublist.filter _
  symm
  apply included.eq_of_length_le
  apply (nodup.filter _).length_le_of_subset
  intro name nameMem
  simpa using (List.mem_filter.mp nameMem).2

theorem hasOrder_preorder (graph : Graph) (roots : List String) :
    (roots.foldl (Search.visit graph) Search.start).HasOrder (graph.preorder roots) :=
  Search.HasOrder.start.visit_all graph roots

theorem ne_nil_of_mem_cyclesFrom {cycle : List String} (cycleMem : cycle ∈ graph.cyclesFrom roots) :
    cycle ≠ [] := by
  have cyclic := ((graph.cyclesFrom_listsExactly roots).sound cycle cycleMem).1
  rcases cyclic.1.nonempty with ⟨node, nodeMem⟩
  exact List.ne_nil_of_mem nodeMem

/-- Depth-first search discovers what the known roots reach, each name once. A cycle lists its
members against the order in which that search discovers them, so its last member is the one that is
discovered first. -/
theorem cycles_reverse_preorder (graph : Graph) (roots : List String) :
    (graph.preorder roots).Nodup ∧
    (∀ node, node ∈ graph.preorder roots ↔ graph.ReachedFrom roots node) ∧
    ∀ cycle ∈ graph.cyclesFrom roots,
      cycle = ((graph.preorder roots).filter (· ∈ cycle)).reverse ∧
      ∃ first, cycle.getLast? = some first ∧
        (graph.preorder roots).find? (· ∈ cycle) = some first := by
  have ordered := graph.hasOrder_preorder roots
  rcases Search.invariant_finished graph roots with ⟨_, discovered⟩
  refine ⟨ordered.nodup, fun node => (ordered.mem_iff node).trans (discovered node), ?_⟩
  intro cycle cycleMem
  have closed : cycle ∈ (roots.foldl (Search.visit graph) Search.start).components :=
    List.mem_reverse.mp (List.mem_of_mem_filter cycleMem)
  have filtered : (graph.preorder roots).filter (· ∈ cycle) = cycle.reverse := by
    have := filter_mem_of_sublist ordered.nodup (ordered.component_sublist cycle closed)
    simpa using this
  have nonempty : cycle ≠ [] := ne_nil_of_mem_cyclesFrom cycleMem
  refine ⟨by rw [filtered, List.reverse_reverse], cycle.getLast nonempty, ?_, ?_⟩
  · exact List.getLast?_eq_some_getLast nonempty
  · rw [← List.head?_filter, filtered, List.head?_reverse]
    exact List.getLast?_eq_some_getLast nonempty

/-- Two pairs of names that refer to each other. One of them is discovered between the members of
the other. -/
def interleavedPairs : Graph :=
  .ofEdges [("a", "b"), ("a", "d"), ("b", "c"), ("c", "b"), ("d", "a")]

theorem interleaved_pairs_reverse_preorder :
    interleavedPairs.cyclesFrom ["x", "a"] = [["c", "b"], ["d", "a"]] ∧
    interleavedPairs.preorder ["x", "a"] = ["a", "b", "c", "d"] ∧
    ["d", "a"] = ((interleavedPairs.preorder ["x", "a"]).filter (· ∈ ["d", "a"])).reverse ∧
    ∃ first, ["d", "a"].getLast? = some first ∧
      (interleavedPairs.preorder ["x", "a"]).find? (· ∈ ["d", "a"]) = some first := by
  have listed : interleavedPairs.cyclesFrom ["x", "a"] = [["c", "b"], ["d", "a"]] := by
    decide +kernel
  refine ⟨listed, by decide +kernel, ?_⟩
  apply (interleavedPairs.cycles_reverse_preorder ["x", "a"]).2.2
  simp [listed]

end Coupling.Graph
