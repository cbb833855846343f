import Coupling.Proofs.Graph.Comparison
import Coupling.Proofs.Index.ClassGraph

/-!
# Growing class selections

Package cycles come from a search of one graph, whatever is selected. A class
graph is made for its selection instead, so a further class may join cycles that
were apart. It takes nothing away: a class and a reference get into the graph if
their names are selected, and what else is asked of them does not depend on the
selection. The graph of fewer names is a part of the graph of more.
-/

namespace Coupling.ProjectIndex

variable {index : ProjectIndex} {fewer more : NameSet} {info : ClassInfo}

theorem selectedClasses_mono (included : ∀ name ∈ fewer, name ∈ more)
    (infoMem : info ∈ index.selectedClasses fewer) : info ∈ index.selectedClasses more := by
  rw [mem_selectedClasses] at infoMem ⊢
  rcases infoMem with ⟨name, chosen, found⟩
  exact ⟨name, included name chosen, found⟩

theorem targetNames_mono {target : SimpleName} (included : ∀ name ∈ fewer, name ∈ more)
    (targetMem : target ∈ targetNames fewer info) : target ∈ targetNames more info := by
  rw [mem_targetNames] at targetMem ⊢
  rcases targetMem with ⟨dependency, refers, chosen, sameSimple, different, notEnclosing⟩
  exact ⟨dependency, refers, included dependency chosen, sameSimple, different, notEnclosing⟩

theorem contains_classGraph_mono {node : SimpleName} (included : ∀ name ∈ fewer, name ∈ more)
    (isNode : (index.classGraph fewer).contains node = true) :
    (index.classGraph more).contains node = true := by
  rw [classGraph_eq_foldl_addStar, Graph.contains_foldl_addStar] at isNode ⊢
  apply isNode.imp_left
  rintro ⟨info, infoMem, rfl⟩
  exact ⟨info, selectedClasses_mono included infoMem, rfl⟩

theorem classGraph_isPartOf (index : ProjectIndex) (included : ∀ name ∈ fewer, name ∈ more) :
    (index.classGraph fewer).IsPartOf (index.classGraph more) := by
  intro source target edge
  rw [classGraph_eq_foldl_addStar, Graph.edge_foldl_addStar] at edge ⊢
  apply edge.imp_left
  rintro ⟨info, infoMem, rfl, targetMem⟩
  exact ⟨info, selectedClasses_mono included infoMem, rfl, targetNames_mono included targetMem⟩

/-- The class graph of more names has the nodes and edges of the one of fewer, and each cycle of the
smaller graph lies in exactly one cycle of the larger. -/
theorem growing_selection_keeps_cycles (index : ProjectIndex) {fewer more : NameSet}
    (included : ∀ name ∈ fewer, name ∈ more) :
    (∀ node, (index.classGraph fewer).contains node = true →
      (index.classGraph more).contains node = true) ∧
    (∀ source target, (index.classGraph fewer).hasEdge source target = true →
      (index.classGraph more).hasEdge source target = true) ∧
    ∀ cycle ∈ (index.classGraph fewer).cycles,
      ∃! position : Fin (index.classGraph more).cycles.length,
        cycle ⊆ (index.classGraph more).cycles.get position := by
  have isPart := classGraph_isPartOf index included
  refine ⟨fun _ => contains_classGraph_mono included, isPart, ?_⟩
  intro cycle cycleMem
  have cyclic := (Graph.cycles_listsExactly _).sound cycle cycleMem
  apply isPart.existsUnique_cycle cyclic
  intro node isNode
  exact Graph.reachedFrom_nodes (contains_classGraph_mono included isNode)

/-- Two pairs of classes that refer to each other, and a class between the pairs. -/
def hubRegistry : Registry :=
  .ofList
    [.ofName "bus.Hub" (.ofList ["sales.Order", "stock.Item"]),
     .ofName "sales.Line" (.ofList ["sales.Order"]),
     .ofName "sales.Order" (.ofList ["bus.Hub", "sales.Line"]),
     .ofName "stock.Item" (.ofList ["bus.Hub", "stock.Shelf"]),
     .ofName "stock.Shelf" (.ofList ["stock.Item"])]

/-- The cycles of the two pairs join when the class between them is selected too. -/
theorem cycles_join_through_hub :
    (∀ name ∈ (build .platform hubRegistry).selectClasses ["sales", "stock"],
      name ∈ (build .platform hubRegistry).selectClasses []) ∧
    ((build .platform hubRegistry).classGraph
        ((build .platform hubRegistry).selectClasses ["sales", "stock"])).cycles =
      [["Shelf", "Item"], ["Order", "Line"]] ∧
    ((build .platform hubRegistry).classGraph
        ((build .platform hubRegistry).selectClasses [])).cycles =
      [["Line", "Order", "Shelf", "Item", "Hub"]] ∧
    ∃! position : Fin ((build .platform hubRegistry).classGraph
        ((build .platform hubRegistry).selectClasses [])).cycles.length,
      ["Shelf", "Item"] ⊆ ((build .platform hubRegistry).classGraph
        ((build .platform hubRegistry).selectClasses [])).cycles.get position := by
  have included : ∀ name ∈ (build .platform hubRegistry).selectClasses ["sales", "stock"],
      name ∈ (build .platform hubRegistry).selectClasses [] := by
    intro name chosen
    rcases exists_class_of_selected chosen with ⟨info, found⟩
    exact mem_selectClasses.mpr ⟨info, found, Or.inl rfl⟩
  have apart : ((build .platform hubRegistry).classGraph
      ((build .platform hubRegistry).selectClasses ["sales", "stock"])).cycles =
        [["Shelf", "Item"], ["Order", "Line"]] := by decide +kernel
  refine ⟨included, apart, by decide +kernel, ?_⟩
  apply (growing_selection_keeps_cycles (build .platform hubRegistry) included).2.2
  simp [apart]

end Coupling.ProjectIndex
