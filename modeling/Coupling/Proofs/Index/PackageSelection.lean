import Coupling.Analysis
import Coupling.Proofs.Graph.Comparison

/-!
# Package selections

The view of a package selection shows two things that are computed apart: the
package graph restricted to the selected packages, and the cycles that a search
of the whole package graph finds from them. The shown graph is a part of the
searched one and each of its nodes is a root, so every shown cycle lies inside a
reported one.

Selectors only decide which packages are roots. The cycles of several selectors
are therefore those of each of them, whatever their order.
-/

namespace Coupling.ProjectIndex

variable {index : ProjectIndex} {package : PackageName} {selectors : List String}

theorem mem_selectPackages :
    package ∈ index.selectPackages selectors ↔
      package ∈ index.packages ∧
        (selectors = [] ∨ ∃ selector ∈ selectors, Name.isWithin package selector = true) := by
  simp [selectPackages, NameSet.ofList]

theorem edge_analyzePackages_graph {source target : PackageName} :
    (index.analyzePackages selectors).graph.Edge source target ↔
      index.packageGraph.Edge source target ∧
        source ∈ (index.analyzePackages selectors).selected ∧
        target ∈ (index.analyzePackages selectors).selected := by
  simp only [analyzePackages, packageSubgraph, Graph.edge_restrict, Std.ExtTreeSet.contains_iff_mem,
    Std.ExtTreeSet.mem_toList]

/-- Every node of the shown graph is a root of the search. -/
theorem reachedFrom_selected
    (shown : (index.analyzePackages selectors).graph.contains package = true) :
    index.packageGraph.ReachedFrom (index.selectPackages selectors).toList package := by
  rcases Graph.contains_restrict.mp shown with ⟨isNode, selected⟩
  refine ⟨package, ?_, isNode, .refl package⟩
  simpa using selected

theorem existsUnique_reported_cycle {shown : List PackageName}
    (shownMem : shown ∈ (index.analyzePackages selectors).graph.cycles) :
    ∃! position : Fin (index.analyzePackages selectors).cycles.length,
      shown ⊆ (index.analyzePackages selectors).cycles.get position := by
  have cyclic := (Graph.cycles_listsExactly _).sound shown shownMem
  have included : (index.analyzePackages selectors).graph.IsPartOf index.packageGraph :=
    Graph.restrict_isPartOf _ _
  exact included.existsUnique_cycle cyclic fun _ => reachedFrom_selected

/-- The shown graph has exactly the edges between selected packages, each of its cycles lies in
exactly one reported cycle, and it has no closed walk if no cycle is reported. -/
theorem shown_cycles_within_reported (index : ProjectIndex) (selectors : List String) :
    (∀ source target, (index.analyzePackages selectors).graph.Edge source target ↔
      index.packageGraph.Edge source target ∧
        source ∈ (index.analyzePackages selectors).selected ∧
        target ∈ (index.analyzePackages selectors).selected) ∧
    (∀ shown ∈ (index.analyzePackages selectors).graph.cycles,
      ∃! position : Fin (index.analyzePackages selectors).cycles.length,
        shown ⊆ (index.analyzePackages selectors).cycles.get position) ∧
    ((index.analyzePackages selectors).cycles = [] →
      ∀ package,
        ¬Relation.TransGen (index.analyzePackages selectors).graph.Edge package package) := by
  refine ⟨fun _ _ => edge_analyzePackages_graph, fun _ => existsUnique_reported_cycle, ?_⟩
  intro noneReported package closedWalk
  rw [← Graph.isCyclicComponent_componentOf_iff] at closedWalk
  rcases (Graph.cycles_listsExactly _).complete _ closedWalk with ⟨shown, shownMem, _⟩
  rcases existsUnique_reported_cycle shownMem with ⟨position, _, _⟩
  rw [noneReported] at position
  exact position.elim0

/-- Two groups of packages that depend on each other: `core`, `data` and `web`, and `skin` and `ui`.
Between `core` and `data` there is a cycle also without `web`. -/
def groupedRegistry : Registry :=
  .ofList
    [.ofName "core.Service" (.ofList ["data.Repo"]),
     .ofName "data.Repo" (.ofList ["core.Service", "web.Page"]),
     .ofName "web.Page" (.ofList ["core.Service"]),
     .ofName "skin.Theme" (.ofList ["ui.View"]),
     .ofName "ui.View" (.ofList ["core.Service", "skin.Theme"])]

/-- The shown cycle of two packages lies in a reported one that has a third package. -/
theorem shown_cycle_within_larger :
    ((build .platform groupedRegistry).analyzePackages ["core", "data"]).graph.cycles =
      [["data", "core"]] ∧
    ((build .platform groupedRegistry).analyzePackages ["core", "data"]).cycles =
      [["web", "data", "core"]] ∧
    ∃! position : Fin
        ((build .platform groupedRegistry).analyzePackages ["core", "data"]).cycles.length,
      ["data", "core"] ⊆
        ((build .platform groupedRegistry).analyzePackages ["core", "data"]).cycles.get position := by
  have shown : ((build .platform groupedRegistry).analyzePackages ["core", "data"]).graph.cycles =
      [["data", "core"]] := by decide +kernel
  refine ⟨shown, by decide +kernel, ?_⟩
  apply (shown_cycles_within_reported (build .platform groupedRegistry) ["core", "data"]).2.1
  simp [shown]

theorem mem_selectPackages_append {first second : List String} (firstGiven : first ≠ [])
    (secondGiven : second ≠ []) :
    package ∈ index.selectPackages (first ++ second) ↔
      package ∈ index.selectPackages first ∨ package ∈ index.selectPackages second := by
  simp only [mem_selectPackages, List.append_eq_nil_iff, firstGiven, secondGiven, and_self,
    false_or, List.mem_append]
  constructor
  · rintro ⟨known, selector, inFirst | inSecond, within⟩
    · exact Or.inl ⟨known, selector, inFirst, within⟩
    · exact Or.inr ⟨known, selector, inSecond, within⟩
  · rintro (⟨known, selector, inFirst, within⟩ | ⟨known, selector, inSecond, within⟩)
    · exact ⟨known, selector, Or.inl inFirst, within⟩
    · exact ⟨known, selector, Or.inr inSecond, within⟩

theorem selectPackages_mono {wider : List String} (given : selectors ≠ [])
    (included : selectors ⊆ wider) (selected : package ∈ index.selectPackages selectors) :
    package ∈ index.selectPackages wider := by
  rw [mem_selectPackages] at selected ⊢
  rcases selected with ⟨known, none | ⟨selector, selectorMem, within⟩⟩
  · exact absurd none given
  · exact ⟨known, Or.inr ⟨selector, included selectorMem, within⟩⟩

theorem selectPackages_subset_all (selected : package ∈ index.selectPackages selectors) :
    package ∈ index.selectPackages [] := by
  rw [mem_selectPackages] at selected ⊢
  exact ⟨selected.1, Or.inl rfl⟩

theorem selectPackages_perm {reordered : List String} (same : reordered.Perm selectors) :
    index.selectPackages reordered = index.selectPackages selectors := by
  apply Std.ExtTreeSet.ext_mem
  intro package
  have bothEmpty : reordered = [] ↔ selectors = [] := by
    rw [← List.length_eq_zero_iff, ← List.length_eq_zero_iff, same.length_eq]
  simp only [mem_selectPackages, same.mem_iff, bothEmpty]

/-- A selection that has every package of another one has all its cycles. -/
theorem nodeSets_analyzePackages_mono {wider : List String}
    (included : ∀ package ∈ index.selectPackages selectors, package ∈ index.selectPackages wider) :
    Graph.nodeSets (index.analyzePackages selectors).cycles ⊆
      Graph.nodeSets (index.analyzePackages wider).cycles := by
  apply Graph.nodeSets_cyclesFrom_mono
  intro package
  simpa using included package

/-- The cycles of two lists of selectors together are those of each of them, and all are among those
of all packages. Further selectors remove none, and the order of selectors does not matter. -/
theorem package_selections_compose (index : ProjectIndex) {first second : List String}
    (firstGiven : first ≠ []) (secondGiven : second ≠ []) :
    Graph.nodeSets (index.analyzePackages (first ++ second)).cycles =
      Graph.nodeSets (index.analyzePackages first).cycles ∪
        Graph.nodeSets (index.analyzePackages second).cycles ∧
    Graph.nodeSets (index.analyzePackages first).cycles ⊆
      Graph.nodeSets (index.analyzePackages []).cycles ∧
    Graph.nodeSets (index.analyzePackages second).cycles ⊆
      Graph.nodeSets (index.analyzePackages []).cycles ∧
    (∀ wider, first ⊆ wider →
      Graph.nodeSets (index.analyzePackages first).cycles ⊆
        Graph.nodeSets (index.analyzePackages wider).cycles) ∧
    ∀ reordered, reordered.Perm first →
      index.analyzePackages reordered = index.analyzePackages first := by
  refine ⟨?_, ?_, ?_, ?_, ?_⟩
  · apply Graph.nodeSets_cyclesFrom_union
    intro package
    simpa using mem_selectPackages_append firstGiven secondGiven
  · exact nodeSets_analyzePackages_mono fun _ => selectPackages_subset_all
  · exact nodeSets_analyzePackages_mono fun _ => selectPackages_subset_all
  · intro wider included
    exact nodeSets_analyzePackages_mono fun _ => selectPackages_mono firstGiven included
  · intro reordered same
    simp only [analyzePackages, selectPackages_perm same]

/-- A search from `ui` meets both groups and one from `data` only its own, which it lists from
another package on. -/
theorem grouped_selections_compose :
    ((build .platform groupedRegistry).analyzePackages ["data"]).cycles =
      [["web", "core", "data"]] ∧
    ((build .platform groupedRegistry).analyzePackages ["ui"]).cycles =
      [["web", "data", "core"], ["skin", "ui"]] ∧
    Graph.nodeSets ((build .platform groupedRegistry).analyzePackages ["data", "ui"]).cycles =
      Graph.nodeSets ((build .platform groupedRegistry).analyzePackages ["data"]).cycles ∪
        Graph.nodeSets ((build .platform groupedRegistry).analyzePackages ["ui"]).cycles ∧
    Graph.nodeSets ((build .platform groupedRegistry).analyzePackages ["data"]).cycles ⊆
      Graph.nodeSets ((build .platform groupedRegistry).analyzePackages ["ui", "data"]).cycles := by
  have composed := package_selections_compose (build .platform groupedRegistry)
    (List.cons_ne_nil "data" []) (List.cons_ne_nil "ui" [])
  exact ⟨by decide +kernel, by decide +kernel, composed.1,
    composed.2.2.2.1 ["ui", "data"] (by simp)⟩

end Coupling.ProjectIndex
