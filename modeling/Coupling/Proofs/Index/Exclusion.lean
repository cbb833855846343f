import Coupling.Proofs.Graph.Comparison
import Coupling.Proofs.Index.Build
import Coupling.Proofs.Index.PackageSelection

/-!
# Excluding more names

A scope that excludes more contains fewer names. Whether a class or a reference
is in scope is asked of names and packages, and the package of a dependency is
looked up among all registered classes, whatever the scope. So the index of a
narrower scope has fewer classes and a part of the package graph, and each of
its package cycles lies inside one of the wider scope.
-/

namespace Coupling

variable {wide narrow : Scope} {registry : Registry}

namespace Scope

theorem contains_iff {scope : Scope} {name : String} :
    scope.contains name = true ↔
      ∀ excluded ∈ scope.excluded, Name.startsWith name excluded = false := by
  simp [contains]

/-- The first scope excludes whatever the second one does. -/
def IsNarrower (narrow wide : Scope) : Prop :=
  wide.excluded ⊆ narrow.excluded

theorem IsNarrower.contains {name : String} (narrower : narrow.IsNarrower wide)
    (inScope : narrow.contains name = true) : wide.contains name = true := by
  rw [contains_iff] at inScope ⊢
  intro excluded excludedMem
  exact inScope excluded (narrower excludedMem)

theorem IsNarrower.containsClass {name : ClassName} {package : PackageName}
    (narrower : narrow.IsNarrower wide) (inScope : narrow.containsClass name package = true) :
    wide.containsClass name package = true := by
  rw [Scope.containsClass, Bool.and_eq_true] at inScope ⊢
  exact ⟨narrower.contains inScope.1, narrower.contains inScope.2⟩

end Scope

namespace ProjectIndex

theorem mem_projectClasses_of_narrower {info : ClassInfo} (narrower : narrow.IsNarrower wide)
    (infoMem : info ∈ projectClasses narrow registry) : info ∈ projectClasses wide registry := by
  rw [mem_projectClasses] at infoMem ⊢
  exact ⟨infoMem.1, narrower.containsClass infoMem.2⟩

theorem getElem?_build_classes_of_narrower {name : ClassName} {info : ClassInfo}
    (narrower : narrow.IsNarrower wide)
    (found : (build narrow registry).classes[name]? = some info) :
    (build wide registry).classes[name]? = some info := by
  rw [getElem?_build_classes] at found ⊢
  exact ⟨found.1, narrower.containsClass found.2⟩

theorem contains_packageGraph_of_narrower {package : PackageName}
    (narrower : narrow.IsNarrower wide)
    (isNode : (build narrow registry).packageGraph.contains package = true) :
    (build wide registry).packageGraph.contains package = true := by
  rw [contains_build_packageGraph] at isNode ⊢
  rcases isNode with ⟨info, infoMem, samePackage⟩
  exact ⟨info, mem_projectClasses_of_narrower narrower infoMem, samePackage⟩

theorem packageGraph_isPartOf (registry : Registry) (narrower : narrow.IsNarrower wide) :
    (build narrow registry).packageGraph.IsPartOf (build wide registry).packageGraph := by
  intro source target edge
  rw [edge_build_packageGraph] at edge ⊢
  rcases edge with ⟨info, infoMem, rfl, targetMem⟩
  refine ⟨info, mem_projectClasses_of_narrower narrower infoMem, rfl, ?_⟩
  rw [mem_targetPackages] at targetMem ⊢
  rcases targetMem with ⟨dependency, refers, samePackage, inScope, different⟩
  exact ⟨dependency, refers, samePackage, narrower.containsClass inScope, different⟩

/-- Every node of the package graph is a root when all packages are selected. -/
theorem reachedFrom_all_packages {scope : Scope} {package : PackageName}
    (isNode : (build scope registry).packageGraph.contains package = true) :
    (build scope registry).packageGraph.ReachedFrom
      ((build scope registry).selectPackages []).toList package := by
  refine ⟨package, ?_, isNode, .refl package⟩
  rw [Std.ExtTreeSet.mem_toList, mem_selectPackages, mem_build_packages]
  exact ⟨contains_build_packageGraph.mp isNode, Or.inl rfl⟩

/-- A scope that excludes more names gives fewer classes and fewer nodes and edges of the package
graph, and each cycle of all its packages lies in exactly one of those of the other scope. -/
theorem excluding_more_creates_no_cycle (registry : Registry) {narrow wide : Scope}
    (included : wide.excluded ⊆ narrow.excluded) :
    (∀ (name : ClassName) (info : ClassInfo), (build narrow registry).classes[name]? = some info →
      (build wide registry).classes[name]? = some info) ∧
    (∀ package, (build narrow registry).packageGraph.contains package = true →
      (build wide registry).packageGraph.contains package = true) ∧
    (∀ source target, (build narrow registry).packageGraph.hasEdge source target = true →
      (build wide registry).packageGraph.hasEdge source target = true) ∧
    ∀ cycle ∈ (build narrow registry).packageCycles ((build narrow registry).selectPackages []),
      ∃! position : Fin ((build wide registry).packageCycles
          ((build wide registry).selectPackages [])).length,
        cycle ⊆ ((build wide registry).packageCycles
          ((build wide registry).selectPackages [])).get position := by
  have narrower : narrow.IsNarrower wide := included
  have isPart := packageGraph_isPartOf registry narrower
  refine ⟨fun _ _ => getElem?_build_classes_of_narrower narrower,
    fun _ => contains_packageGraph_of_narrower narrower, isPart, ?_⟩
  intro cycle cycleMem
  have cyclic := ((Graph.cyclesFrom_listsExactly _ _).sound cycle cycleMem).1
  apply isPart.existsUnique_cycle cyclic
  intro package isNode
  exact reachedFrom_all_packages (contains_packageGraph_of_narrower narrower isNode)

/-- Three packages that refer to each other, one of them bought in. -/
def vendorRegistry : Registry :=
  .ofList
    [.ofName "app.Main" (.ofList ["lib.Util", "vendor.Tool"]),
     .ofName "lib.Util" (.ofList ["app.Main", "java.util.List"]),
     .ofName "vendor.Tool" (.ofList ["app.Main"])]

/-- Without the bought-in classes the cycle of three packages shrinks to one of two. -/
theorem cycle_shrinks_without_vendor :
    Scope.platform.excluded ⊆ "vendor." :: Scope.platform.excluded ∧
    (build .platform vendorRegistry).packageCycles
      ((build .platform vendorRegistry).selectPackages []) = [["vendor", "lib", "app"]] ∧
    (build ⟨"vendor." :: Scope.platform.excluded⟩ vendorRegistry).packageCycles
      ((build ⟨"vendor." :: Scope.platform.excluded⟩ vendorRegistry).selectPackages []) =
        [["lib", "app"]] ∧
    ∃! position : Fin ((build .platform vendorRegistry).packageCycles
        ((build .platform vendorRegistry).selectPackages [])).length,
      ["lib", "app"] ⊆ ((build .platform vendorRegistry).packageCycles
        ((build .platform vendorRegistry).selectPackages [])).get position := by
  have included : Scope.platform.excluded ⊆ "vendor." :: Scope.platform.excluded :=
    List.subset_cons_self _ _
  have remaining : (build ⟨"vendor." :: Scope.platform.excluded⟩ vendorRegistry).packageCycles
      ((build ⟨"vendor." :: Scope.platform.excluded⟩ vendorRegistry).selectPackages []) =
        [["lib", "app"]] := by decide +kernel
  refine ⟨included, by decide +kernel, remaining, ?_⟩
  exact (excluding_more_creates_no_cycle vendorRegistry included).2.2.2 _
    (remaining ▸ List.mem_singleton_self _)

end ProjectIndex

end Coupling
