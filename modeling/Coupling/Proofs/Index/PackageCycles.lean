import Coupling.Analysis
import Coupling.Proofs.Graph.Cycles
import Coupling.Proofs.Index.Build

/-!
# Class cycles seen from the packages

A dependency between two project classes is an edge between their packages,
unless they share one. So a walk along dependencies is a walk in the package
graph that stands still inside a package, and classes of different packages that
depend on each other put their packages into one package cycle.
-/

namespace Coupling.ProjectIndex

variable {scope : Scope} {registry : Registry} {index : ProjectIndex}

/-- One project class depends on another directly. -/
def DependsOn (index : ProjectIndex) (source target : ClassName) : Prop :=
  ∃ info, index.classes[source]? = some info ∧ target ∈ info.dependencies ∧
    target ∈ index.classes

/-- One project class depends on another through project classes, or is that class. -/
def DependsThrough (index : ProjectIndex) : ClassName → ClassName → Prop :=
  Relation.ReflTransGen index.DependsOn

/-- The classes of one package or of packages that an edge leads between. -/
theorem reaches_package_of_dependsOn {source target : ClassName} {sourceInfo targetInfo : ClassInfo}
    (depends : (build scope registry).DependsOn source target)
    (sourceFound : (build scope registry).classes[source]? = some sourceInfo)
    (targetFound : (build scope registry).classes[target]? = some targetInfo) :
    (build scope registry).packageGraph.Reaches sourceInfo.package targetInfo.package := by
  rcases depends with ⟨info, found, dependency, _⟩
  rw [sourceFound] at found
  cases found
  by_cases same : targetInfo.package = sourceInfo.package
  · exact same ▸ .refl targetInfo.package
  · apply Graph.Reaches.ofEdge
    rw [getElem?_build_classes] at sourceFound targetFound
    have sourceName := Registry.name_of_get? sourceFound.1
    rw [edge_build_packageGraph]
    refine ⟨sourceInfo, mem_projectClasses.mpr (sourceName ▸ sourceFound), rfl, ?_⟩
    rw [mem_targetPackages]
    exact ⟨target, dependency, by simp [packageOf, targetFound.1], targetFound.2, same⟩

/-- Dependencies through project classes lead along edges of the package graph. -/
theorem reaches_package {source target : ClassName} {sourceInfo targetInfo : ClassInfo}
    (depends : (build scope registry).DependsThrough source target)
    (sourceFound : (build scope registry).classes[source]? = some sourceInfo)
    (targetFound : (build scope registry).classes[target]? = some targetInfo) :
    (build scope registry).packageGraph.Reaches sourceInfo.package targetInfo.package := by
  induction depends generalizing targetInfo with
  | refl =>
      rw [sourceFound] at targetFound
      cases targetFound
      exact .refl _
  | tail _ step ih =>
      have ⟨middleInfo, middleFound, _⟩ := step
      exact (ih middleFound).trans (reaches_package_of_dependsOn step middleFound targetFound)

theorem contains_package_of_class {name : ClassName} {info : ClassInfo}
    (found : (build scope registry).classes[name]? = some info) :
    (build scope registry).packageGraph.contains info.package = true := by
  rw [getElem?_build_classes] at found
  have sameName := Registry.name_of_get? found.1
  rw [contains_build_packageGraph]
  exact ⟨info, mem_projectClasses.mpr (sameName ▸ found), rfl⟩

theorem mem_selectPackages_nil {name : ClassName} {info : ClassInfo}
    (found : (build scope registry).classes[name]? = some info) :
    info.package ∈ (build scope registry).selectPackages [] := by
  rw [getElem?_build_classes] at found
  have sameName := Registry.name_of_get? found.1
  simp only [selectPackages, NameSet.ofList, Std.ExtTreeSet.mem_ofList, List.isEmpty_nil,
    Bool.true_or, List.filter_true, List.contains_iff_mem]
  exact mem_build_packages.mpr ⟨info, mem_projectClasses.mpr (sameName ▸ found), rfl⟩

/-- Two project classes of different packages that depend on each other have their packages in one
cycle, in the analysis of all packages and from every selection that has one of the two. -/
theorem package_cycle_of_class_cycle (scope : Scope) (registry : Registry)
    {first second : ClassName} {firstInfo secondInfo : ClassInfo}
    (firstFound : (build scope registry).classes[first]? = some firstInfo)
    (secondFound : (build scope registry).classes[second]? = some secondInfo)
    (different : firstInfo.package ≠ secondInfo.package)
    (forth : (build scope registry).DependsThrough first second)
    (back : (build scope registry).DependsThrough second first) :
    (∃ cycle ∈ ((build scope registry).analyzePackages []).cycles,
      firstInfo.package ∈ cycle ∧ secondInfo.package ∈ cycle) ∧
    ∀ selected : NameSet, firstInfo.package ∈ selected ∨ secondInfo.package ∈ selected →
      ∃ cycle ∈ (build scope registry).packageCycles selected,
        firstInfo.package ∈ cycle ∧ secondInfo.package ∈ cycle := by
  have forthPackages := reaches_package forth firstFound secondFound
  have backPackages := reaches_package back secondFound firstFound
  have fromSelection : ∀ selected : NameSet,
      firstInfo.package ∈ selected ∨ secondInfo.package ∈ selected →
        ∃ cycle ∈ (build scope registry).packageCycles selected,
          firstInfo.package ∈ cycle ∧ secondInfo.package ∈ cycle := by
    intro selected chosen
    apply Graph.exists_cycle_of_mutual forthPackages backPackages different
    rcases chosen with firstChosen | secondChosen
    · exact ⟨_, Std.ExtTreeSet.mem_toList.mpr firstChosen, contains_package_of_class firstFound,
        .refl _⟩
    · exact ⟨_, Std.ExtTreeSet.mem_toList.mpr secondChosen, contains_package_of_class secondFound,
        backPackages⟩
  exact ⟨fromSelection _ (Or.inl (mem_selectPackages_nil firstFound)), fromSelection⟩

/-- Three classes that depend on each other in a ring. Two of them share a package, and the third
lies in another one than its name spells. -/
def ringRegistry : Registry :=
  .ofList
    [⟨"app.A", "app", .ofList ["app.B"]⟩,
     ⟨"app.B", "app", .ofList ["lib.C"]⟩,
     ⟨"lib.C", "core", .ofList ["app.A"]⟩]

theorem package_cycle_of_ring :
    (∃ cycle ∈ ((build .platform ringRegistry).analyzePackages []).cycles,
      "app" ∈ cycle ∧ "core" ∈ cycle) ∧
    ∃ cycle ∈ (build .platform ringRegistry).packageCycles (.ofList ["core"]),
      "app" ∈ cycle ∧ "core" ∈ cycle := by
  have foundA : (build .platform ringRegistry).classes["app.A"]? =
      some ⟨"app.A", "app", .ofList ["app.B"]⟩ := by decide +kernel
  have foundB : (build .platform ringRegistry).classes["app.B"]? =
      some ⟨"app.B", "app", .ofList ["lib.C"]⟩ := by decide +kernel
  have foundC : (build .platform ringRegistry).classes["lib.C"]? =
      some ⟨"lib.C", "core", .ofList ["app.A"]⟩ := by decide +kernel
  have forth : (build .platform ringRegistry).DependsThrough "app.A" "lib.C" :=
    .tail (.single ⟨_, foundA, by decide +kernel, by decide +kernel⟩)
      ⟨_, foundB, by decide +kernel, by decide +kernel⟩
  have back : (build .platform ringRegistry).DependsThrough "lib.C" "app.A" :=
    .single ⟨_, foundC, by decide +kernel, by decide +kernel⟩
  have both := package_cycle_of_class_cycle .platform ringRegistry foundA foundC (by decide) forth
    back
  exact ⟨both.1, both.2 (.ofList ["core"]) (Or.inr (by decide +kernel))⟩

end Coupling.ProjectIndex
