import Coupling.Proofs.Graph.Cycles
import Coupling.Proofs.Index.ClassGraph

/-!
# Members of cycles

An edge of a package graph may lead to a package without project classes, and an
edge of a class graph to the name of an unknown class. Such names are no nodes,
so nothing leads on from them and they lie in no cycle. Neither graph has a loop,
so a cycle has at least two members, and each of them stands for project code.
-/

namespace Coupling.ProjectIndex

variable {scope : Scope} {registry : Registry} {package : PackageName}

theorem loopless_packageGraph (scope : Scope) (registry : Registry) :
    (build scope registry).packageGraph.Loopless := by
  intro package loop
  rcases edge_build_packageGraph.mp loop with ⟨info, _, rfl, targetMem⟩
  rcases mem_targetPackages.mp targetMem with ⟨_, _, _, _, different⟩
  exact different rfl

theorem loopless_classGraph (scope : Scope) (registry : Registry) (selected : NameSet) :
    ((build scope registry).classGraph selected).Loopless := by
  intro node loop
  exact (edge_classGraph.mp loop).1 rfl

/-- A package is listed with a registered class in scope that lies in it. -/
def HoldsProjectClass (scope : Scope) (registry : Registry) (package : PackageName) : Prop :=
  ∃ members, (build scope registry).packageContents[package]? = some members ∧
    ∃ info, info.name ∈ members ∧ registry.get? info.name = some info ∧
      info.package = package ∧ scope.containsClass info.name package = true

theorem holdsProjectClass_of_contains
    (isNode : (build scope registry).packageGraph.contains package = true) :
    HoldsProjectClass scope registry package := by
  rcases contains_build_packageGraph.mp isNode with ⟨info, infoMem, rfl⟩
  rw [mem_projectClasses] at infoMem
  have listed : info.name ∈ (build scope registry).packageContents.getD info.package ∅ :=
    mem_build_members.mpr ⟨info, getElem?_build_classes.mpr infoMem, rfl⟩
  rcases mem_getD_packageContents.mp listed with ⟨members, found, nameMem⟩
  exact ⟨members, found, info, nameMem, infoMem.1, rfl, infoMem.2⟩

/-- Two packages that refer to each other and to a class outside of the registry. -/
def outsideRegistry : Registry :=
  .ofList
    [.ofName "app.Main" (.ofList ["ext.Driver", "lib.Util"]),
     .ofName "lib.Util" (.ofList ["app.Main", "ext.Driver"])]

/-- A cycle of packages has at least two members and names none twice, and each member holds a
project class, though edges may lead to packages that hold none. A cycle of the class graph of any
names has at least two members, and each is the simple name of a project class among these names. -/
theorem cycles_name_project_code :
    (∀ (scope : Scope) (registry : Registry) (selected : NameSet),
      (∀ cycle ∈ (build scope registry).packageCycles selected,
        2 ≤ cycle.length ∧ cycle.Nodup ∧
          ∀ package ∈ cycle, HoldsProjectClass scope registry package) ∧
      ∀ cycle ∈ ((build scope registry).classGraph selected).cycles,
        2 ≤ cycle.length ∧ cycle.Nodup ∧
          ∀ simpleName ∈ cycle, ∃ name ∈ selected,
            name ∈ (build scope registry).classes ∧ Name.simple name = simpleName) ∧
    ∃ scope registry source target,
      (build scope registry).packageGraph.hasEdge source target = true ∧
        target ∉ (build scope registry).packageContents := by
  refine ⟨fun scope registry selected => ⟨?_, ?_⟩, ?_⟩
  · intro cycle cycleMem
    have lists := (build scope registry).packageGraph.cyclesFrom_listsExactly selected.toList
    refine ⟨(loopless_packageGraph scope registry).two_le_length cycleMem,
      lists.nodup cycle cycleMem, ?_⟩
    intro package packageMem
    exact holdsProjectClass_of_contains ((lists.sound cycle cycleMem).1.contains packageMem)
  · intro cycle cycleMem
    have lists := ((build scope registry).classGraph selected).cycles_listsExactly
    refine ⟨(loopless_classGraph scope registry selected).two_le_length cycleMem,
      lists.nodup cycle cycleMem, ?_⟩
    intro simpleName nameMem
    exact contains_classGraph.mp ((lists.sound cycle cycleMem).contains nameMem)
  · exact ⟨.platform, outsideRegistry, "app", "ext", by decide +kernel, by decide +kernel⟩

/-- The outside class is selected and referred to, but neither it nor its package is in a cycle. -/
theorem cycles_beside_unknown_class :
    ((build .platform outsideRegistry).packageCycles (.ofList ["app", "ext"]) = [["lib", "app"]] ∧
      ∀ package ∈ ["lib", "app"], HoldsProjectClass .platform outsideRegistry package) ∧
    ((build .platform outsideRegistry).classGraph
        (.ofList ["app.Main", "ext.Driver", "lib.Util"])).hasEdge "Main" "Driver" = true ∧
    ((build .platform outsideRegistry).classGraph
        (.ofList ["app.Main", "ext.Driver", "lib.Util"])).cycles = [["Util", "Main"]] ∧
    ∀ simpleName ∈ ["Util", "Main"],
      ∃ name ∈ NameSet.ofList ["app.Main", "ext.Driver", "lib.Util"],
        name ∈ (build .platform outsideRegistry).classes ∧ Name.simple name = simpleName := by
  have packageCycles : (build .platform outsideRegistry).packageCycles (.ofList ["app", "ext"]) =
      [["lib", "app"]] := by decide +kernel
  have classCycles : ((build .platform outsideRegistry).classGraph
      (.ofList ["app.Main", "ext.Driver", "lib.Util"])).cycles = [["Util", "Main"]] := by
    decide +kernel
  refine ⟨⟨packageCycles, ?_⟩, by decide +kernel, classCycles, ?_⟩
  · exact ((cycles_name_project_code.1 .platform outsideRegistry _).1 _
      (packageCycles ▸ List.mem_singleton_self _)).2.2
  · exact ((cycles_name_project_code.1 .platform outsideRegistry _).2 _
      (classCycles ▸ List.mem_singleton_self _)).2.2

end Coupling.ProjectIndex
