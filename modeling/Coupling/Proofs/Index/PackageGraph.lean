import Coupling.Proofs.Index.Build

/-!
# The package graph of a registry

The package graph in terms of the registry and the scope alone. A class counts
if its name and its package are both in scope, and so does a reference. Where a
reference leads is decided by the registry, which may put a class into another
package than its name spells; only for a class that is not registered does the
name decide.

A package that is referred to but holds no project class is no node. Such a
reference is to a class that is not registered: a registered one would put its
package among the nodes, by the same two questions that the reference has to
pass.
-/

namespace Coupling.ProjectIndex

variable {scope : Scope} {registry : Registry} {info : ClassInfo} {name : ClassName}
  {package source target : PackageName}

/-- A registered class whose name and package are both in scope. -/
structure IsProjectClass (scope : Scope) (registry : Registry) (info : ClassInfo) : Prop where
  registered : registry.get? info.name = some info
  name_inScope : scope.contains info.name = true
  package_inScope : scope.contains info.package = true

/-- The package that a class lies in: the registered one, or the one that its name spells if the
class is not registered. -/
inductive LiesIn (registry : Registry) (name : ClassName) : PackageName → Prop
  | registered {info : ClassInfo} (found : registry.get? name = some info) :
      LiesIn registry name info.package
  | spelled (unknown : registry.get? name = none) : LiesIn registry name (Name.package name)

/-- The sets of names partition the project classes: each set has a member, its members are the
project classes of its package, and each project class is in exactly one of the sets. -/
structure PartitionsClasses (scope : Scope) (registry : Registry)
    (contents : Std.ExtTreeMap PackageName NameSet) : Prop where
  inhabited : ∀ (package : PackageName) (members : NameSet), contents[package]? = some members →
    ∃ name, name ∈ members
  mem_iff : ∀ (package : PackageName) (members : NameSet), contents[package]? = some members →
    ∀ name, name ∈ members ↔
      ∃ info, IsProjectClass scope registry info ∧ info.package = package ∧ info.name = name
  placed : ∀ info, IsProjectClass scope registry info →
    ∃! package : PackageName, ∃ members, contents[package]? = some members ∧ info.name ∈ members

theorem isProjectClass_iff :
    IsProjectClass scope registry info ↔ info ∈ projectClasses scope registry := by
  rw [mem_projectClasses, Scope.containsClass, Bool.and_eq_true]
  constructor
  · intro isProject
    exact ⟨isProject.registered, isProject.name_inScope, isProject.package_inScope⟩
  · rintro ⟨registered, nameInScope, packageInScope⟩
    exact ⟨registered, nameInScope, packageInScope⟩

theorem liesIn_iff : LiesIn registry name package ↔ packageOf registry name = package := by
  constructor
  · intro lies
    cases lies with
    | registered found => simp [packageOf, found]
    | spelled unknown => simp [packageOf, unknown]
  · rintro rfl
    cases found : registry.get? name with
    | none =>
        simp only [packageOf, found]
        exact .spelled found
    | some info =>
        simp only [packageOf, found]
        exact .registered found

theorem isProjectClass_iff_build :
    IsProjectClass scope registry info ↔
      (build scope registry).classes[info.name]? = some info := by
  rw [isProjectClass_iff, mem_projectClasses, getElem?_build_classes]

theorem contains_packageGraph_iff :
    (build scope registry).packageGraph.contains package = true ↔
      ∃ info, IsProjectClass scope registry info ∧ info.package = package := by
  simp only [contains_build_packageGraph, isProjectClass_iff]

theorem edge_packageGraph_iff :
    (build scope registry).packageGraph.Edge source target ↔
      source ≠ target ∧ ∃ info, IsProjectClass scope registry info ∧ info.package = source ∧
        ∃ dependency ∈ info.dependencies, LiesIn registry dependency target ∧
          scope.contains dependency = true ∧ scope.contains target = true := by
  simp only [edge_build_packageGraph, mem_targetPackages, ← isProjectClass_iff, liesIn_iff,
    Scope.containsClass, Bool.and_eq_true]
  constructor
  · rintro ⟨info, isProject, rfl, dependency, refers, lies, inScope, different⟩
    exact ⟨different.symm, info, isProject, rfl, dependency, refers, lies, inScope⟩
  · rintro ⟨different, info, isProject, rfl, dependency, refers, lies, inScope⟩
    exact ⟨info, isProject, rfl, dependency, refers, lies, inScope, different.symm⟩

theorem mem_contents_iff :
    (∃ members, (build scope registry).packageContents[package]? = some members ∧
        name ∈ members) ↔
      ∃ info, IsProjectClass scope registry info ∧ info.package = package ∧ info.name = name := by
  rw [← mem_getD_packageContents, mem_build_members]
  constructor
  · rintro ⟨info, found, samePackage⟩
    obtain rfl := name_of_build_class found
    exact ⟨info, isProjectClass_iff_build.mpr found, samePackage, rfl⟩
  · rintro ⟨info, isProject, samePackage, rfl⟩
    exact ⟨info, isProjectClass_iff_build.mp isProject, samePackage⟩

theorem IsProjectClass.unique {other : ClassInfo} (isProject : IsProjectClass scope registry info)
    (otherIsProject : IsProjectClass scope registry other) (sameName : other.name = info.name) :
    other = info := by
  have found := otherIsProject.registered
  rw [sameName, isProject.registered] at found
  exact (Option.some.inj found).symm

theorem build_partitionsClasses (scope : Scope) (registry : Registry) :
    PartitionsClasses scope registry (build scope registry).packageContents := by
  have mem_iff : ∀ (package : PackageName) (members : NameSet),
      (build scope registry).packageContents[package]? = some members → ∀ name, name ∈ members ↔
        ∃ info, IsProjectClass scope registry info ∧ info.package = package ∧
          info.name = name := by
    intro package members found name
    rw [← mem_contents_iff, found]
    simp
  constructor
  case inhabited =>
      intro package members found
      have listed : package ∈ (build scope registry).packages := by
        rw [packages, Std.ExtTreeMap.mem_keys, mem_iff_exists_getElem?]
        exact ⟨members, found⟩
      rcases mem_build_packages.mp listed with ⟨info, infoMem, samePackage⟩
      exact ⟨info.name, (mem_iff package members found info.name).mpr
        ⟨info, isProjectClass_iff.mpr infoMem, samePackage, rfl⟩⟩
  case mem_iff => exact mem_iff
  case placed =>
      intro info isProject
      refine ⟨info.package, mem_contents_iff.mpr ⟨info, isProject, rfl, rfl⟩, ?_⟩
      intro package inPackage
      rcases mem_contents_iff.mp inPackage with ⟨other, otherIsProject, rfl, sameName⟩
      rw [isProject.unique otherIsProject sameName]

theorem not_registered_of_not_node {dependency : ClassName}
    (lies : LiesIn registry dependency target) (nameInScope : scope.contains dependency = true)
    (packageInScope : scope.contains target = true)
    (notNode : (build scope registry).packageGraph.contains target = false) :
    registry.get? dependency = none ∧ Name.package dependency = target := by
  cases lies with
  | @registered info found =>
      -- A registered class in scope would put its package among the nodes.
      obtain rfl := Registry.name_of_get? found
      have isNode : (build scope registry).packageGraph.contains info.package = true :=
        contains_packageGraph_iff.mpr ⟨info, ⟨found, nameInScope, packageInScope⟩, rfl⟩
      simp [isNode] at notNode
  | spelled unknown => exact ⟨unknown, rfl⟩

/-- The nodes of the package graph are the packages of the project classes, which are partitioned
under the same packages. Its edges are the references of project classes to other packages in scope,
and an edge that leads to no node comes from a reference to a class that is not registered. -/
theorem package_graph_exact (scope : Scope) (registry : Registry) :
    (∀ package, (build scope registry).packageGraph.contains package = true ↔
      ∃ info, IsProjectClass scope registry info ∧ info.package = package) ∧
    (∀ package, (build scope registry).packageGraph.contains package = true ↔
      package ∈ (build scope registry).packageContents) ∧
    (∀ source target, (build scope registry).packageGraph.hasEdge source target = true ↔
      source ≠ target ∧ ∃ info, IsProjectClass scope registry info ∧ info.package = source ∧
        ∃ dependency ∈ info.dependencies, LiesIn registry dependency target ∧
          scope.contains dependency = true ∧ scope.contains target = true) ∧
    PartitionsClasses scope registry (build scope registry).packageContents ∧
    ∀ source target, (build scope registry).packageGraph.hasEdge source target = true →
      (build scope registry).packageGraph.contains target = false →
        ∃ info, IsProjectClass scope registry info ∧ info.package = source ∧
          ∃ dependency ∈ info.dependencies,
            registry.get? dependency = none ∧ Name.package dependency = target := by
  refine ⟨fun _ => contains_packageGraph_iff, ?_, fun _ _ => edge_packageGraph_iff,
    build_partitionsClasses scope registry, ?_⟩
  · intro package
    rw [contains_build_packageGraph, ← mem_build_packages, packages, Std.ExtTreeMap.mem_keys]
  · intro source target edge notNode
    rcases edge_packageGraph_iff.mp edge with
      ⟨_, info, isProject, samePackage, dependency, refers, lies, nameInScope, packageInScope⟩
    exact ⟨info, isProject, samePackage, dependency, refers,
      not_registered_of_not_node lies nameInScope packageInScope notNode⟩

/-- Classes in other packages than their names spell: one moved within the scope, one with a
platform name and one in a platform package. A fourth class is referred to and not registered. -/
def movedRegistry : Registry :=
  .ofList
    [.ofName "app.Main" (.ofList ["app.Menu", "ext.Driver", "java.Shim", "lib.Util"]),
     ⟨"app.Menu", "java.desktop", .ofList ["app.Main"]⟩,
     ⟨"java.Shim", "shim", .ofList ["app.Main"]⟩,
     ⟨"lib.Util", "core", .ofList ["lib.Other"]⟩]

theorem unregistered_reference_from_app :
    (build .platform movedRegistry).packageGraph.nodes = ["app", "core"] ∧
    (build .platform movedRegistry).packageGraph.edges =
      [("app", "core"), ("app", "ext"), ("core", "lib")] ∧
    ∃ info, IsProjectClass .platform movedRegistry info ∧ info.package = "app" ∧
      ∃ dependency ∈ info.dependencies,
        movedRegistry.get? dependency = none ∧ Name.package dependency = "ext" := by
  refine ⟨by decide +kernel, by decide +kernel, ?_⟩
  apply (package_graph_exact .platform movedRegistry).2.2.2.2
  · decide +kernel
  · decide +kernel

end Coupling.ProjectIndex
