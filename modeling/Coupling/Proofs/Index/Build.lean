import Coupling.Index
import Coupling.Proofs.Graph.Construction
import Coupling.Proofs.Registry.Basic

/-!
# What an index holds

The classes, packages and package references of an index in terms of the
registry and the scope that it was built from. The three tables of an index are
built side by side, and none of them depends on another.
-/

namespace Coupling.ProjectIndex

variable {scope : Scope} {registry : Registry} {index : ProjectIndex} {name : ClassName}
  {info : ClassInfo} {package source target : PackageName}

theorem mem_iff_exists_getElem? {β : Type} {table : Std.ExtTreeMap String β} {key : String} :
    key ∈ table ↔ ∃ value, table[key]? = some value := by
  rw [Std.ExtTreeMap.mem_iff_isSome_getElem?, Option.isSome_iff_exists]

theorem mem_projectClasses :
    info ∈ projectClasses scope registry ↔
      registry.get? info.name = some info ∧ scope.containsClass info.name info.package = true := by
  rw [projectClasses, List.mem_filter, Registry.mem_classes]

section Folds

variable (scope registry)

theorem foldl_addClass_packageGraph (infos : List ClassInfo) :
    (infos.foldl (addClass scope registry) index).packageGraph =
      infos.foldl (fun graph info =>
        graph.addStar info.package (targetPackages scope registry info)) index.packageGraph := by
  induction infos generalizing index with
  | nil => rfl
  | cons info rest ih => exact ih

/-- Every listed class comes from the list or was there before. -/
theorem mem_of_foldl_addClass_classes (infos : List ClassInfo)
    (found : (infos.foldl (addClass scope registry) index).classes[name]? = some info) :
    (info ∈ infos ∧ info.name = name) ∨ index.classes[name]? = some info := by
  induction infos generalizing index with
  | nil => exact Or.inr found
  | cons first rest ih =>
      rcases ih found with ⟨restMem, sameName⟩ | earlier
      · exact Or.inl ⟨List.mem_cons_of_mem _ restMem, sameName⟩
      · simp only [addClass, Std.ExtTreeMap.getElem?_insert, Std.compare_eq_iff_eq] at earlier
        split at earlier
        · rename_i sameName
          cases earlier
          exact Or.inl ⟨List.mem_cons_self, sameName⟩
        · exact Or.inr earlier

/-- A table of the index has the keys that the classes add, and those that it had before. -/
theorem mem_foldl_addClass {β : Type} (table : ProjectIndex → Std.ExtTreeMap String β)
    (keyOf : ClassInfo → String)
    (added : ∀ index info key, key ∈ table (addClass scope registry index info) ↔
      keyOf info = key ∨ key ∈ table index)
    (infos : List ClassInfo) {key : String} :
    key ∈ table (infos.foldl (addClass scope registry) index) ↔
      (∃ info ∈ infos, keyOf info = key) ∨ key ∈ table index := by
  induction infos generalizing index with
  | nil => simp
  | cons first rest ih =>
      rw [List.foldl_cons, ih, added]
      simp only [List.mem_cons, exists_eq_or_imp]
      rw [or_left_comm, or_assoc]

/-- The members of a package are the classes that name it, and those that it had before. -/
theorem mem_foldl_addClass_members (infos : List ClassInfo) :
    name ∈ (infos.foldl (addClass scope registry) index).packageContents.getD package ∅ ↔
      (∃ info ∈ infos, info.package = package ∧ info.name = name) ∨
        name ∈ index.packageContents.getD package ∅ := by
  induction infos generalizing index with
  | nil => simp
  | cons first rest ih =>
      have added : name ∈ (addClass scope registry index first).packageContents.getD package ∅ ↔
          (first.package = package ∧ first.name = name) ∨
            name ∈ index.packageContents.getD package ∅ := by
        simp only [addClass, Std.ExtTreeMap.getD_insert, Std.compare_eq_iff_eq]
        by_cases samePackage : first.package = package
        · subst samePackage
          simp
        · simp [samePackage]
      rw [List.foldl_cons, ih, added]
      simp only [List.mem_cons, exists_eq_or_imp]
      rw [or_left_comm, or_assoc]

end Folds

theorem getElem?_empty_classes : (∅ : ProjectIndex).classes[name]? = none := by
  change (∅ : Std.ExtTreeMap ClassName ClassInfo)[name]? = none
  simp

theorem not_mem_empty_packageContents : package ∉ (∅ : ProjectIndex).packageContents := by
  change package ∉ (∅ : Std.ExtTreeMap PackageName NameSet)
  simp

/-- The project classes are the registered classes in scope. -/
theorem getElem?_build_classes :
    (build scope registry).classes[name]? = some info ↔
      registry.get? name = some info ∧ scope.containsClass name info.package = true := by
  have listed : ∀ {found}, (build scope registry).classes[name]? = some found →
      registry.get? name = some found ∧ scope.containsClass name found.package = true := by
    intro found isFound
    rcases mem_of_foldl_addClass_classes scope registry _ isFound with ⟨foundMem, rfl⟩ | earlier
    · exact mem_projectClasses.mp foundMem
    · rw [getElem?_empty_classes] at earlier
      simp at earlier
  refine ⟨listed, ?_⟩
  rintro ⟨registered, inScope⟩
  have nameEq := Registry.name_of_get? registered
  have infoMem : info ∈ projectClasses scope registry := by
    rw [mem_projectClasses, nameEq]
    exact ⟨registered, inScope⟩
  have present : name ∈ (build scope registry).classes := by
    rw [build, mem_foldl_addClass scope registry ProjectIndex.classes ClassInfo.name
      (by simp [addClass, Std.ExtTreeMap.mem_insert])]
    exact Or.inl ⟨info, infoMem, nameEq⟩
  rcases mem_iff_exists_getElem?.mp present with ⟨found, isFound⟩
  have same : some found = some info := (listed isFound).1.symm.trans registered
  rw [isFound, same]

theorem name_of_build_class (found : (build scope registry).classes[name]? = some info) :
    info.name = name :=
  Registry.name_of_get? (getElem?_build_classes.mp found).1

theorem mem_getD_packageContents :
    name ∈ index.packageContents.getD package ∅ ↔
      ∃ members, index.packageContents[package]? = some members ∧ name ∈ members := by
  rw [Std.ExtTreeMap.getD_eq_getD_getElem?]
  cases index.packageContents[package]? with
  | none => simp
  | some members => simp

/-- A package holds the project classes that name it. -/
theorem mem_build_members :
    name ∈ (build scope registry).packageContents.getD package ∅ ↔
      ∃ info, (build scope registry).classes[name]? = some info ∧ info.package = package := by
  have noneBefore : name ∉ (∅ : ProjectIndex).packageContents.getD package ∅ := by
    rw [Std.ExtTreeMap.getD_eq_fallback not_mem_empty_packageContents]
    simp
  simp only [getElem?_build_classes]
  rw [build, mem_foldl_addClass_members, or_iff_left noneBefore]
  constructor
  · rintro ⟨info, infoMem, samePackage, rfl⟩
    exact ⟨info, mem_projectClasses.mp infoMem, samePackage⟩
  · rintro ⟨info, found, samePackage⟩
    have sameName := Registry.name_of_get? found.1
    exact ⟨info, mem_projectClasses.mpr (sameName ▸ found), samePackage, sameName⟩

/-- The packages are those of the project classes. -/
theorem mem_build_packages :
    package ∈ (build scope registry).packages ↔
      ∃ info ∈ projectClasses scope registry, info.package = package := by
  rw [packages, Std.ExtTreeMap.mem_keys, build,
    mem_foldl_addClass scope registry ProjectIndex.packageContents ClassInfo.package
      (by simp [addClass, Std.ExtTreeMap.mem_insert])]
  simp only [not_mem_empty_packageContents, or_false]

theorem mem_targetPackages :
    target ∈ targetPackages scope registry info ↔
      ∃ dependency ∈ info.dependencies, packageOf registry dependency = target ∧
        scope.containsClass dependency target = true ∧ target ≠ info.package := by
  simp only [targetPackages, List.mem_filterMap, Std.ExtTreeSet.mem_toList]
  apply exists_congr
  intro dependency
  apply and_congr_right
  intro _
  constructor
  · intro chosen
    split at chosen
    · rename_i wanted
      cases chosen
      simpa using wanted
    · simp at chosen
  · rintro ⟨rfl, inScope, different⟩
    simp [inScope, different]

/-- The nodes of the package graph are the packages of the project classes. -/
theorem contains_build_packageGraph :
    (build scope registry).packageGraph.contains package = true ↔
      ∃ info ∈ projectClasses scope registry, info.package = package := by
  rw [build, foldl_addClass_packageGraph, Graph.contains_foldl_addStar]
  simp only [eq_comm (a := package)]
  exact or_iff_left Graph.not_contains_empty

/-- There is an edge from a package to another one for each reference of a project class to a class
in scope. -/
theorem edge_build_packageGraph :
    (build scope registry).packageGraph.Edge source target ↔
      ∃ info ∈ projectClasses scope registry,
        source = info.package ∧ target ∈ targetPackages scope registry info := by
  rw [build, foldl_addClass_packageGraph, Graph.edge_foldl_addStar]
  exact or_iff_left Graph.not_edge_empty

end Coupling.ProjectIndex
