import Coupling.Proofs.Index.ClassGraph
import Coupling.Proofs.Index.PackageGraph
import Coupling.Proofs.Index.PackageSelection
import Mathlib.Algebra.BigOperators.Group.Finset.Basic
import Mathlib.Data.Set.Card

/-!
# Counting selected classes

The package view adds up the sizes of the selected packages, and the class view
takes the size of one set that is filled selector by selector. Both count project
classes: the packages hold disjoint sets of them, and a set holds a class once,
however often it is selected.

The class view also shows fewer nodes than it counts classes where classes share
a simple name. Each group of classes with one simple name is a node, and a group
of several is a collision, so the collisions account for the difference.
-/

namespace Coupling.ProjectIndex

variable {scope : Scope} {registry : Registry} {selectors : List String}

/-- A selector is the package or an outer one of it, or there are no selectors at all. -/
def Covers (selectors : List String) (package : PackageName) : Prop :=
  selectors = [] ∨ ∃ selector ∈ selectors, Name.isWithin package selector = true

theorem nodup_names (names : NameSet) : names.toList.Nodup := by
  apply names.distinct_toList.imp
  intro first second different same
  exact different (Std.compare_eq_iff_eq.mpr same)

theorem finite_isProjectClass (scope : Scope) (registry : Registry) :
    {info | IsProjectClass scope registry info}.Finite := by
  apply (List.finite_toSet (projectClasses scope registry)).subset
  intro info isProject
  exact isProjectClass_iff.mp isProject

/-- Project classes with one of two properties that exclude each other are counted apart. -/
theorem ncard_or {first second : ClassInfo → Prop} (apart : ∀ info, first info → ¬second info) :
    {info | IsProjectClass scope registry info ∧ (first info ∨ second info)}.ncard =
      {info | IsProjectClass scope registry info ∧ first info}.ncard +
        {info | IsProjectClass scope registry info ∧ second info}.ncard := by
  have finite (property : ClassInfo → Prop) :
      {info | IsProjectClass scope registry info ∧ property info}.Finite :=
    (finite_isProjectClass scope registry).subset fun _ member => member.1
  have disjoint : Disjoint {info | IsProjectClass scope registry info ∧ first info}
      {info | IsProjectClass scope registry info ∧ second info} := by
    rw [Set.disjoint_left]
    rintro info ⟨_, hasFirst⟩ ⟨_, hasSecond⟩
    exact apart info hasFirst hasSecond
  rw [← Set.ncard_union_eq disjoint (finite first) (finite second)]
  congr 1
  ext info
  exact and_or_left

/-- Project classes are as many as their names. -/
theorem length_eq_ncard {names : List ClassName} {infos : Set ClassInfo} (distinct : names.Nodup)
    (project : ∀ info ∈ infos, IsProjectClass scope registry info)
    (listed : ∀ name, name ∈ names ↔ ∃ info ∈ infos, info.name = name) :
    names.length = infos.ncard := by
  have different : Set.InjOn ClassInfo.name infos := by
    intro first firstMem second secondMem sameName
    exact (project second secondMem).unique (project first firstMem) sameName
  have image : (names.toFinset : Set ClassName) = ClassInfo.name '' infos := by
    ext name
    simp [listed]
  rw [← different.ncard_image, ← image, Set.ncard_coe_finset, List.toFinset_card_of_nodup distinct]

theorem classCount_eq_ncard (scope : Scope) (registry : Registry) :
    (build scope registry).classCount = {info | IsProjectClass scope registry info}.ncard := by
  rw [classCount, ← Std.ExtTreeMap.length_keys]
  apply length_eq_ncard Std.ExtTreeMap.nodup_keys fun info isProject => isProject
  intro name
  rw [Std.ExtTreeMap.mem_keys, mem_iff_exists_getElem?]
  constructor
  · rintro ⟨info, found⟩
    obtain rfl := name_of_build_class found
    exact ⟨info, isProjectClass_iff_build.mpr found, rfl⟩
  · rintro ⟨info, isProject, rfl⟩
    exact ⟨info, isProjectClass_iff_build.mp isProject⟩

theorem memberCount_eq_size (index : ProjectIndex) (package : PackageName) :
    index.memberCount package = (index.packageContents.getD package ∅).size := by
  rw [memberCount, classesIn?, Std.ExtTreeMap.getD_eq_getD_getElem?]
  cases index.packageContents[package]? with
  | none => simp
  | some members => simp

theorem memberCount_eq_ncard (package : PackageName) :
    (build scope registry).memberCount package =
      {info | IsProjectClass scope registry info ∧ info.package = package}.ncard := by
  rw [memberCount_eq_size, ← Std.ExtTreeSet.length_toList]
  apply length_eq_ncard (nodup_names _) fun info member => member.1
  intro name
  rw [Std.ExtTreeSet.mem_toList, mem_getD_packageContents, mem_contents_iff]
  simp [and_assoc]

/-- A class lies in one package, so the classes of different packages add up. -/
theorem sum_memberCount {packages : List PackageName} (distinct : packages.Nodup) :
    packages.foldr (fun package total => (build scope registry).memberCount package + total) 0 =
      {info | IsProjectClass scope registry info ∧ info.package ∈ packages}.ncard := by
  induction packages with
  | nil => simp
  | cons package rest ih =>
      rcases List.nodup_cons.mp distinct with ⟨absent, restDistinct⟩
      rw [List.foldr_cons, ih restDistinct, memberCount_eq_ncard]
      simp only [List.mem_cons]
      rw [ncard_or]
      rintro info rfl
      exact absent

theorem classCount_analyzePackages (scope : Scope) (registry : Registry)
    (selectors : List String) :
    ((build scope registry).analyzePackages selectors).classCount =
      {info | IsProjectClass scope registry info ∧ Covers selectors info.package}.ncard := by
  have chosen : {info | IsProjectClass scope registry info ∧
        info.package ∈ ((build scope registry).selectPackages selectors).toList} =
      {info | IsProjectClass scope registry info ∧ Covers selectors info.package} := by
    ext info
    apply and_congr_right
    intro isProject
    rw [Std.ExtTreeSet.mem_toList, mem_selectPackages, mem_build_packages]
    exact and_iff_right ⟨info, isProjectClass_iff.mp isProject, rfl⟩
  rw [analyzePackages, sum_memberCount (nodup_names _), chosen]

theorem mem_selectClasses_iff {name : ClassName} :
    name ∈ (build scope registry).selectClasses selectors ↔
      ∃ info, (IsProjectClass scope registry info ∧
        (Covers selectors info.package ∨
          info.name ∈ selectors ∧ ¬Covers selectors info.package)) ∧ info.name = name := by
  rw [mem_selectClasses]
  constructor
  · rintro ⟨info, found, chosen⟩
    obtain rfl := name_of_build_class found
    refine ⟨info, ⟨isProjectClass_iff_build.mpr found, ?_⟩, rfl⟩
    rcases chosen with none | ⟨selector, given, rfl | within⟩
    · exact Or.inl (Or.inl none)
    · by_cases covered : Covers selectors info.package
      · exact Or.inl covered
      · exact Or.inr ⟨given, covered⟩
    · exact Or.inl (Or.inr ⟨selector, given, within⟩)
  · rintro ⟨info, ⟨isProject, chosen⟩, rfl⟩
    refine ⟨info, isProjectClass_iff_build.mp isProject, ?_⟩
    rcases chosen with (none | ⟨selector, given, within⟩) | ⟨given, _⟩
    · exact Or.inl none
    · exact Or.inr ⟨selector, given, Or.inr within⟩
    · exact Or.inr ⟨info.name, given, Or.inl rfl⟩

theorem size_selectClasses (scope : Scope) (registry : Registry) (selectors : List String) :
    ((build scope registry).selectClasses selectors).size =
      {info | IsProjectClass scope registry info ∧ Covers selectors info.package}.ncard +
        {info | IsProjectClass scope registry info ∧ info.name ∈ selectors ∧
          ¬Covers selectors info.package}.ncard := by
  rw [← ncard_or fun info covered named => named.2 covered, ← Std.ExtTreeSet.length_toList]
  apply length_eq_ncard (nodup_names _) fun info member => member.1
  intro name
  rw [Std.ExtTreeSet.mem_toList, mem_selectClasses_iff]
  rfl

theorem covers_congr {others : List String} {package : PackageName}
    (same : ∀ selector, selector ∈ others ↔ selector ∈ selectors) :
    Covers others package ↔ Covers selectors package := by
  have bothEmpty : others = [] ↔ selectors = [] := by
    simp only [List.eq_nil_iff_forall_not_mem, same]
  simp only [Covers, bothEmpty, same]

/-- The package view counts the project classes in covered packages, and the class view counts these
and the project classes that are selected by their own name only. Without selectors both count all
project classes. Each class counts once: only which selectors are given matters. -/
theorem selection_counts_agree (scope : Scope) (registry : Registry) (selectors : List String) :
    {info | IsProjectClass scope registry info}.Finite ∧
    ((build scope registry).analyzePackages selectors).classCount =
      {info | IsProjectClass scope registry info ∧ Covers selectors info.package}.ncard ∧
    ((build scope registry).analyzePackages []).classCount = (build scope registry).classCount ∧
    (build scope registry).classCount = {info | IsProjectClass scope registry info}.ncard ∧
    ((build scope registry).analyzeClasses selectors).selectedCount =
      ((build scope registry).analyzePackages selectors).classCount +
        {info | IsProjectClass scope registry info ∧ info.name ∈ selectors ∧
          ¬Covers selectors info.package}.ncard ∧
    ∀ others, (∀ selector, selector ∈ others ↔ selector ∈ selectors) →
      ((build scope registry).analyzePackages others).classCount =
        ((build scope registry).analyzePackages selectors).classCount ∧
      ((build scope registry).analyzeClasses others).selectedCount =
        ((build scope registry).analyzeClasses selectors).selectedCount := by
  refine ⟨finite_isProjectClass scope registry, classCount_analyzePackages scope registry selectors,
    ?_, classCount_eq_ncard scope registry, ?_, ?_⟩
  · rw [classCount_analyzePackages, classCount_eq_ncard]
    simp [Covers]
  · rw [classCount_analyzePackages]
    exact size_selectClasses scope registry selectors
  · intro others same
    simp only [classCount_analyzePackages, analyzeClasses, size_selectClasses, covers_congr same,
      same, and_self]

/-- A class whose package its name does not spell is selected by that name only, and counts once. -/
theorem moved_class_counts_once :
    (∀ selector, selector ∈ ["lib.Util", "app", "lib", "app", "lib.Util"] ↔
      selector ∈ ["app", "lib", "lib.Util"]) ∧
    ((build .platform movedRegistry).analyzePackages ["app", "lib", "lib.Util"]).classCount = 1 ∧
    ((build .platform movedRegistry).analyzeClasses ["app", "lib", "lib.Util"]).selectedCount = 2 ∧
    ((build .platform movedRegistry).analyzePackages
      ["lib.Util", "app", "lib", "app", "lib.Util"]).classCount = 1 ∧
    ((build .platform movedRegistry).analyzeClasses
      ["lib.Util", "app", "lib", "app", "lib.Util"]).selectedCount = 2 := by
  have same : ∀ selector, selector ∈ ["lib.Util", "app", "lib", "app", "lib.Util"] ↔
      selector ∈ ["app", "lib", "lib.Util"] := by
    intro selector
    simp only [List.mem_cons, List.not_mem_nil, or_false]
    tauto
  have inPackages : ((build .platform movedRegistry).analyzePackages
      ["app", "lib", "lib.Util"]).classCount = 1 := by decide +kernel
  have chosen : ((build .platform movedRegistry).analyzeClasses
      ["app", "lib", "lib.Util"]).selectedCount = 2 := by decide +kernel
  rcases selection_counts_agree .platform movedRegistry ["app", "lib", "lib.Util"] with
    ⟨_, _, _, _, _, repeated⟩
  rcases repeated _ same with ⟨samePackages, sameClasses⟩
  exact ⟨same, inPackages, chosen, samePackages.trans inPackages, sameClasses.trans chosen⟩

/-- The project classes among the selected names, in ascending order. -/
def knownNames (index : ProjectIndex) (selected : NameSet) : List ClassName :=
  selected.toList.filter index.classes.contains

/-- The project classes among the selected names that have a simple name. -/
def namesakes (index : ProjectIndex) (selected : NameSet) (simpleName : SimpleName) :
    List ClassName :=
  (index.knownNames selected).filter fun name => Name.simple name = simpleName

variable {index : ProjectIndex} {selected : NameSet} {name : ClassName} {simpleName : SimpleName}

theorem mem_knownNames :
    name ∈ index.knownNames selected ↔ name ∈ selected ∧ name ∈ index.classes := by
  simp [knownNames]

theorem mem_namesakes :
    name ∈ index.namesakes selected simpleName ↔
      (name ∈ selected ∧ name ∈ index.classes) ∧ Name.simple name = simpleName := by
  simp [namesakes, mem_knownNames]

theorem knownNames_ascending (index : ProjectIndex) (selected : NameSet) :
    (index.knownNames selected).Pairwise (· < ·) := by
  apply List.Pairwise.filter
  apply selected.ordered_toList.imp
  intro first second before
  exact compareOfLessAndEq_eq_lt.mp before

theorem count_map_simple (names : List ClassName) (simpleName : SimpleName) :
    (names.map Name.simple).count simpleName =
      (names.filter fun name => Name.simple name = simpleName).length := by
  rw [List.count_eq_countP, List.countP_map, List.countP_eq_length_filter]
  simp only [Function.comp_def, beq_eq_decide]

/-- The simple names of the project classes among the selected names. -/
def simpleNames (index : ProjectIndex) (selected : NameSet) : Finset SimpleName :=
  ((index.knownNames selected).map Name.simple).toFinset

theorem mem_simpleNames :
    simpleName ∈ index.simpleNames selected ↔
      ∃ name, (name ∈ selected ∧ name ∈ index.classes) ∧ Name.simple name = simpleName := by
  simp [simpleNames, mem_knownNames]

theorem mem_simpleNames_iff_length :
    simpleName ∈ index.simpleNames selected ↔
      0 < (index.namesakes selected simpleName).length := by
  simp only [List.length_pos_iff_exists_mem, mem_simpleNames, mem_namesakes]

theorem mem_simpleNames_iff_contains :
    simpleName ∈ (build scope registry).simpleNames selected ↔
      ((build scope registry).classGraph selected).contains simpleName = true := by
  simp only [mem_simpleNames, contains_classGraph, and_assoc]

theorem sum_length_namesakes (index : ProjectIndex) (selected : NameSet) :
    ∑ simpleName ∈ index.simpleNames selected, (index.namesakes selected simpleName).length =
      (index.knownNames selected).length := by
  have total := List.sum_toFinset_count_eq_length ((index.knownNames selected).map Name.simple)
  rw [List.length_map] at total
  rw [← total]
  apply Finset.sum_congr rfl
  intro simpleName _
  exact (count_map_simple _ simpleName).symm

theorem nodeCount_classGraph (scope : Scope) (registry : Registry) (selected : NameSet) :
    ((build scope registry).classGraph selected).nodeCount =
      ((build scope registry).simpleNames selected).card := by
  have nodes : ((build scope registry).classGraph selected).nodes.toFinset =
      (build scope registry).simpleNames selected := by
    ext node
    rw [List.mem_toFinset, Graph.mem_nodes, mem_simpleNames_iff_contains]
  rw [← nodes, Graph.nodes, List.toFinset_card_of_nodup Std.ExtTreeMap.nodup_keys,
    Std.ExtTreeMap.length_keys, Graph.nodeCount]

theorem mem_keys_collisions :
    simpleName ∈ (index.collisions selected).keys ↔
      1 < (index.namesakes selected simpleName).length := by
  rw [Std.ExtTreeMap.mem_keys, mem_iff_exists_getElem?]
  simp only [getElem?_collisions, exists_eq_left, namesakes, knownNames]

/-- A simple name of one class only adds nothing, so the sum may range over all simple names. -/
theorem sum_collisions (index : ProjectIndex) (selected : NameSet) :
    ((index.collisions selected).toList.map fun entry => entry.2.length - 1).sum =
      ∑ simpleName ∈ index.simpleNames selected,
        ((index.namesakes selected simpleName).length - 1) := by
  have entries : (index.collisions selected).toList.map (fun entry => entry.2.length - 1) =
      (index.collisions selected).keys.map fun simpleName =>
        (index.namesakes selected simpleName).length - 1 := by
    rw [← Std.ExtTreeMap.map_fst_toList_eq_keys, List.map_map]
    apply List.map_congr_left
    rintro ⟨simpleName, names⟩ entryMem
    rw [Std.ExtTreeMap.mem_toList_iff_getElem?_eq_some, getElem?_collisions] at entryMem
    simp only [entryMem.1, Function.comp_apply, namesakes, knownNames]
  rw [entries, ← List.sum_toFinset _ Std.ExtTreeMap.nodup_keys]
  apply Finset.sum_subset
  · intro simpleName listed
    have several := mem_keys_collisions.mp (List.mem_toFinset.mp listed)
    exact mem_simpleNames_iff_length.mpr (Nat.zero_lt_of_lt several)
  · intro simpleName _ notListed
    rw [List.mem_toFinset, mem_keys_collisions] at notListed
    omega

/-- Every project class among the names is a node of the class graph or merged into one, as the
collisions tell. -/
theorem nodeCount_add_collisions (scope : Scope) (registry : Registry) (selected : NameSet) :
    ((build scope registry).classGraph selected).nodeCount +
        (((build scope registry).collisions selected).toList.map
          fun entry => entry.2.length - 1).sum =
      ((build scope registry).knownNames selected).length := by
  rw [nodeCount_classGraph, sum_collisions, ← sum_length_namesakes, Finset.card_eq_sum_ones,
    ← Finset.sum_add_distrib]
  apply Finset.sum_congr rfl
  intro simpleName named
  have := mem_simpleNames_iff_length.mp named
  omega

theorem knownNames_selectClasses (scope : Scope) (registry : Registry) (selectors : List String) :
    (build scope registry).knownNames ((build scope registry).selectClasses selectors) =
      ((build scope registry).selectClasses selectors).toList := by
  rw [knownNames, List.filter_eq_self]
  intro name chosen
  rw [Std.ExtTreeMap.contains_iff_mem, mem_iff_exists_getElem?]
  exact exists_class_of_selected (Std.ExtTreeSet.mem_toList.mp chosen)

theorem mem_namesakes_selectClasses :
    name ∈ (build scope registry).namesakes ((build scope registry).selectClasses selectors)
        simpleName ↔
      name ∈ (build scope registry).selectClasses selectors ∧ Name.simple name = simpleName := by
  rw [namesakes, knownNames_selectClasses, List.mem_filter, Std.ExtTreeSet.mem_toList,
    decide_eq_true_eq]

/-- The nodes of the class view and the classes that its collisions merge into a node of another
class make up the selected classes. A collision lists several different classes in ascending order,
which are all selected classes of its simple name, and this name is a node. -/
theorem collisions_account_for_merged_classes (scope : Scope) (registry : Registry)
    (selectors : List String) :
    ((build scope registry).analyzeClasses selectors).graph.nodeCount +
        (((build scope registry).analyzeClasses selectors).collisions.toList.map
          fun entry => entry.2.length - 1).sum =
      ((build scope registry).analyzeClasses selectors).selectedCount ∧
    ∀ (simpleName : SimpleName) (names : List ClassName),
      ((build scope registry).analyzeClasses selectors).collisions[simpleName]? = some names →
        2 ≤ names.length ∧ names.Pairwise (· < ·) ∧ names.Nodup ∧
        (∀ name, name ∈ names ↔
          name ∈ (build scope registry).selectClasses selectors ∧ Name.simple name = simpleName) ∧
        ((build scope registry).analyzeClasses selectors).graph.contains simpleName = true := by
  constructor
  · simp only [analyzeClasses]
    rw [nodeCount_add_collisions, knownNames_selectClasses, Std.ExtTreeSet.length_toList]
  · intro simpleName names found
    rcases getElem?_collisions.mp found with ⟨rfl, several⟩
    refine ⟨several, (knownNames_ascending _ _).filter _, ((nodup_names _).filter _).filter _,
      fun name => mem_namesakes_selectClasses, ?_⟩
    exact mem_simpleNames_iff_contains.mp
      (mem_simpleNames_iff_length.mpr (Nat.zero_lt_of_lt several))

/-- Three classes of one simple name, two of another and one of a third. -/
def namesakeRegistry : Registry :=
  .ofList
    [.ofName "app.Util" (.ofList ["lib.Util"]),
     .ofName "app.core.Util" (.ofList ["app.core.Item"]),
     .ofName "lib.Util" (.ofList []),
     .ofName "app.core.Item" (.ofList ["lib.Item"]),
     .ofName "lib.Item" (.ofList ["app.Main"]),
     .ofName "app.Main" (.ofList [])]

/-- Six classes are shown as three nodes, of which one stands for three classes and one for two. -/
theorem namesakes_of_util :
    ((build .platform namesakeRegistry).analyzeClasses []).selectedCount = 6 ∧
    ((build .platform namesakeRegistry).analyzeClasses []).graph.nodes = ["Item", "Main", "Util"] ∧
    ((build .platform namesakeRegistry).analyzeClasses []).collisions.toList =
      [("Item", ["app.core.Item", "lib.Item"]),
       ("Util", ["app.Util", "app.core.Util", "lib.Util"])] ∧
    ["app.Util", "app.core.Util", "lib.Util"].Pairwise (· < ·) ∧
    ∀ name, name ∈ ["app.Util", "app.core.Util", "lib.Util"] ↔
      name ∈ (build .platform namesakeRegistry).selectClasses [] ∧ Name.simple name = "Util" := by
  have found : ((build .platform namesakeRegistry).analyzeClasses []).collisions["Util"]? =
      some ["app.Util", "app.core.Util", "lib.Util"] := by decide +kernel
  rcases (collisions_account_for_merged_classes .platform namesakeRegistry []).2 _ _ found with
    ⟨_, ascending, _, listed, _⟩
  exact ⟨by decide +kernel, by decide +kernel, by decide +kernel, ascending, listed⟩

end Coupling.ProjectIndex
