import Coupling.Index
import Coupling.Proofs.Index.Build
import Coupling.Proofs.Name

/-!
# Class selections and their graphs

What selectors choose among the project classes, which of the chosen classes
share a simple name, and the graph over the simple names. That graph is the
image of the references among the chosen classes, less those that stay at one
simple name.
-/

namespace Coupling.ProjectIndex

variable {scope : Scope} {registry : Registry} {index : ProjectIndex} {name : ClassName}
  {info : ClassInfo} {selected : NameSet} {selector : String} {selectors : List String}

theorem mem_classesOf :
    name ∈ index.classesOf selector ↔
      (name = selector ∧ name ∈ index.classes) ∨
        ∃ package, Name.isWithin package selector = true ∧
          name ∈ index.packageContents.getD package ∅ := by
  simp only [classesOf, List.mem_append, List.mem_ite_nil_right, List.mem_singleton,
    List.mem_flatMap, Prod.exists, Std.ExtTreeMap.mem_toList_iff_getElem?_eq_some,
    Std.ExtTreeMap.contains_iff_mem, Std.ExtTreeSet.mem_toList, mem_getD_packageContents]
  apply or_congr
  · constructor
    · rintro ⟨known, rfl⟩
      exact ⟨rfl, known⟩
    · rintro ⟨rfl, known⟩
      exact ⟨known, rfl⟩
  · constructor
    · rintro ⟨package, members, listed, within, chosen⟩
      exact ⟨package, within, members, listed, chosen⟩
    · rintro ⟨package, within, members, listed, chosen⟩
      exact ⟨package, members, listed, within, chosen⟩

/-- The selected classes are the project classes that a selector names or whose package it covers. -/
theorem mem_selectClasses :
    name ∈ (build scope registry).selectClasses selectors ↔
      ∃ info, (build scope registry).classes[name]? = some info ∧
        (selectors = [] ∨ ∃ selector ∈ selectors,
          name = selector ∨ Name.isWithin info.package selector = true) := by
  have known : name ∈ (build scope registry).classes ↔
      ∃ info, (build scope registry).classes[name]? = some info := mem_iff_exists_getElem?
  cases selectors with
  | nil => simp [selectClasses, NameSet.ofList, known]
  | cons first rest =>
      simp only [selectClasses, NameSet.ofList, List.isEmpty_cons, Bool.false_eq_true, if_false,
        Std.ExtTreeSet.mem_ofList, List.contains_iff_mem, List.mem_flatMap, mem_classesOf,
        mem_build_members, known, reduceCtorEq, false_or]
      constructor
      · rintro ⟨selector, given, ⟨same, info, found⟩ | ⟨package, within, info, found, rfl⟩⟩
        · exact ⟨info, found, selector, given, Or.inl same⟩
        · exact ⟨info, found, selector, given, Or.inr within⟩
      · rintro ⟨info, found, selector, given, same | within⟩
        · exact ⟨selector, given, Or.inl ⟨same, info, found⟩⟩
        · exact ⟨selector, given, Or.inr ⟨info.package, within, info, found, rfl⟩⟩

theorem exists_class_of_selected (chosen : name ∈ (build scope registry).selectClasses selectors) :
    ∃ info, (build scope registry).classes[name]? = some info :=
  (mem_selectClasses.mp chosen).imp fun _ found => found.1

theorem getD_foldl_addSimpleName (names : List ClassName)
    (table : Std.ExtTreeMap SimpleName (List ClassName)) (simpleName : SimpleName) :
    (names.foldl addSimpleName table).getD simpleName [] =
      table.getD simpleName [] ++ names.filter fun name => Name.simple name = simpleName := by
  induction names generalizing table with
  | nil => simp
  | cons name rest ih =>
      rw [List.foldl_cons, ih, addSimpleName, Std.ExtTreeMap.getD_insert]
      by_cases same : Name.simple name = simpleName
      · subst same
        simp
      · simp [same]

/-- A simple name is a collision iff several selected project classes have it, and then it stands
with all of them. -/
theorem getElem?_collisions {simpleName : SimpleName} {names : List ClassName} :
    (index.collisions selected)[simpleName]? = some names ↔
      names = (selected.toList.filter index.classes.contains).filter
        (fun name => Name.simple name = simpleName) ∧ 1 < names.length := by
  have grouped := getD_foldl_addSimpleName (selected.toList.filter index.classes.contains) ∅
    simpleName
  rw [Std.ExtTreeMap.getD_empty, List.nil_append, Std.ExtTreeMap.getD_eq_getD_getElem?] at grouped
  rw [collisions, Std.ExtTreeMap.getElem?_filter', ← grouped, Option.filter_eq_some_iff,
    decide_eq_true_eq, gt_iff_lt]
  apply and_congr_left
  intro several
  cases group : ((selected.toList.filter index.classes.contains).foldl addSimpleName
    ∅)[simpleName]? with
  | none =>
      simp only [reduceCtorEq, Option.getD_none, false_iff]
      rintro rfl
      simp at several
  | some found => simp [eq_comm]

/-- Without collisions the selected project classes have different simple names. -/
theorem simple_injOn_of_no_collisions (noCollisions : index.collisions selected = ∅) :
    Set.InjOn Name.simple {name | name ∈ selected ∧ name ∈ index.classes} := by
  intro first firstMem second secondMem sameSimple
  by_contra different
  have absent : (index.collisions selected)[Name.simple first]? = none := by
    rw [noCollisions]
    simp
  have bothListed : [first, second] ⊆ (selected.toList.filter index.classes.contains).filter
      (fun name => Name.simple name = Name.simple first) := by
    simpa [sameSimple] using ⟨firstMem, secondMem⟩
  have nodup : [first, second].Nodup := by simpa using different
  have several := nodup.length_le_of_subset bothListed
  rw [getElem?_collisions.mpr ⟨rfl, several⟩] at absent
  simp at absent

/-- A selected class refers to a selected class that does not directly enclose it, as far as their
simple names tell. -/
def RefersTo (index : ProjectIndex) (selected : NameSet) (source target : ClassName) : Prop :=
  source ∈ selected ∧ target ∈ selected ∧
    (∃ info ∈ index.classes[source]?, target ∈ info.dependencies) ∧
    Name.enclosing? (Name.simple source) ≠ some (Name.simple target)

instance (index : ProjectIndex) (selected : NameSet) (source target : ClassName) :
    Decidable (index.RefersTo selected source target) :=
  inferInstanceAs (Decidable (_ ∧ _ ∧ _ ∧ _))

theorem mem_targetNames {target : SimpleName} :
    target ∈ targetNames selected info ↔
      ∃ dependency ∈ info.dependencies, dependency ∈ selected ∧ Name.simple dependency = target ∧
        Name.simple info.name ≠ target ∧
        Name.enclosing? (Name.simple info.name) ≠ some target := by
  simp only [targetNames, List.mem_filterMap, Std.ExtTreeSet.mem_toList,
    Option.ite_none_right_eq_some, Option.some.injEq, Bool.and_eq_true, bne_iff_ne,
    Std.ExtTreeSet.contains_iff_mem]
  constructor
  · rintro ⟨dependency, refers, ⟨⟨chosen, different⟩, notEnclosing⟩, rfl⟩
    exact ⟨dependency, refers, chosen, rfl, different, notEnclosing⟩
  · rintro ⟨dependency, refers, chosen, rfl, different, notEnclosing⟩
    exact ⟨dependency, refers, ⟨⟨chosen, different⟩, notEnclosing⟩, rfl⟩

theorem mem_selectedClasses :
    info ∈ index.selectedClasses selected ↔
      ∃ name ∈ selected, index.classes[name]? = some info := by
  simp [selectedClasses]

theorem classGraph_eq_foldl_addStar (index : ProjectIndex) (selected : NameSet) :
    index.classGraph selected =
      (index.selectedClasses selected).foldl (fun graph info =>
        graph.addStar (Name.simple info.name) (targetNames selected info)) ∅ :=
  rfl

/-- The nodes of the class graph are the simple names of the project classes among the selected
names. -/
theorem contains_classGraph {node : SimpleName} :
    ((build scope registry).classGraph selected).contains node = true ↔
      ∃ name ∈ selected, name ∈ (build scope registry).classes ∧ Name.simple name = node := by
  rw [classGraph_eq_foldl_addStar, Graph.contains_foldl_addStar,
    or_iff_left Graph.not_contains_empty]
  constructor
  · rintro ⟨info, infoMem, rfl⟩
    rcases mem_selectedClasses.mp infoMem with ⟨name, chosen, found⟩
    obtain rfl := name_of_build_class found
    exact ⟨info.name, chosen, mem_iff_exists_getElem?.mpr ⟨info, found⟩, rfl⟩
  · rintro ⟨name, chosen, known, rfl⟩
    rcases mem_iff_exists_getElem?.mp known with ⟨info, found⟩
    refine ⟨info, mem_selectedClasses.mpr ⟨name, chosen, found⟩, ?_⟩
    rw [name_of_build_class found]

/-- The edges of the class graph are the references between different simple names. -/
theorem edge_classGraph {source target : SimpleName} :
    ((build scope registry).classGraph selected).Edge source target ↔
      source ≠ target ∧ ∃ first second, (build scope registry).RefersTo selected first second ∧
        Name.simple first = source ∧ Name.simple second = target := by
  rw [classGraph_eq_foldl_addStar, Graph.edge_foldl_addStar, or_iff_left Graph.not_edge_empty]
  constructor
  · rintro ⟨info, infoMem, rfl, targetMem⟩
    rcases mem_selectedClasses.mp infoMem with ⟨first, firstChosen, found⟩
    rcases mem_targetNames.mp targetMem with
      ⟨second, dependency, secondChosen, rfl, different, notEnclosing⟩
    obtain rfl := name_of_build_class found
    exact ⟨different, info.name, second,
      ⟨firstChosen, secondChosen, ⟨info, found, dependency⟩, notEnclosing⟩, rfl, rfl⟩
  · rintro ⟨different, first, second,
      ⟨firstChosen, secondChosen, ⟨info, found, dependency⟩, notEnclosing⟩, rfl, rfl⟩
    obtain rfl := name_of_build_class found
    refine ⟨info, mem_selectedClasses.mpr ⟨info.name, firstChosen, found⟩, rfl, ?_⟩
    exact mem_targetNames.mpr
      ⟨second, dependency, secondChosen, rfl, different, notEnclosing⟩

theorem edge_classGraph_iff {source target : SimpleName} :
    ((build scope registry).classGraph selected).Edge source target ↔
      (∃ name ∈ selected, Name.simple name = source ∧
        ∃ info, (build scope registry).classes[name]? = some info ∧
          ∃ dependency ∈ info.dependencies, dependency ∈ selected ∧
            Name.simple dependency = target) ∧
      source ≠ target ∧ ¬Name.Encloses target source := by
  rw [edge_classGraph, ← Name.enclosing?_eq_some_iff]
  constructor
  · rintro ⟨different, first, second,
      ⟨firstChosen, secondChosen, ⟨info, found, dependency⟩, notEnclosing⟩, rfl, rfl⟩
    exact ⟨⟨first, firstChosen, rfl, info, found, second, dependency, secondChosen, rfl⟩,
      different, notEnclosing⟩
  · rintro ⟨⟨first, firstChosen, rfl, info, found, second, dependency, secondChosen, rfl⟩,
      different, notEnclosing⟩
    exact ⟨different, first, second,
      ⟨firstChosen, secondChosen, ⟨info, found, dependency⟩, notEnclosing⟩, rfl, rfl⟩

theorem contains_target_of_edge {source target : SimpleName}
    (edge : ((build scope registry).classGraph
      ((build scope registry).selectClasses selectors)).Edge source target) :
    ((build scope registry).classGraph
      ((build scope registry).selectClasses selectors)).contains target = true := by
  rcases edge_classGraph.mp edge with ⟨_, first, second, reference, rfl, rfl⟩
  -- Selectors choose project classes only, so the target stands for one.
  rcases exists_class_of_selected reference.2.1 with ⟨info, found⟩
  rw [contains_classGraph]
  exact ⟨second, reference.2.1, mem_iff_exists_getElem?.mpr ⟨info, found⟩, rfl⟩

/-- The nodes of the class graph of any names are the simple names of the project classes among
them, and its edges are the references from these classes to the names, less those that lead to the
same simple name or to the one that encloses it. So no node has an edge to itself or to the node that
encloses it, whichever classes share their names. If the names are those of a selection, then every
edge leads to a node. -/
theorem class_graph_exact (scope : Scope) (registry : Registry) :
    (∀ selected : NameSet,
      (∀ node, ((build scope registry).classGraph selected).contains node = true ↔
        ∃ name ∈ selected, name ∈ (build scope registry).classes ∧ Name.simple name = node) ∧
      (∀ source target, ((build scope registry).classGraph selected).hasEdge source target = true ↔
        (∃ name ∈ selected, Name.simple name = source ∧
          ∃ info, (build scope registry).classes[name]? = some info ∧
            ∃ dependency ∈ info.dependencies, dependency ∈ selected ∧
              Name.simple dependency = target) ∧
        source ≠ target ∧ ¬Name.Encloses target source) ∧
      (∀ node, ((build scope registry).classGraph selected).hasEdge node node = false) ∧
      ∀ outer nested, Name.Encloses outer nested →
        ((build scope registry).classGraph selected).hasEdge nested outer = false) ∧
    ∀ (selectors : List String) (source target : SimpleName),
      ((build scope registry).classGraph
        ((build scope registry).selectClasses selectors)).hasEdge source target = true →
      ((build scope registry).classGraph
        ((build scope registry).selectClasses selectors)).contains target = true := by
  refine ⟨fun selected => ⟨fun _ => contains_classGraph, fun _ _ => edge_classGraph_iff, ?_, ?_⟩,
    fun _ _ _ => contains_target_of_edge⟩
  · intro node
    rw [← Bool.not_eq_true]
    intro loop
    exact (edge_classGraph_iff.mp loop).2.1 rfl
  · intro outer nested encloses
    rw [← Bool.not_eq_true]
    intro edge
    exact (edge_classGraph_iff.mp edge).2.2 encloses

/-- Two nested classes of the same simple name, which both refer to the class that encloses one of
them. -/
def twinRegistry : Registry :=
  .ofList
    [.ofName "a.Order" (.ofList ["ext.Ledger"]),
     .ofName "a.Order$Line" (.ofList ["a.Order"]),
     .ofName "b.Order$Line" (.ofList ["a.Order", "b.Stock"]),
     .ofName "b.Stock" (.ofList [])]

/-- The name of an unregistered class is the target of an edge if it is asked for, but selectors never
choose it. -/
theorem twin_class_graphs :
    ((build .platform twinRegistry).classGraph (.ofList ["a.Order", "ext.Ledger"])).edges =
      [("Order", "Ledger")] ∧
    ((build .platform twinRegistry).classGraph
        ((build .platform twinRegistry).selectClasses ["a", "b"])).edges =
      [("Order$Line", "Stock")] ∧
    ((build .platform twinRegistry).classGraph
        ((build .platform twinRegistry).selectClasses ["a", "b"])).contains "Stock" = true ∧
    ((build .platform twinRegistry).classGraph
        (.ofList ["a.Order", "b.Order$Line"])).hasEdge "Order$Line" "Order" = false := by
  refine ⟨by decide +kernel, by decide +kernel, ?_, ?_⟩
  · apply (class_graph_exact .platform twinRegistry).2 ["a", "b"] "Order$Line" "Stock"
    decide +kernel
  · apply ((class_graph_exact .platform twinRegistry).1 _).2.2.2
    exact ⟨"Line", by decide, by decide⟩

end Coupling.ProjectIndex
