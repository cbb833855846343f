import Coupling.Analysis
import Coupling.Proofs.Graph.Cycles
import Coupling.Proofs.Index.ClassGraph

/-!
# Cycles of classes and cycles of their simple names

The class view reports cycles of simple names, while references lead between
qualified names. A walk along references is a walk along simple names that
stands still where two classes share one, so no cycle over two simple names is
lost. A walk along simple names need not come from one along references: it may
arrive at one class and leave from another of the same simple name. Without
collisions there is no other class to leave from, and the two views agree.
-/

namespace Coupling.ProjectIndex

variable {scope : Scope} {registry : Registry} {selected : NameSet} {selectors : List String}
  {first second : ClassName}

/-- A selected class refers to another selected class that does not directly enclose it. -/
def RefersToOther (index : ProjectIndex) (selected : NameSet) (source target : ClassName) : Prop :=
  index.RefersTo selected source target ∧ target ≠ source

theorem reaches_simple
    (refers : Relation.ReflTransGen ((build scope registry).RefersTo selected) first second) :
    ((build scope registry).classGraph selected).Reaches (Name.simple first) (Name.simple second) := by
  induction refers with
  | refl => exact .refl _
  | @tail middle last _ reference ih =>
      by_cases same : Name.simple middle = Name.simple last
      · exact same ▸ ih
      · apply ih.trans
        apply Graph.Reaches.ofEdge
        exact edge_classGraph.mpr ⟨same, middle, last, reference, rfl, rfl⟩

/-- If no two selected classes share a simple name, then a walk along simple names comes from one
along references. -/
theorem exists_refers_of_reaches {node : SimpleName}
    (unique : Set.InjOn Name.simple {name | name ∈ selected}) (firstChosen : first ∈ selected)
    (reaches : ((build scope registry).classGraph selected).Reaches (Name.simple first) node) :
    ∃ last ∈ selected, Name.simple last = node ∧
      Relation.ReflTransGen ((build scope registry).RefersToOther selected) first last := by
  induction reaches with
  | refl => exact ⟨first, firstChosen, rfl, .refl⟩
  | tail _ edge ih =>
      rcases ih with ⟨last, lastChosen, rfl, refers⟩
      rcases edge_classGraph.mp edge with ⟨different, source, target, reference, sameSource, rfl⟩
      -- The class that the edge leaves from is the one that the walk has come to.
      obtain rfl := unique reference.1 lastChosen sameSource
      refine ⟨target, reference.2.1, rfl, refers.tail ⟨reference, ?_⟩⟩
      rintro rfl
      exact different rfl

theorem reaches_simple_iff (unique : Set.InjOn Name.simple {name | name ∈ selected})
    (firstChosen : first ∈ selected) (secondChosen : second ∈ selected) :
    ((build scope registry).classGraph selected).Reaches (Name.simple first) (Name.simple second) ↔
      Relation.ReflTransGen ((build scope registry).RefersToOther selected) first second := by
  constructor
  · intro reaches
    rcases exists_refers_of_reaches unique firstChosen reaches with
      ⟨last, lastChosen, sameSimple, refers⟩
    obtain rfl := unique lastChosen secondChosen sameSimple
    exact refers
  · intro refers
    apply reaches_simple
    exact Relation.ReflTransGen.mono (fun _ _ reference => reference.1) _ _ refers

theorem simple_injOn_selectClasses
    (noCollisions :
      (build scope registry).collisions ((build scope registry).selectClasses selectors) = ∅) :
    Set.InjOn Name.simple {name | name ∈ (build scope registry).selectClasses selectors} := by
  apply (simple_injOn_of_no_collisions noCollisions).mono
  intro name chosen
  rcases exists_class_of_selected chosen with ⟨info, found⟩
  exact ⟨chosen, mem_iff_exists_getElem?.mpr ⟨info, found⟩⟩

/-- If the selected classes have different simple names, then two of them have theirs in one
reported cycle iff they refer to each other through selected classes. -/
theorem class_cycle_iff_mutual_references (scope : Scope) (registry : Registry)
    (selectors : List String)
    (noCollisions :
      (build scope registry).collisions ((build scope registry).selectClasses selectors) = ∅)
    {first second : ClassName}
    (firstChosen : first ∈ (build scope registry).selectClasses selectors)
    (secondChosen : second ∈ (build scope registry).selectClasses selectors)
    (different : first ≠ second) :
    (∃ cycle ∈ ((build scope registry).analyzeClasses selectors).cycles,
      Name.simple first ∈ cycle ∧ Name.simple second ∈ cycle) ↔
    Relation.ReflTransGen ((build scope registry).RefersToOther
        ((build scope registry).selectClasses selectors)) first second ∧
      Relation.ReflTransGen ((build scope registry).RefersToOther
        ((build scope registry).selectClasses selectors)) second first := by
  have unique := simple_injOn_selectClasses noCollisions
  have differentSimple : Name.simple first ≠ Name.simple second := by
    intro sameSimple
    exact different (unique firstChosen secondChosen sameSimple)
  rw [← reaches_simple_iff unique firstChosen secondChosen,
    ← reaches_simple_iff unique secondChosen firstChosen]
  exact Graph.exists_cycle_iff_mutual differentSimple

/-- A class, one nested in it and one of another package. The nested class and the enclosing one
refer to each other. -/
def nestedRegistry : Registry :=
  .ofList
    [.ofName "app.Node" (.ofList ["app.Node$Link", "lib.Edge"]),
     .ofName "app.Node$Link" (.ofList ["app.Node"]),
     .ofName "lib.Edge" (.ofList ["app.Node"])]

theorem nested_class_cycles :
    (build .platform nestedRegistry).collisions
      ((build .platform nestedRegistry).selectClasses ["app", "lib.Edge"]) = ∅ ∧
    ((build .platform nestedRegistry).analyzeClasses ["app", "lib.Edge"]).cycles =
      [["Node", "Edge"]] ∧
    (Relation.ReflTransGen ((build .platform nestedRegistry).RefersToOther
        ((build .platform nestedRegistry).selectClasses ["app", "lib.Edge"])) "app.Node" "lib.Edge" ∧
      Relation.ReflTransGen ((build .platform nestedRegistry).RefersToOther
        ((build .platform nestedRegistry).selectClasses ["app", "lib.Edge"]))
          "lib.Edge" "app.Node") ∧
    ¬(Relation.ReflTransGen ((build .platform nestedRegistry).RefersToOther
        ((build .platform nestedRegistry).selectClasses ["app", "lib.Edge"]))
          "app.Node" "app.Node$Link" ∧
      Relation.ReflTransGen ((build .platform nestedRegistry).RefersToOther
        ((build .platform nestedRegistry).selectClasses ["app", "lib.Edge"]))
          "app.Node$Link" "app.Node") := by
  have noCollisions : (build .platform nestedRegistry).collisions
      ((build .platform nestedRegistry).selectClasses ["app", "lib.Edge"]) = ∅ := by
    rw [← Std.ExtTreeMap.isEmpty_iff]
    decide +kernel
  have cycles_eq : ((build .platform nestedRegistry).analyzeClasses ["app", "lib.Edge"]).cycles =
      [["Node", "Edge"]] := by decide +kernel
  refine ⟨noCollisions, cycles_eq, ?_, ?_⟩
  · rw [← class_cycle_iff_mutual_references .platform nestedRegistry _ noCollisions
      (by decide +kernel) (by decide +kernel) (by decide), cycles_eq]
    decide
  · rw [← class_cycle_iff_mutual_references .platform nestedRegistry _ noCollisions
      (by decide +kernel) (by decide +kernel) (by decide), cycles_eq]
    decide

/-- Two classes of different simple names that refer to each other through selected classes have
their simple names in one reported cycle, whichever other classes share these names. -/
theorem class_cycle_of_mutual_references (scope : Scope) (registry : Registry)
    (selectors : List String) {first second : ClassName}
    (different : Name.simple first ≠ Name.simple second)
    (forth : Relation.ReflTransGen ((build scope registry).RefersTo
      ((build scope registry).selectClasses selectors)) first second)
    (back : Relation.ReflTransGen ((build scope registry).RefersTo
      ((build scope registry).selectClasses selectors)) second first) :
    ∃ cycle ∈ ((build scope registry).analyzeClasses selectors).cycles,
      Name.simple first ∈ cycle ∧ Name.simple second ∈ cycle :=
  (Graph.exists_cycle_iff_mutual different).mpr ⟨reaches_simple forth, reaches_simple back⟩

/-- A ring of four classes, two of which share a simple name and follow each other. -/
def sharedNameRegistry : Registry :=
  .ofList
    [.ofName "shop.Order" (.ofList ["shop.Item"]),
     .ofName "shop.Item" (.ofList ["store.Item"]),
     .ofName "store.Item" (.ofList ["store.Stock"]),
     .ofName "store.Stock" (.ofList ["shop.Order"])]

theorem shared_name_class_cycle :
    ((build .platform sharedNameRegistry).analyzeClasses []).collisions["Item"]? =
      some ["shop.Item", "store.Item"] ∧
    ∃ cycle ∈ ((build .platform sharedNameRegistry).analyzeClasses []).cycles,
      Name.simple "shop.Order" ∈ cycle ∧ Name.simple "store.Stock" ∈ cycle := by
  have orderToItem : (build .platform sharedNameRegistry).RefersTo
      ((build .platform sharedNameRegistry).selectClasses []) "shop.Order" "shop.Item" := by
    decide +kernel
  have itemToItem : (build .platform sharedNameRegistry).RefersTo
      ((build .platform sharedNameRegistry).selectClasses []) "shop.Item" "store.Item" := by
    decide +kernel
  have itemToStock : (build .platform sharedNameRegistry).RefersTo
      ((build .platform sharedNameRegistry).selectClasses []) "store.Item" "store.Stock" := by
    decide +kernel
  have stockToOrder : (build .platform sharedNameRegistry).RefersTo
      ((build .platform sharedNameRegistry).selectClasses []) "store.Stock" "shop.Order" := by
    decide +kernel
  refine ⟨by decide +kernel, ?_⟩
  apply class_cycle_of_mutual_references .platform sharedNameRegistry [] (by decide +kernel)
  · exact .tail (.tail (.single orderToItem) itemToItem) itemToStock
  · exact .single stockToOrder

end Coupling.ProjectIndex
