import Coupling.Index

/-!
# Analyses

What a report shows of a project: the package view and the class view of a selection, and the
metrics of the methods of one class.
-/

namespace Coupling

/-- The package graph and its cycles, for a package selection. -/
structure PackageAnalysis where
  /-- The selected packages in ascending order. -/
  selected : List PackageName
  /-- The number of project classes in the selected packages. -/
  classCount : Nat
  /-- The package graph restricted to the selection. -/
  graph : Graph
  /-- The cycles reachable from the selection; they may name packages outside it. -/
  cycles : List (List PackageName)
deriving DecidableEq

/-- The class graph and its cycles, for a class selection. -/
structure ClassAnalysis where
  /-- The number of selected classes. -/
  selectedCount : Nat
  /-- The graph over the simple names of the selection. -/
  graph : Graph
  /-- The cycles of that graph. -/
  cycles : List (List SimpleName)
  /-- The simple names that several selected classes share. -/
  collisions : Std.ExtTreeMap SimpleName (List ClassName)
deriving DecidableEq

namespace ProjectIndex

/-- The number of classes a package holds. -/
def memberCount (index : ProjectIndex) (package : PackageName) : Nat :=
  ((index.classesIn? package).map Std.ExtTreeSet.size).getD 0

/-- Analyzes the packages that the selectors choose. -/
def analyzePackages (index : ProjectIndex) (selectors : List String) : PackageAnalysis :=
  let selected := index.selectPackages selectors
  { selected := selected.toList
    classCount := selected.toList.foldr (fun package total => index.memberCount package + total) 0
    graph := index.packageSubgraph selected
    cycles := index.packageCycles selected }

/-- Analyzes the classes that the selectors choose. -/
def analyzeClasses (index : ProjectIndex) (selectors : List String) : ClassAnalysis :=
  let selected := index.selectClasses selectors
  let graph := index.classGraph selected
  { selectedCount := selected.size
    graph
    cycles := graph.cycles
    collisions := index.collisions selected }

end ProjectIndex

/-- The measures of one method. -/
structure MethodMetrics where
  /-- The name of the method. -/
  name : String
  /-- The number of declared parameters, the receiver apart. -/
  parameterCount : Nat
  /-- The number of statements that stand directly in the body. -/
  statementCount : Nat
  /-- One more than the number of decision points in the body. -/
  complexity : Nat
deriving DecidableEq, Repr

/-- The measures of the methods of one class, in the order of their declaration. -/
structure ClassMetrics where
  /-- The qualified name of the class. -/
  className : ClassName
  /-- One entry per method. -/
  methods : List MethodMetrics
deriving DecidableEq, Repr

namespace ClassMetrics

/-- The sum of the complexities of all methods. -/
def totalComplexity (metrics : ClassMetrics) : Nat :=
  metrics.methods.foldr (fun method total => method.complexity + total) 0

/-- The method with the greatest complexity; of several, the last. -/
def mostComplex? (metrics : ClassMetrics) : Option MethodMetrics :=
  metrics.methods.foldl
    (fun best method =>
      match best with
      | some leader => if leader.complexity ≤ method.complexity then some method else some leader
      | none => some method)
    none

end ClassMetrics

end Coupling
