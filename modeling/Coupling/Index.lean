import Coupling.Graph.Cycle
import Coupling.Registry.Basic
import Coupling.Scope

/-!
# Project index

The index of a project holds its classes in scope, the graph of their packages, and which classes
each package holds. Packages and classes are chosen by selectors: a selector names a package and
everything nested below it, and for classes also one class by its qualified name.

Class graphs are made on demand for a selection. Their nodes are simple names, so classes that share
a simple name share a node.
-/

namespace Coupling

/-- The project classes of a registry and the package graph made from them. -/
structure ProjectIndex where
  /-- The project class of each name. -/
  classes : Std.ExtTreeMap ClassName ClassInfo
  /-- An edge for each reference from one package to another. -/
  packageGraph : Graph
  /-- The classes of each package. -/
  packageContents : Std.ExtTreeMap PackageName NameSet

namespace ProjectIndex

/-- The index without classes. -/
def empty : ProjectIndex := ⟨∅, ∅, ∅⟩

instance : EmptyCollection ProjectIndex := ⟨empty⟩

/-- The package of a dependency: the registered one if the class is known, else the one that its
name spells. -/
def packageOf (registry : Registry) (dependency : ClassName) : PackageName :=
  match registry.get? dependency with
  | some info => info.package
  | none => Name.package dependency

/-- The other packages in scope that a class refers to, in the order of its dependencies. -/
def targetPackages (scope : Scope) (registry : Registry) (info : ClassInfo) : List PackageName :=
  info.dependencies.toList.filterMap fun dependency =>
    let target := packageOf registry dependency
    if scope.containsClass dependency target && target != info.package then some target else none

/-- Adds one project class. -/
def addClass (scope : Scope) (registry : Registry) (index : ProjectIndex) (info : ClassInfo) :
    ProjectIndex where
  classes := index.classes.insert info.name info
  packageGraph :=
    (targetPackages scope registry info).foldl
      (fun graph target => graph.addEdge info.package target)
      (index.packageGraph.addNode info.package)
  packageContents :=
    index.packageContents.insert info.package
      ((index.packageContents.getD info.package ∅).insert info.name)

/-- The registered classes that are in scope. -/
def projectClasses (scope : Scope) (registry : Registry) : List ClassInfo :=
  registry.classes.filter fun info => scope.containsClass info.name info.package

/-- Indexes the classes of a registry that are in scope. -/
def build (scope : Scope) (registry : Registry) : ProjectIndex :=
  (projectClasses scope registry).foldl (addClass scope registry) ∅

/-- The packages that hold a project class, in ascending order. -/
def packages (index : ProjectIndex) : List PackageName :=
  index.packageContents.keys

/-- The classes of a package, if it holds any. -/
def classesIn? (index : ProjectIndex) (package : PackageName) : Option NameSet :=
  index.packageContents[package]?

/-- The number of project classes. -/
def classCount (index : ProjectIndex) : Nat :=
  index.classes.size

/-- The packages equal to a selector or nested below it. No selectors choose all. -/
def selectPackages (index : ProjectIndex) (selectors : List String) : NameSet :=
  NameSet.ofList
    (index.packages.filter fun package =>
      selectors.isEmpty || selectors.any (Name.isWithin package))

/-- What one selector chooses: the class of exactly that name, and the classes of the packages equal
to it or nested below it. -/
def classesOf (index : ProjectIndex) (selector : String) : List ClassName :=
  (if index.classes.contains selector then [selector] else []) ++
    index.packageContents.toList.flatMap fun (package, members) =>
      if Name.isWithin package selector then members.toList else []

/-- The classes that some selector chooses. No selectors choose every project class. -/
def selectClasses (index : ProjectIndex) (selectors : List String) : NameSet :=
  if selectors.isEmpty then NameSet.ofList index.classes.keys
  else NameSet.ofList (selectors.flatMap index.classesOf)

/-- The package graph restricted to the selected packages. -/
def packageSubgraph (index : ProjectIndex) (selected : NameSet) : Graph :=
  index.packageGraph.restrict selected.contains

/-- The package cycles that a search from the selected packages meets. The search follows the whole
package graph, so a cycle may name packages that are not selected. -/
def packageCycles (index : ProjectIndex) (selected : NameSet) : List (List PackageName) :=
  index.packageGraph.cyclesFrom selected.toList

/-- The simple names that a selected class refers to, leaving out references to its own name and to
its directly enclosing class. -/
def targetNames (selected : NameSet) (info : ClassInfo) : List SimpleName :=
  let source := Name.simple info.name
  info.dependencies.toList.filterMap fun dependency =>
    let target := Name.simple dependency
    if selected.contains dependency && source != target &&
        Name.enclosing? source != some target then
      some target
    else
      none

/-- Adds the node and the edges of one selected class. -/
def addClassNode (selected : NameSet) (graph : Graph) (info : ClassInfo) : Graph :=
  let source := Name.simple info.name
  (targetNames selected info).foldl (fun graph target => graph.addEdge source target)
    (graph.addNode source)

/-- The project classes among the selected names, in ascending order. -/
def selectedClasses (index : ProjectIndex) (selected : NameSet) : List ClassInfo :=
  selected.toList.filterMap (index.classes[·]?)

/-- The graph over the simple names of the selected classes. -/
def classGraph (index : ProjectIndex) (selected : NameSet) : Graph :=
  (index.selectedClasses selected).foldl (addClassNode selected) ∅

/-- Lists a class under its simple name, after those that are listed already. -/
def addSimpleName (names : Std.ExtTreeMap SimpleName (List ClassName)) (name : ClassName) :
    Std.ExtTreeMap SimpleName (List ClassName) :=
  names.insert (Name.simple name) (names.getD (Name.simple name) [] ++ [name])

/-- The simple names that several selected classes share, with these classes in ascending order. -/
def collisions (index : ProjectIndex) (selected : NameSet) :
    Std.ExtTreeMap SimpleName (List ClassName) :=
  ((selected.toList.filter index.classes.contains).foldl addSimpleName ∅).filter
    fun _ names => names.length > 1

end ProjectIndex

end Coupling
