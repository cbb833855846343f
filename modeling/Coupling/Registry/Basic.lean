import Std.Data.ExtTreeMap
import Coupling.Name

/-!
# Class registries

A registry holds every class that was found, one per name. Where several artifacts define the same
class, the one that was found first stays, as on a class path.
-/

namespace Coupling

/-- A class that was found, with the classes that it refers to. -/
structure ClassInfo where
  /-- The qualified name. -/
  name : ClassName
  /-- The package, which need not be the one the name spells. -/
  package : PackageName
  /-- The qualified names it refers to. -/
  dependencies : NameSet
deriving DecidableEq

/-- The class of the given name in the package that its name spells. -/
def ClassInfo.ofName (name : ClassName) (dependencies : NameSet) : ClassInfo :=
  ⟨name, Name.package name, dependencies⟩

/-- The classes found so far, each under its own name. -/
structure Registry where
  /-- The class of each name. -/
  byName : Std.ExtTreeMap ClassName ClassInfo
  /-- Every class stands under its own name. -/
  named : ∀ (name : ClassName) (info : ClassInfo), byName[name]? = some info → info.name = name

namespace Registry

/-- The registry without classes. -/
def empty : Registry where
  byName := ∅
  named := by simp

instance : EmptyCollection Registry := ⟨empty⟩

instance : Inhabited Registry := ⟨∅⟩

/-- Adds a class unless one of its name is there already. -/
def insert (registry : Registry) (info : ClassInfo) : Registry where
  byName := registry.byName.insertIfNew info.name info
  named := by
    intro name found
    rw [Std.ExtTreeMap.getElem?_insertIfNew]
    split
    · rename_i fresh
      intro same
      cases same
      exact Std.LawfulEqCmp.eq_of_compare fresh.1
    · exact registry.named name found

/-- A class of this name is in the registry. -/
def contains (registry : Registry) (name : ClassName) : Bool :=
  registry.byName.contains name

/-- The class of this name. -/
def get? (registry : Registry) (name : ClassName) : Option ClassInfo :=
  registry.byName[name]?

/-- The number of classes. -/
def size (registry : Registry) : Nat :=
  registry.byName.size

/-- The classes in ascending order of their names. -/
def classes (registry : Registry) : List ClassInfo :=
  registry.byName.values

/-- Adds the classes in the given order, keeping the first of each name. -/
def insertMany (registry : Registry) (infos : List ClassInfo) : Registry :=
  infos.foldl insert registry

/-- The registry of the given classes, of which the first of each name stays. -/
def ofList (infos : List ClassInfo) : Registry :=
  empty.insertMany infos

end Registry

end Coupling
