import Coupling.Name

/-!
# Project scope

Platform classes are left out of every graph. They are told apart by the beginnings of their names.
-/

namespace Coupling

/-- Decides which names belong to the analyzed project. -/
structure Scope where
  /-- Names that start with one of these belong to the platform. -/
  excluded : List String
deriving DecidableEq, Repr

namespace Scope

/-- The platform namespaces that are left out unless a project says otherwise. -/
def platform : Scope where
  excluded := ["java.", "javax.", "sun.", "com.sun."]

instance : Inhabited Scope := ⟨platform⟩

/-- A name is in scope iff it starts with none of the excluded beginnings. -/
def contains (scope : Scope) (name : String) : Bool :=
  !scope.excluded.any (Name.startsWith name)

/-- A class is in scope iff both its name and its package are. -/
def containsClass (scope : Scope) (name : ClassName) (package : PackageName) : Bool :=
  scope.contains name && scope.contains package

end Scope

end Coupling
