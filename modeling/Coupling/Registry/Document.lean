import Coupling.Json.Parser
import Coupling.Json.Printer
import Coupling.Registry.Basic

/-!
# Registries as JSON

A registry is written as an array of records, each with the name, the package and the dependencies
of a class. On reading, a class without a package lies in the one that its name spells.
-/

namespace Coupling

namespace ClassInfo

/-- The class as a record. -/
def toJson (info : ClassInfo) : Json :=
  .record
    [("name", .text info.name),
     ("package", .text info.package),
     ("dependencies", .texts info.dependencies.toList)]

/-- The package given in a record, or the one that the name spells. -/
def packageFrom? (name : ClassName) : Option Json → Option PackageName
  | none | some .null => some (Name.package name)
  | some given => given.asText?

/-- The dependencies given in a record, which may be left out. -/
def dependenciesFrom? : Option Json → Option NameSet
  | none => some ∅
  | some given => given.asTexts?.map NameSet.ofList

/-- The class that a record describes. -/
def ofJson? (document : Json) : Option ClassInfo :=
  match document.fields? ["name", "package", "dependencies"] with
  | some [some givenName, givenPackage, givenDependencies] => do
    let name ← givenName.asText?
    let package ← packageFrom? name givenPackage
    let dependencies ← dependenciesFrom? givenDependencies
    return ⟨name, package, dependencies⟩
  | _ => none

end ClassInfo

namespace Registry

/-- The registry as an array of records in ascending order of the class names. -/
def toJson (registry : Registry) : Json :=
  .array (registry.classes.map ClassInfo.toJson)

/-- The classes that an array of records describes. -/
def classesOfJson? : Json → Option (List ClassInfo)
  | .array entries => entries.mapM ClassInfo.ofJson?
  | _ => none

/-- The text of a registry file. -/
def render (registry : Registry) : String :=
  registry.toJson.pretty

/-- The classes that the text of a registry file lists. -/
def parse? (text : String) : Option (List ClassInfo) :=
  (Json.parse? text).bind classesOfJson?

end Registry

end Coupling
