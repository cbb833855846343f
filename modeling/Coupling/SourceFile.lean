import Coupling.Disk
import Coupling.Name

/-!
# Source files

The source of a class is expected below a source folder, in a file whose path spells the qualified
name: `com.example.User` in `com/example/User.java`.
-/

namespace Coupling.SourceFile

/-- The path of the source of a class, as seen from a source folder. -/
def relativePath (name : ClassName) : Path :=
  let parts := (name.toList.splitOn '.').map String.ofList
  (parts.foldl (fun found part => found.join ⟨part⟩) (Path.mk "")).withExtension "java"

/-- The first source folder that holds the source of a class decides where it is. -/
def locate? (disk : Disk) (roots : List Path) (name : ClassName) : Option Path :=
  (roots.map (·.join (relativePath name))).find? disk.isFile

end Coupling.SourceFile
