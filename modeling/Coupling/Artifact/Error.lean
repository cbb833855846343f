import Coupling.Archive.Basic
import Coupling.ClassFile.Basic
import Coupling.Disk

/-!
# Failures of a scan

Any of these ends the whole scan.
-/

namespace Coupling

/-- Why the data of an artifact cannot be read. -/
inductive ReadFault where
  /-- The file cannot be read. -/
  | file (fault : Fault)
  /-- The folder, met on the way through another one, cannot be opened. -/
  | folder (path : Path) (fault : Fault)
  /-- The entry of an archive cannot be read. -/
  | entry (fault : Archive.Entry.Fault)
deriving DecidableEq, Repr

/-- The reason in words. -/
def ReadFault.message : ReadFault → String
  | .file fault => fault.message
  | .folder path fault =>
    s!"IO error for operation on {path.text}: {fault.message}: {fault.message}"
  | .entry fault => fault.message

/-- Why artifacts cannot be indexed. -/
inductive ScanError where
  /-- There is no such artifact. -/
  | missing (path : Path)
  /-- The artifact cannot be read, or the registry cannot be written. -/
  | unreadable (path : Path) (fault : ReadFault)
  /-- The class file is malformed. -/
  | malformedClass (path : Path) (fault : ClassFile.Fault)
  /-- The archive is unreadable as a whole. -/
  | malformedArchive (path : Path)
  /-- The artifact is of no kind that can be indexed. -/
  | unsupported (path : Path)
  /-- The text is no class registry. -/
  | invalidRegistry (path : Path)
deriving DecidableEq, Repr

namespace ScanError

/-- What failed, in words. -/
def message : ScanError → String
  | .missing path => s!"artifact path does not exist: {path.text}"
  | .unreadable path _ => s!"failed to read {path.text}"
  | .malformedClass path fault => s!"malformed class file {path.text}: {fault.message}"
  | .malformedArchive path => s!"malformed class file {path.text}"
  | .unsupported path =>
    s!"unsupported artifact {path.text}: expected a class directory, .class file, " ++
      ".jar/.zip archive or .json registry"
  | .invalidRegistry path => s!"invalid class registry {path.text}"

/-- What failed and why, in words. -/
def explanation (error : ScanError) : String :=
  match error with
  | .unreadable _ fault => error.message ++ ": " ++ fault.message
  | _ => error.message

end ScanError

end Coupling
