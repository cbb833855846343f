import Coupling.Artifact.Indexer
import Coupling.Index

/-!
# Scanning a class path

Each artifact of a class path goes to the first kind that accepts it. A class that was found in an
earlier artifact shadows later ones of its name.
-/

namespace Coupling.Scan

/-- The kinds of artifacts in the order in which they are asked. -/
def indexers : List Indexer := [.registry, .classes]

/-- Adds the classes of one artifact that are not there yet. -/
def addArtifact (disk : Disk) (registry : Registry) (path : Path) : Except ScanError Registry :=
  if !disk.contains path then .error (.missing path)
  else
    match indexers.find? (·.accepts disk path) with
    | none => .error (.unsupported path)
    | some indexer => (indexer.index disk [path]).map fun found => registry.insertMany found.classes

/-- The classes of a class path. -/
def run (disk : Disk) (paths : List Path) : Except ScanError Registry :=
  paths.foldlM (addArtifact disk) ∅

/-- The index of the classes of a class path that are in scope. -/
def analyze (disk : Disk) (scope : Scope) (paths : List Path) : Except ScanError ProjectIndex :=
  (run disk paths).map (ProjectIndex.build scope)

end Coupling.Scan

namespace Coupling.Registry

/-- Writes a registry to a file that can be indexed again. -/
def save (registry : Registry) (disk : Disk) (path : Path) : Except ScanError Disk :=
  match disk.writeText path registry.render with
  | .ok written => .ok written
  | .error fault => .error (.unreadable path (.file fault))

end Coupling.Registry
