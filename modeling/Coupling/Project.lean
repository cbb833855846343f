import Coupling.Document
import Coupling.Json.Parser
import Coupling.Json.Printer

/-!
# Projects

A project descriptor lists the artifacts to scan and the folders that hold their sources. A path is
listed at most once, where paths with the same components count as one.
-/

namespace Coupling

/-- A project descriptor. -/
structure Project where
  /-- The name of the project. -/
  name : String
  /-- The artifacts to scan, in class path order. -/
  artifactPaths : List Path
  /-- The source folders, in search order. -/
  sourcePaths : List Path
deriving DecidableEq, Repr, Inhabited

namespace Project

/-- A project without paths. -/
def ofName (name : String) : Project := ⟨name, [], []⟩

/-- Lists a path last unless the same one is listed. -/
def addPath (paths : List Path) (path : Path) : List Path :=
  if paths.any (·.same path) then paths else paths ++ [path]

/-- Leaves out a path. -/
def removePath (paths : List Path) (path : Path) : List Path :=
  paths.filter fun listed => !listed.same path

/-- Adds an artifact unless it is listed. -/
def addArtifact (project : Project) (path : Path) : Project :=
  { project with artifactPaths := addPath project.artifactPaths path }

def removeArtifact (project : Project) (path : Path) : Project :=
  { project with artifactPaths := removePath project.artifactPaths path }

/-- Adds a source folder unless it is listed. -/
def addSource (project : Project) (path : Path) : Project :=
  { project with sourcePaths := addPath project.sourcePaths path }

/-- Removes a source folder. -/
def removeSource (project : Project) (path : Path) : Project :=
  { project with sourcePaths := removePath project.sourcePaths path }

/-- The project with its relative paths seen from a folder, usually that of its descriptor. -/
def resolved (project : Project) (base : Path) : Project :=
  { project with
    artifactPaths := project.artifactPaths.map base.join
    sourcePaths := project.sourcePaths.map base.join }

/-- The project as a record. -/
def toJson (project : Project) : Json :=
  .record
    [("name", .text project.name),
     ("artifact_paths", .texts (project.artifactPaths.map Path.text)),
     ("source_paths", .texts (project.sourcePaths.map Path.text))]

/-- A list of paths given in a record, which may be left out. -/
def pathsFrom? : Option Json → Option (List Path)
  | none => some []
  | some given => given.asTexts?.map (·.map Path.mk)

/-- The project that a record describes. -/
def ofJson? (document : Json) : Option Project :=
  match document.fields? ["name", "artifact_paths", "source_paths"] with
  | some [some givenName, givenArtifacts, givenSources] => do
    let name ← givenName.asText?
    let artifactPaths ← pathsFrom? givenArtifacts
    let sourcePaths ← pathsFrom? givenSources
    return ⟨name, artifactPaths, sourcePaths⟩
  | _ => none

/-- The text of a project descriptor. -/
def render (project : Project) : String :=
  project.toJson.pretty

/-- The project that the text of a descriptor describes. -/
def parse? (text : String) : Option Project :=
  (Json.parse? text).bind ofJson?

/-- Reads a project descriptor. -/
def load (disk : Disk) (path : Path) : Except DocumentError Project :=
  disk.load .project path parse?

/-- Writes a project descriptor. -/
def save (project : Project) (disk : Disk) (path : Path) : Except DocumentError Disk :=
  disk.save .project path project.render

end Project

end Coupling
