import Coupling.Artifact.Error
import Coupling.Registry.Document

/-!
# Indexing artifacts

There are two kinds of artifacts. Registry files list classes. Compiled classes come in class files,
alone, below a folder or in an archive; module descriptors among them are skipped. An archive is
read in the order of its directory, without what stands under `META-INF/`.
-/

namespace Coupling

/-- A kind of artifacts. -/
inductive Indexer where
  /-- Registry files. -/
  | registry
  /-- Compiled classes. -/
  | classes
deriving DecidableEq, Repr

namespace Indexer

/-- The letter in lower case, if it is an ASCII letter. -/
def lowered (text : String) : List Char :=
  text.toList.map Char.toLower

/-- The path ends in a file name with the extension, in any case of ASCII letters. -/
def hasExtension (path : Path) (extension : String) : Bool :=
  match path.extension? with
  | some given => lowered given == lowered extension
  | none => false

/-- The path ends as that of an archive does. -/
def isArchive (path : Path) : Bool :=
  hasExtension path "jar" || hasExtension path "zip"

/-- The artifact is of this kind. -/
def accepts (disk : Disk) : Indexer → Path → Bool
  | .registry, path => path.extension? == some "json"
  | .classes, path => disk.isFolder path || hasExtension path "class" || isArchive path

/-- The classes that a registry file lists. -/
def readRegistry (disk : Disk) (path : Path) : Except ScanError (List ClassInfo) :=
  match disk.readText path with
  | .error fault => .error (.unreadable path (.file fault))
  | .ok text =>
    match Registry.parse? text with
    | some infos => .ok infos
    | none => .error (.invalidRegistry path)

/-- Adds the class of a class file unless it declares a module. -/
def addClassFile (registry : Registry) (path : Path) (data : List UInt8) :
    Except ScanError Registry :=
  match ClassFile.parse data with
  | .error fault => .error (.malformedClass path fault)
  | .ok file =>
    if file.isModule then .ok registry
    else .ok (registry.insert (.ofName file.name file.dependencies))

/-- Adds the class of a file. -/
def addFile (disk : Disk) (registry : Registry) (path : Path) : Except ScanError Registry :=
  match disk.read path with
  | .error fault => .error (.unreadable path (.file fault))
  | .ok data => addClassFile registry path data

/-- Adds the class of an entry below a folder, if it is a class file. A folder has none of its own,
but must open. -/
def addBelow (disk : Disk) (registry : Registry) : Path × Node → Except ScanError Registry
  | (path, .folder) =>
    match disk.openFolder path with
    | .error fault => .error (.unreadable path (.folder path fault))
    | .ok () => .ok registry
  | (path, .file _) =>
    if hasExtension path "class" then addFile disk registry path else .ok registry

/-- Adds the classes below a folder. -/
def addFolder (disk : Disk) (registry : Registry) (path : Path) : Except ScanError Registry :=
  (disk.entriesBelow path).foldlM (addBelow disk) registry

/-- The entry of an archive is a class file that counts. -/
def isClassEntry (entry : Archive.Entry) : Bool :=
  entry.isFile && !Name.startsWith entry.name "META-INF/" &&
    hasExtension (Path.mk entry.name) "class"

/-- The path of an entry of an archive. -/
def entryPath (archive : Path) (name : String) : Path :=
  ⟨archive.text ++ "!/" ++ name⟩

/-- Adds the class of an entry of an archive, if it is a class file. Every entry must be readable
from the archive, but only the data of class files is looked at. -/
def addEntry (archive : Path) (data : List UInt8) (registry : Registry) (entry : Archive.Entry) :
    Except ScanError Registry :=
  match entry.open? data with
  | none => .error (.malformedArchive archive)
  | some compressed =>
    if isClassEntry entry then
      match entry.expand compressed with
      | .error fault => .error (.unreadable (entryPath archive entry.name) (.entry fault))
      | .ok content => addClassFile registry (entryPath archive entry.name) content
    else
      .ok registry

/-- Adds the classes of an archive. -/
def addArchive (disk : Disk) (registry : Registry) (path : Path) : Except ScanError Registry :=
  match disk.read path with
  | .error fault => .error (.unreadable path (.file fault))
  | .ok data =>
    match Archive.entries? data with
    | none => .error (.malformedArchive path)
    | some entries => entries.foldlM (addEntry path data) registry

/-- Adds the classes of one artifact of this kind. -/
def addArtifact (disk : Disk) (indexer : Indexer) (registry : Registry) (path : Path) :
    Except ScanError Registry :=
  if !disk.contains path then .error (.missing path)
  else
    match indexer with
    | .registry => (readRegistry disk path).map registry.insertMany
    | .classes =>
      if disk.isFolder path then addFolder disk registry path
      else if isArchive path then addArchive disk registry path
      else addFile disk registry path

/-- The classes of artifacts of this kind. Of several with one name, the first stays. -/
def index (disk : Disk) (indexer : Indexer) (paths : List Path) : Except ScanError Registry :=
  paths.foldlM (indexer.addArtifact disk) ∅

end Indexer

end Coupling
