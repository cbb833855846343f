import Std.Data.ExtTreeMap
import Coupling.Path
import Coupling.Text.Utf8

/-!
# Disks

A disk is a tree of folders and files, together with the folder that relative paths start from. An
entry is known by its location, the list of names that lead to it from the topmost folder. Locations
are ordered so that a folder comes right before what it holds, and the entries of a folder come in
the order of their names.

Following a path enters one folder after the other, so a path through something that is no folder
leads nowhere, even where a double dot would lead out again.

There are no links, no entries other than folders and files, and no permissions: whatever a path
leads to can be read and written. Of the limits of a system only those on the length of names and
paths are kept.
-/

namespace Coupling

/-- The names that lead to an entry from the topmost folder. -/
abbrev Location := List String

/-- What stands at a location. -/
inductive Node where
  /-- A file and its bytes. -/
  | file (content : List UInt8)
  | folder
deriving DecidableEq

/-- Why an entry cannot be read or written. -/
inductive Fault where
  /-- There is no such entry. -/
  | notFound
  /-- The path goes through something that is no folder. -/
  | notFolder
  /-- There is a folder where a file is expected. -/
  | isFolder
  /-- The path or one of its names is too long. -/
  | tooLong
  /-- The path holds a NUL character. -/
  | holdsNul
  /-- The file is not text. -/
  | notText
deriving DecidableEq, Repr

/-- The reason in words. -/
def Fault.message : Fault → String
  | .notFound => "No such file or directory (os error 2)"
  | .notFolder => "Not a directory (os error 20)"
  | .isFolder => "Is a directory (os error 21)"
  | .tooLong => "File name too long (os error 36)"
  | .holdsNul => "file name contained an unexpected NUL byte"
  | .notText => "stream did not contain valid UTF-8"

/-- A tree of folders and files. -/
structure Disk where
  /-- The folder that relative paths start from. -/
  workingFolder : Location
  /-- What stands at each location. The topmost folder is always there. -/
  nodes : Std.ExtTreeMap Location Node
deriving DecidableEq

namespace Disk

/-- What stands at a location. -/
def at? (disk : Disk) (location : Location) : Option Node :=
  if location.isEmpty then some .folder else disk.nodes[location]?

/-- The locations on the way to a location, itself included, the topmost folder left out. -/
def waypoints : Location → List Location
  | [] => []
  | name :: rest => [name] :: (waypoints rest).map (name :: ·)

/-- Makes a folder at each location on the way to a location, unless something is there. -/
def makeFolders (disk : Disk) (location : Location) : Disk :=
  { disk with
    nodes := (waypoints location).foldl (fun nodes place => nodes.insertIfNew place .folder)
      disk.nodes }

/-- The disk that holds nothing but its working folder. -/
def empty (workingFolder : Location) : Disk :=
  makeFolders ⟨workingFolder, ∅⟩ workingFolder

/-- Puts a node at a location and makes the folders that lead to it. -/
def put (disk : Disk) (location : Location) (node : Node) : Disk :=
  let made := disk.makeFolders location.dropLast
  { made with nodes := made.nodes.insert location node }

/-- The path of a location. -/
def pathOf (location : Location) : Path :=
  ⟨"/" ++ "/".intercalate location⟩

/-- Enters a location, which must be a folder. -/
def enter (disk : Disk) (location : Location) : Except Fault Unit :=
  match disk.at? location with
  | some .folder => .ok ()
  | some (.file _) => .error .notFolder
  | none => .error .notFound

/-- Follows the texts between the slashes of a path. Each of them is looked up in the location
reached so far, which must be a folder; the last may lead to a location where nothing stands. -/
def follow (disk : Disk) (location : Location) : List String → Except Fault Location
  | [] => .ok location
  | segment :: rest => do
    disk.enter location
    if Path.isIdle segment then disk.follow location rest
    else if segment == ".." then disk.follow location.dropLast rest
    else if segment.utf8ByteSize > 255 then .error .tooLong
    else disk.follow (location ++ [segment]) rest

/-- Checks what a path must meet before it is followed. -/
def checkPath (path : Path) : Except Fault Unit :=
  if path.text.toList.contains '\x00' then .error .holdsNul
  else if path.text.isEmpty then .error .notFound
  else if path.text.utf8ByteSize > 4095 then .error .tooLong
  else .ok ()

/-- The location that a path starts from. -/
def startOf (disk : Disk) (path : Path) : Location :=
  if path.isAbsolute then [] else disk.workingFolder

/-- The location that a path leads to. -/
def locate (disk : Disk) (path : Path) : Except Fault Location := do
  checkPath path
  disk.follow (disk.startOf path) path.segments

/-- What a path leads to. -/
def node? (disk : Disk) (path : Path) : Option Node :=
  match disk.locate path with
  | .ok location => disk.at? location
  | .error _ => none

/-- The path leads to something. -/
def contains (disk : Disk) (path : Path) : Bool :=
  (disk.node? path).isSome

/-- The path leads to a file. -/
def isFile (disk : Disk) (path : Path) : Bool :=
  match disk.node? path with
  | some (.file _) => true
  | _ => false

/-- The path leads to a folder. -/
def isFolder (disk : Disk) (path : Path) : Bool :=
  disk.node? path == some .folder

/-- The bytes of a file. -/
def read (disk : Disk) (path : Path) : Except Fault (List UInt8) := do
  let location ← disk.locate path
  match disk.at? location with
  | some (.file content) => .ok content
  | some .folder => .error .isFolder
  | none => .error .notFound

/-- The text of a file. -/
def readText (disk : Disk) (path : Path) : Except Fault String := do
  let content ← disk.read path
  match Utf8.decode? content with
  | some text => .ok text
  | none => .error .notText

/-- Where a file of the given path would be written: an entry of a folder that is there. -/
def target (disk : Disk) (path : Path) : Except Fault Location := do
  checkPath path
  match path.segments.reverse.dropWhile (·.isEmpty) with
  | [] => .error .isFolder
  | name :: before =>
    let folder ← disk.follow (disk.startOf path) before.reverse
    disk.enter folder
    if name == "." || name == ".." || path.segments.getLast? == some "" then .error .isFolder
    else if name.utf8ByteSize > 255 then .error .tooLong
    else if disk.at? (folder ++ [name]) = some .folder then .error .isFolder
    else .ok (folder ++ [name])

/-- Writes a file, in place of one that is there. -/
def write (disk : Disk) (path : Path) (content : List UInt8) : Except Fault Disk := do
  let location ← disk.target path
  return { disk with nodes := disk.nodes.insert location (.file content) }

/-- Writes a text file. -/
def writeText (disk : Disk) (path : Path) (text : String) : Except Fault Disk :=
  disk.write path (Utf8.encode text)

/-- The path that names a location in full, if something is there. -/
def resolve? (disk : Disk) (path : Path) : Option Path :=
  match disk.locate path with
  | .ok location => (disk.at? location).map fun _ => pathOf location
  | .error _ => none

/-- Opens a folder to see what it holds. -/
def openFolder (disk : Disk) (path : Path) : Except Fault Unit := do
  let location ← disk.locate path
  disk.enter location

/-- A folder and what stands below it at any depth, each entry with its path as seen from the given
path of the folder. A folder is listed in the order of its names, and what a folder holds comes
right after it. -/
def entriesBelow (disk : Disk) (path : Path) : List (Path × Node) :=
  match disk.locate path with
  | .error _ => []
  | .ok location =>
    disk.nodes.toList.filterMap fun (place, node) =>
      if location.isPrefixOf place then some (path.below (place.drop location.length), node)
      else none

end Disk

end Coupling
