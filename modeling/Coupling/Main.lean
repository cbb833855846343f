import Coupling.Command.Footprint

/-!
# The command line

Reads the part of the disk that a command looks at, carries out the command, and writes the files
that it changed.
-/

namespace Coupling.RealDisk

/-- Adds what stands at a location of the real disk, and if asked all that a folder holds. -/
partial def addEntry (disk : Disk) (location : Location) (deep : Bool) : IO Disk := do
  let path := (← IO.currentDir) / (Disk.pathOf location).text
  if ← path.isDir then
    let made := disk.makeFolders location
    if deep then
      (← path.readDir).foldlM
        (fun found entry => addEntry found (location ++ [entry.fileName]) true) made
    else return made
  else if ← path.pathExists then
    let content ← IO.FS.readBinFile path
    return disk.put location (.file content.toList)
  else return disk

/-- Adds what a path leads to and the folders on the way. -/
def addPath (deep : Bool) (disk : Disk) (path : Path) : IO Disk := do
  let start := if path.isAbsolute then [] else disk.workingFolder
  let location := path.components.foldl
    (fun found component =>
      match component with
      | .root => []
      | .here => found
      | .up => found.dropLast
      | .entry name => found ++ [name])
    start
  let known ← (Disk.waypoints location).dropLast.foldlM
    (fun found place => addEntry found place false) disk
  addEntry known location deep

/-- Adds all that a command looks at. Three rounds tell everything: the settings and the descriptor,
what they name, and nothing more. -/
def snapshot (options : Options) (command : Command) : Nat → Disk → IO Disk
  | 0, disk => return disk
  | rounds + 1, disk => do
    let found ← (command.consulted options disk).foldlM (addPath false) disk
    let filled ← (command.contents found).foldlM (addPath true) found
    snapshot options command rounds filled

/-- Writes the files in which a disk differs from an earlier one. -/
def writeChanges (before after : Disk) : IO Unit :=
  after.nodes.toList.forM fun (location, node) => do
    match node with
    | .folder => return
    | .file content =>
      if before.nodes[location]? != some node then
        IO.FS.writeBinFile (Disk.pathOf location).text ⟨content.toArray⟩

/-- Reports are coloured on a terminal, unless the environment asks for none. -/
def wantsColour : IO Bool := do
  if (← IO.getEnv "NO_COLOR").isSome then return false
  (← IO.getStdout).isTty

/-- The folder that the program was started in. -/
def startingFolder : IO Location := do
  let text := (← IO.currentDir).toString
  return (Path.mk text).components.filterMap fun
    | .entry name => some name
    | _ => none

end Coupling.RealDisk

open Coupling RealDisk

/-- Carries out the command that the arguments name. -/
def main (arguments : List String) : IO UInt32 := do
  let empty := Disk.empty (← startingFolder)
  let before ←
    match Arguments.parse arguments with
    | .ok (options, command) => snapshot options command 3 empty
    | .error .help => do
      IO.print Arguments.usage
      return 0
    | .error .misuse => do
      IO.eprint Arguments.usage
      return 2
    | .error .version => pure empty
  let (outcome, after) := Arguments.run arguments (← wantsColour) before
  writeChanges before after
  IO.print outcome.output
  match outcome.explanation? with
  | some explanation => IO.eprintln ("Error: " ++ explanation)
  | none => pure ()
  return outcome.exitCode.toUInt32
