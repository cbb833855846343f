import Coupling.Command.Run

/-!
# Footprints of commands

The paths that a command looks at. They depend on what is on the disk: which artifacts are scanned,
for instance, is known only once the project descriptor is. A caller that has only part of a disk
asks for these paths, adds what they lead to, and asks again until nothing is missing.
-/

namespace Coupling.Command

/-- The project descriptor that a command is about. -/
def descriptor? : Command → Option Path
  | .packages file _ | .classes file _ | .metrics file _ | .exportClasses file _
  | .newProject file _ _ | .addPaths file _ _ | .removePaths file _ _ | .showProject file =>
    some file
  | .listRecent | .forgetRecent _ | .initSettings _ => none

/-- The files that a command makes besides descriptors and the list of recent projects. -/
def outputs : Command → List Path
  | .exportClasses _ output => [output]
  | .initSettings _ => [⟨Settings.fileName⟩]
  | _ => []

/-- The locations above a location, itself included. -/
def locationsAbove (location : Location) : List Location :=
  (List.range (location.length + 1)).map location.take

/-- The files that the settings may be read from. -/
def settingsFiles (options : Options) (command : Command) (disk : Disk) : List Path :=
  let folder := (command.descriptor?.map folderOf).getD ⟨"."⟩
  match options.settingsFile?, disk.locate folder with
  | some file, _ => [file]
  | none, .ok location =>
    folder :: (locationsAbove location).map fun above =>
      (Disk.pathOf above).join ⟨Settings.fileName⟩
  | none, .error _ => [folder]

/-- The settings as far as the disk tells them. -/
def knownSettings (options : Options) (command : Command) (disk : Disk) : Settings :=
  let folder := (command.descriptor?.map folderOf).getD ⟨"."⟩
  match ((settingsIn options folder).run disk).1 with
  | .ok settings => settings
  | .error _ => Settings.default

/-- The artifacts and source files that a command reads, as far as the disk tells them. Of a folder
among them, everything below it counts. -/
def contents (command : Command) (disk : Disk) : List Path :=
  let project? := command.descriptor?.bind fun file =>
    (Project.load disk file).toOption.map fun project => project.resolved (folderOf file)
  match command, project? with
  | .packages _ _, some project | .classes _ _, some project | .exportClasses _ _, some project =>
    project.artifactPaths
  | .metrics _ className, some project =>
    project.sourcePaths.map fun folder => folder.join (SourceFile.relativePath className)
  | _, _ => []

/-- The paths besides its contents that a command looks at, as far as the disk tells them. -/
def consulted (options : Options) (command : Command) (disk : Disk) : List Path :=
  settingsFiles options command disk ++ (knownSettings options command disk).recentFile?.toList ++
    command.descriptor?.toList ++ command.outputs

end Coupling.Command
