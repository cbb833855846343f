import Coupling.Command.Arguments
import Coupling.Report.Json
import Coupling.SourceFile

/-!
# Carrying out commands

A command reads and writes files and gives a text to be printed. What it wrote stays written if it
fails later on.

The list of recent projects is kept up to date on the side: a command never fails because the list
cannot be read or written.
-/

namespace Coupling

/-- Reads and writes files, and may fail. -/
abbrev Action := ExceptT Failure (StateM Disk)

namespace Action

/-- Looks something up on the disk. -/
def consult {ε α : Type} (cause : ε → Failure) (look : Disk → Except ε α) : Action α := do
  match look (← get) with
  | .ok value => return value
  | .error error => throw (cause error)

/-- Changes the disk. -/
def alter {ε : Type} (cause : ε → Failure) (change : Disk → Except ε Disk) : Action Unit := do
  match change (← get) with
  | .ok changed => set changed
  | .error error => throw (cause error)

end Action

namespace Command

/-- The folder of a project descriptor. -/
def folderOf (file : Path) : Path :=
  match file.parent? with
  | some folder => if folder.text.isEmpty then ⟨"."⟩ else folder
  | none => ⟨"."⟩

/-- The settings for a folder, unless a settings file is given. -/
def settingsIn (options : Options) (folder : Path) : Action Settings := do
  match options.settingsFile? with
  | some file => Action.consult .document fun disk => Settings.load disk file
  | none => return Settings.discover (← get) folder

/-- The settings for a project. -/
def settingsFor (options : Options) (file : Path) : Action Settings :=
  settingsIn options (folderOf file)

/-- A project with its paths seen from the folder of its descriptor. -/
def openProject (file : Path) : Action Project := do
  let project ← Action.consult .document fun disk => Project.load disk file
  return project.resolved (folderOf file)

/-- The classes of a project. -/
def scanClasses (project : Project) : Action Registry :=
  Action.consult (.scan project.name) fun disk => Scan.run disk project.artifactPaths

/-- The index of a project. -/
def scanIndex (project : Project) (settings : Settings) : Action ProjectIndex :=
  Action.consult (.scan project.name) fun disk =>
    Scan.analyze disk settings.scope project.artifactPaths

/-- The path by which a descriptor is listed. -/
def recentKey (disk : Disk) (file : Path) : Path :=
  (Path.absolute? (Disk.pathOf disk.workingFolder) file).getD file

/-- Changes the list of recent projects, if the settings name a file for it. If that fails, nothing
changes. -/
def updateRecent (settings : Settings) (change : Recent → Recent) (disk : Disk) : Disk :=
  match settings.recentFile? with
  | none => disk
  | some file =>
    match Recent.load disk file settings.recentLimit with
    | .error _ => disk
    | .ok recent =>
      match (change recent).save disk file with
      | .ok written => written
      | .error _ => disk

/-- Puts a project in front of the recent ones. -/
def remember (settings : Settings) (file : Path) : Action Unit :=
  modify fun disk => updateRecent settings (fun recent => recent.touch (recentKey disk file)) disk

/-- Leaves out a project from the recent ones. -/
def dismiss (settings : Settings) (file : Path) : Action Unit :=
  modify fun disk => updateRecent settings (fun recent => recent.forget (recentKey disk file)) disk

/-- Reads a project for editing. A project that can be read comes in front of the recent ones, and
one that cannot is left out from them. -/
def loadRemembered (settings : Settings) (file : Path) : Action Project := do
  match Project.load (← get) file with
  | .ok project =>
    remember settings file
    return project
  | .error error =>
    dismiss settings file
    throw (.document error)

/-- The text of a result, as a report or as JSON. -/
def present (options : Options) (colour : Bool) (report : Report) (document : Json) : String :=
  match options.format with
  | .text => report.render colour
  | .json => document.format options.compact ++ "\n"

/-- The metrics of a class of a project. -/
def measure (project : Project) (className : ClassName) : Action MetricsOutcome := do
  match SourceFile.locate? (← get) project.sourcePaths className with
  | none => return .sourceNotFound className
  | some source =>
    match ← Action.consult .source fun disk => Java.measureFile disk source with
    | some measured => return .found source measured
    | none => return .noClassDeclaration className source

/-- Edits a project descriptor and shows it. -/
def edit (options : Options) (colour : Bool) (file : Path) (change : Project → Project) :
    Action String := do
  let settings ← settingsFor options file
  let project ← loadRemembered settings file
  let changed := change project
  Action.alter .document fun disk => changed.save disk file
  return present options colour (Report.project changed) changed.toJson

/-- The list of recent projects and the file that holds it. -/
def openRecent (options : Options) : Action (Recent × Path) := do
  let settings ← settingsIn options ⟨"."⟩
  match settings.recentFile? with
  | none => throw .noRecentFile
  | some file =>
    let recent ← Action.consult .document fun disk => Recent.load disk file settings.recentLimit
    return (recent, file)

/-- Carries out a command and gives the text to be printed. -/
def perform (options : Options) (colour : Bool) : Command → Action String
  | .packages file selection => do
    let settings ← settingsFor options file
    let project ← openProject file
    let index ← scanIndex project settings
    let analysis := index.analyzePackages selection
    return present options colour (Report.packages analysis) analysis.toJson
  | .classes file selection => do
    let settings ← settingsFor options file
    let project ← openProject file
    let index ← scanIndex project settings
    let analysis := index.analyzeClasses selection
    return present options colour (Report.classes analysis) analysis.toJson
  | .metrics file className => do
    let project ← openProject file
    let outcome ← measure project className
    return present options colour (Report.metrics outcome) outcome.toJson
  | .exportClasses file output => do
    let _ ← settingsFor options file
    let project ← openProject file
    let registry ← scanClasses project
    Action.alter .registry fun disk => registry.save disk output
    return s!"Wrote {registry.size} classes to {output.text}.\n"
  | .newProject file name? force => do
    if (← get).contains file && !force then throw (.alreadyExists file)
    let name ←
      match name? <|> file.fileStem? with
      | some name => pure name
      | none => throw .noProjectName
    Action.alter .document fun disk => (Project.ofName name).save disk file
    let settings ← settingsFor options file
    remember settings file
    return s!"Created project '{name}' in {file.text}.\n"
  | .addPaths file artifacts sources =>
    edit options colour file fun project =>
      sources.foldl Project.addSource (artifacts.foldl Project.addArtifact project)
  | .removePaths file artifacts sources =>
    edit options colour file fun project =>
      sources.foldl Project.removeSource (artifacts.foldl Project.removeArtifact project)
  | .showProject file => do
    let settings ← settingsFor options file
    let project ← loadRemembered settings file
    return present options colour (Report.project project) project.toJson
  | .listRecent => do
    let (recent, _) ← openRecent options
    return present options colour (Report.recent recent) recent.toJson
  | .forgetRecent file => do
    let (recent, recentFile) ← openRecent options
    let remainder := recent.forget (recentKey (← get) file)
    if remainder.listed then
      Action.alter .document fun disk => remainder.save disk recentFile
      return s!"Forgot {file.text}.\n"
    else return s!"{file.text} is not in the recent list.\n"
  | .initSettings force => do
    let file : Path := ⟨Settings.fileName⟩
    if (← get).contains file && !force then throw (.alreadyExists file)
    Action.alter .settingsUnwritable fun disk => disk.writeText file Settings.defaultText
    return s!"Created {Settings.fileName} with default configuration.\n"

/-- Carries out a command on a disk. -/
def run (options : Options) (colour : Bool) (command : Command) (disk : Disk) : Outcome × Disk :=
  match (command.perform options colour).run disk with
  | (.ok output, after) => (⟨0, output, none⟩, after)
  | (.error failure, after) => (⟨2, "", some failure.explanation⟩, after)

end Command

/-- Carries out the command that the arguments name. -/
def Arguments.run (arguments : List String) (colour : Bool) (disk : Disk) : Outcome × Disk :=
  match Arguments.parse arguments with
  | .ok (options, command) => command.run options colour disk
  | .error .misuse => (⟨2, "", none⟩, disk)
  | .error .help => (⟨0, "", none⟩, disk)
  | .error .version => (⟨0, Arguments.version, none⟩, disk)

end Coupling
