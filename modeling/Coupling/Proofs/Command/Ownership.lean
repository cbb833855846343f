import Coupling.Proofs.Command.Descriptor
import Coupling.Proofs.Settings

/-!
# The files that commands own

Every command changes at most the files that it owns, whatever its arguments, the
disk and its outcome. Analyses and the listing of recent projects own no file, an
export owns its output, and the commands about a project own its descriptor and the
list of recent projects that the settings name.

The command that makes a project reads the settings after it has written the
descriptor, which may stand where a settings file is looked for. It still owns no
more than the list that was configured before, since a descriptor gives no
settings.
-/

namespace Coupling

namespace Disk

variable {disk before middle after : Disk} {paths : List Path}

/-- Nothing differs but the files that the paths lead to. -/
structure ChangesAtMost (before : Disk) (paths : List Path) (after : Disk) : Prop where
  workingFolder_eq : after.workingFolder = before.workingFolder
  folder_iff : ∀ location,
    after.at? location = some .folder ↔ before.at? location = some .folder
  elsewhere : ∀ location, (∀ path ∈ paths, before.locate path ≠ .ok location) →
    after.nodes[location]? = before.nodes[location]?

namespace ChangesAtMost

protected theorem refl (disk : Disk) (paths : List Path) : disk.ChangesAtMost paths disk :=
  ⟨rfl, fun _ => Iff.rfl, fun _ _ => rfl⟩

theorem mono {more : List Path} (changes : before.ChangesAtMost paths after)
    (included : paths ⊆ more) : before.ChangesAtMost more after where
  workingFolder_eq := changes.workingFolder_eq
  folder_iff := changes.folder_iff
  elsewhere := by
    intro location apart
    apply changes.elsewhere
    intro path pathMem
    exact apart path (included pathMem)

theorem locate_iff (changes : before.ChangesAtMost paths after) {path : Path}
    {location : Location} :
    after.locate path = .ok location ↔ before.locate path = .ok location :=
  locate_eq_ok_iff_of_folders changes.workingFolder_eq changes.folder_iff

theorem trans (first : before.ChangesAtMost paths middle)
    (second : middle.ChangesAtMost paths after) : before.ChangesAtMost paths after where
  workingFolder_eq := second.workingFolder_eq.trans first.workingFolder_eq
  folder_iff := fun location => (second.folder_iff location).trans (first.folder_iff location)
  elsewhere := by
    intro location apart
    have apartLater : ∀ path ∈ paths, middle.locate path ≠ .ok location := by
      intro path pathMem located
      exact apart path pathMem (first.locate_iff.mp located)
    exact (second.elsewhere location apartLater).trans (first.elsewhere location apart)

end ChangesAtMost

theorem changesAtMost_holding {path : Path} {location : Location} {content : List UInt8}
    (targeted : disk.target path = .ok location) :
    disk.ChangesAtMost [path] (disk.holding location content) where
  workingFolder_eq := rfl
  folder_iff := fun _ => at?_holding_eq_folder_iff targeted
  elsewhere := by
    intro place apart
    have different : location ≠ place := by
      rintro rfl
      exact apart path List.mem_cons_self (locate_of_target targeted)
    simp [holding, Std.ExtTreeMap.getElem?_insert, different]

end Disk

namespace Command

open Coupling.Action

variable {options : Options} {colour : Bool} {file : Path} {disk : Disk} {settings : Settings}
  {location : Location}

theorem segments_folderOf {front : List String} {name : String}
    (segments_eq : file.segments = front ++ [name]) (moves : Path.isIdle name = false) :
    Path.solid (folderOf file).segments = Path.solid front ∧
      (folderOf file).isAbsolute = file.isAbsolute := by
  rcases Path.parent?_of_segments segments_eq moves with ⟨parent, above, same, absolute⟩
  by_cases unnamed : parent.text.isEmpty
  · -- The single dot that stands for it leads no further than the empty path.
    have folder_eq : folderOf file = ⟨"."⟩ := by
      simp [folderOf, above, unnamed]
    obtain rfl : parent = ⟨""⟩ := by
      cases parent
      simpa using unnamed
    rw [folder_eq]
    exact ⟨same, absolute⟩
  · have folder_eq : folderOf file = parent := by
      simp [folderOf, above, unnamed]
    rw [folder_eq]
    exact ⟨same, absolute⟩

theorem locate_folderOf_ne (targeted : disk.target file = .ok location) :
    disk.locate (folderOf file) ≠ .ok location := by
  intro located
  rcases Disk.target_cases targeted with
    ⟨_, front, name, folder, segments_eq, followed, entered, moves, _, _, free⟩
  rcases segments_folderOf segments_eq moves with ⟨same, absolute⟩
  rcases bind_eq_ok_iff.mp located with ⟨_, _, reached⟩
  have start : disk.startOf (folderOf file) = disk.startOf file := by
    simp only [Disk.startOf, absolute]
  have place_eq : location = folder := by
    rw [← Disk.walk_of_follow reached, ← Disk.walk_of_follow followed, start, Disk.walk, Disk.walk,
      same]
  exact free (place_eq ▸ entered)

theorem load_of_settingsIn {folder given : Path} (chosen : options.settingsFile? = some given)
    (read : ((settingsIn options folder).run disk).1 = .ok settings) :
    Settings.load disk given = .ok settings := by
  rw [settingsIn, chosen] at read
  exact run_consult_eq_ok_iff.mp read

/-- A descriptor that was just written leaves the settings as they were, or hides them. -/
theorem settingsFor_holding {project : Project} (targeted : disk.target file = .ok location)
    (read : ((settingsFor options file).run
      (disk.holding location (Utf8.encode project.render))).1 = .ok settings) :
    settings = .default ∨ ((settingsFor options file).run disk).1 = .ok settings := by
  have useless := Settings.parse?_render project
  cases chosen : options.settingsFile? with
  | none =>
      simp only [settingsFor, settingsIn, chosen] at read ⊢
      obtain rfl : Settings.discover _ (folderOf file) = settings := Except.ok.inj read
      have apart := locate_folderOf_ne targeted
      rcases Settings.discover_holding targeted useless apart with same | hidden
      · exact Or.inr (congrArg Except.ok same.symm)
      · exact Or.inl hidden
  | some given =>
      right
      have loaded := Settings.load_of_load_holding targeted useless (load_of_settingsIn chosen read)
      rw [settingsFor, settingsIn, chosen]
      exact run_consult_eq_ok_iff.mpr loaded

theorem readsOnly_settingsIn (options : Options) (folder : Path) :
    ReadsOnly (settingsIn options folder) := by
  rw [settingsIn]
  cases options.settingsFile? with
  | none => exact .bind .get fun _ => .pure _
  | some given => exact .consult _ _

theorem readsOnly_openProject (file : Path) : ReadsOnly (openProject file) :=
  .bind (.consult _ _) fun _ => .pure _

theorem readsOnly_measure (project : Project) (className : ClassName) :
    ReadsOnly (measure project className) := by
  refine .bind .get fun disk => ?_
  split
  · exact .pure _
  · refine .bind (.consult _ _) fun measured? => ?_
    split
    · exact .pure _
    · exact .pure _

theorem readsOnly_openRecent (options : Options) : ReadsOnly (openRecent options) := by
  refine .bind (readsOnly_settingsIn options _) fun settings => ?_
  split
  · exact .throw _
  · exact .bind (.consult _ _) fun _ => .pure _

section Analyses

variable (options : Options) (colour : Bool)

/-- What is made of the index of a project is made without a change. -/
theorem readsOnly_fromIndex (file : Path) (make : ProjectIndex → String) :
    ReadsOnly (do
      let settings ← settingsFor options file
      let project ← openProject file
      let index ← scanIndex project settings
      return make index) :=
  .bind (readsOnly_settingsIn options _) fun _ =>
    .bind (readsOnly_openProject file) fun _ => .bind (.consult _ _) fun _ => .pure _

theorem readsOnly_packages (file : Path) (selection : List String) :
    ReadsOnly (perform options colour (.packages file selection)) :=
  readsOnly_fromIndex options file _

theorem readsOnly_classes (file : Path) (selection : List String) :
    ReadsOnly (perform options colour (.classes file selection)) :=
  readsOnly_fromIndex options file _

theorem readsOnly_metrics (file : Path) (className : ClassName) :
    ReadsOnly (perform options colour (.metrics file className)) :=
  .bind (readsOnly_openProject file) fun project =>
    .bind (readsOnly_measure project className) fun _ => .pure _

theorem readsOnly_listRecent : ReadsOnly (perform options colour .listRecent) :=
  .bind (readsOnly_openRecent options) fun _ => .pure _

end Analyses

/-- The files that a command may change. -/
def ownFiles (options : Options) (disk : Disk) (command : Command) : List Path :=
  let recentFiles := (knownSettings options command disk).recentFile?.toList
  match command with
  | .packages _ _ | .classes _ _ | .metrics _ _ | .listRecent => []
  | .exportClasses _ output => [output]
  | .showProject _ | .forgetRecent _ => recentFiles
  | .newProject file _ _ | .addPaths file _ _ | .removePaths file _ _ => file :: recentFiles
  | .initSettings _ => [⟨Settings.fileName⟩]

/-- The command changes nothing on the disk, even though it may own files. -/
inductive WritesNothing (options : Options) (disk : Disk) : Command → Prop where
  | packages (file : Path) (selection : List String) :
      WritesNothing options disk (.packages file selection)
  | classes (file : Path) (selection : List String) :
      WritesNothing options disk (.classes file selection)
  | metrics (file : Path) (className : ClassName) :
      WritesNothing options disk (.metrics file className)
  | listRecent : WritesNothing options disk .listRecent
  | unsettledExport {file output given : Path} {error : DocumentError}
      (chosen : options.settingsFile? = some given)
      (failed : Settings.load disk given = .error error) :
      WritesNothing options disk (.exportClasses file output)
  | unreadExport {file output : Path} {error : DocumentError}
      (failed : Project.load disk file = .error error) :
      WritesNothing options disk (.exportClasses file output)
  | unscannedExport {file output : Path} {project : Project} {error : ScanError}
      (loaded : Project.load disk file = .ok project)
      (failed : Scan.run disk (project.resolved (folderOf file)).artifactPaths = .error error) :
      WritesNothing options disk (.exportClasses file output)
  | settled (present : disk.contains ⟨Settings.fileName⟩) :
      WritesNothing options disk (.initSettings false)

theorem changesAtMost_updateRecent (settings : Settings) (change : Recent → Recent) (disk : Disk) :
    disk.ChangesAtMost settings.recentFile?.toList (updateRecent settings change disk) := by
  rcases updateRecent_cases settings change disk with
    same | ⟨recentFile, location, content, configured, targeted, written⟩
  · rw [same]
    exact .refl disk _
  · rw [written, configured]
    exact Disk.changesAtMost_holding targeted

theorem changesAtMost_save {project : Project} {written : Disk}
    (saved : project.save disk file = .ok written) : disk.ChangesAtMost [file] written := by
  rcases Disk.save_eq_ok_iff.mp saved with ⟨location, targeted, rfl⟩
  exact Disk.changesAtMost_holding targeted

theorem changesAtMost_export {registry : Registry} {output : Path} {written : Disk}
    (saved : registry.save disk output = .ok written) : disk.ChangesAtMost [output] written := by
  rw [Registry.save] at saved
  split at saved
  · next done =>
      cases saved
      rcases Disk.write_eq_ok_iff.mp done with ⟨location, targeted, rfl⟩
      exact Disk.changesAtMost_holding targeted
  · cases saved

theorem recentFile_subset_ownFiles {command : Command} (concerns : ConcernsProject file command)
    (read : ((settingsFor options file).run disk).1 = .ok settings) :
    settings.recentFile?.toList ⊆ ownFiles options disk command := by
  have about : command.descriptor? = some file := by cases concerns <;> rfl
  have known := knownSettings_eq about read
  cases concerns <;> simp [ownFiles, known]

theorem changes_newProject (options : Options) (colour : Bool) (file : Path)
    (name? : Option String) (force : Bool) (disk : Disk) :
    disk.ChangesAtMost (ownFiles options disk (.newProject file name? force))
      ((perform options colour (.newProject file name? force)).run disk).2 := by
  apply ensures_disk_iff.mp
  apply newProject_cases
  · exact fun _ => .refl disk _
  · intro name written given error saved _ _
    exact (changesAtMost_save saved).mono (by simp [ownFiles])
  · intro name written settings change output saved read
    have configured : settings.recentFile?.toList ⊆
        ownFiles options disk (.newProject file name? force) := by
      rcases Disk.save_eq_ok_iff.mp saved with ⟨location, targeted, rfl⟩
      rcases settingsFor_holding targeted read with rfl | readBefore
      · simp [Settings.default]
      · exact recentFile_subset_ownFiles (.make name? force) readBefore
    have described : [file] ⊆ ownFiles options disk (.newProject file name? force) := by
      simp [ownFiles]
    exact ((changesAtMost_save saved).mono described).trans
      ((changesAtMost_updateRecent settings change written).mono configured)

theorem changes_afterLoading {next : Project → Action String} {paths : List Path}
    (configured : ∀ settings, ((settingsFor options file).run disk).1 = .ok settings →
      settings.recentFile?.toList ⊆ paths)
    (continues : ∀ project (middle : Disk),
      middle.ChangesAtMost paths ((next project).run middle).2) :
    disk.ChangesAtMost paths ((settingsFor options file >>= fun settings =>
      loadRemembered settings file >>= next).run disk).2 := by
  apply ensures_disk_iff.mp
  apply afterLoading_cases
  · exact fun _ _ _ _ => .refl disk _
  · intro settings change _ read
    exact (changesAtMost_updateRecent settings change disk).mono (configured settings read)
  · intro settings change project read
    apply ensures_disk_iff.mpr
    exact ((changesAtMost_updateRecent settings change disk).mono (configured settings read)).trans
      (continues project _)

theorem changes_edit {paths : List Path} (change : Project → Project)
    (configured : ∀ settings, ((settingsFor options file).run disk).1 = .ok settings →
      settings.recentFile?.toList ⊆ paths) (described : [file] ⊆ paths) :
    disk.ChangesAtMost paths ((edit options colour file change).run disk).2 := by
  apply changes_afterLoading configured
  intro project middle
  apply ensures_disk_iff.mp
  rw [ensures_bind, ensures_alter]
  constructor
  · intro written saved
    exact (changesAtMost_save saved).mono described
  · exact fun _ _ => .refl middle paths

theorem ensures_openRecent (options : Options) (disk : Disk) :
    Ensures (openRecent options) disk
      (fun opened after => after = disk ∧ ∃ settings,
        ((settingsIn options ⟨"."⟩).run disk).1 = .ok settings ∧
          settings.recentFile? = some opened.2)
      (fun _ after => after = disk) := by
  rw [openRecent, ensures_bind]
  apply ensures_settingsIn
  · intro settings read
    split
    · rfl
    · next recentFile configured =>
        rw [ensures_bind, ensures_consult]
        exact ⟨fun recent _ => ⟨rfl, settings, read, configured⟩, fun _ _ => rfl⟩
  · exact fun _ _ _ _ => rfl

theorem changes_forgetRecent (options : Options) (colour : Bool) (file : Path) (disk : Disk) :
    disk.ChangesAtMost (ownFiles options disk (.forgetRecent file))
      ((perform options colour (.forgetRecent file)).run disk).2 := by
  apply ensures_disk_iff.mp
  rw [perform, ensures_bind]
  apply (ensures_openRecent options disk).mono
  · rintro ⟨recent, recentFile⟩ after ⟨rfl, settings, read, configured⟩
    have known : knownSettings options (.forgetRecent file) after = settings := by
      simp only [knownSettings, descriptor?, Option.map_none, Option.getD_none, read]
    rw [ownFiles, known, configured]
    dsimp only
    rw [ensures_bind, ensures_get]
    split
    · rw [ensures_bind, ensures_alter]
      constructor
      · intro written saved
        rcases Disk.save_eq_ok_iff.mp saved with ⟨location, targeted, rfl⟩
        exact Disk.changesAtMost_holding targeted
      · exact fun _ _ => .refl after _
    · exact .refl after _
  · rintro _ after rfl
    exact .refl after _

/-- Making a settings file changes nothing unless it succeeds, which it does not if one is there
that need not be replaced. -/
theorem ensures_initSettings (options : Options) (colour : Bool) (force : Bool) (disk : Disk) :
    Ensures (perform options colour (.initSettings force)) disk
      (fun _ after => disk.ChangesAtMost [⟨Settings.fileName⟩] after ∧
        (disk.contains ⟨Settings.fileName⟩ && !force) = false)
      (fun _ after => after = disk) := by
  rw [perform, ensures_bind, ensures_get]
  dsimp only
  by_cases present : (disk.contains ⟨Settings.fileName⟩ && !force) = true
  · rw [if_pos present, ensures_bind, ensures_throw]
  rw [if_neg present, ensures_bind, ensures_alter]
  constructor
  · intro written saved
    rcases Disk.write_eq_ok_iff.mp saved with ⟨location, targeted, rfl⟩
    exact ⟨Disk.changesAtMost_holding targeted, by simpa using present⟩
  · exact fun _ _ => rfl

/-- The settings, the project and its classes can be read. -/
structure Exportable (options : Options) (disk : Disk) (file : Path) : Prop where
  settled : ∀ given error, options.settingsFile? = some given →
    Settings.load disk given ≠ .error error
  scanned : ∃ project registry, Project.load disk file = .ok project ∧
    Scan.run disk (project.resolved (folderOf file)).artifactPaths = .ok registry

/-- An export changes nothing unless it succeeds, for which it must get to its classes. -/
theorem ensures_exportClasses (options : Options) (colour : Bool) (file output : Path)
    (disk : Disk) :
    Ensures (perform options colour (.exportClasses file output)) disk
      (fun _ after => disk.ChangesAtMost [output] after ∧ Exportable options disk file)
      (fun _ after => after = disk) := by
  rw [perform, ensures_bind]
  apply ensures_settingsIn
  · intro settings read
    rw [ensures_bind, openProject, ensures_bind, ensures_consult]
    refine ⟨fun project loaded => ?_, fun _ _ => rfl⟩
    rw [ensures_pure, ensures_bind, scanClasses, ensures_consult]
    refine ⟨fun registry scanned => ?_, fun _ _ => rfl⟩
    rw [ensures_bind, ensures_alter]
    refine ⟨fun written saved => ?_, fun _ _ => rfl⟩
    refine ⟨changesAtMost_export saved, ?_, project, registry, loaded, scanned⟩
    intro given error chosen failed
    simp [load_of_settingsIn chosen read] at failed
  · exact fun _ _ _ _ => rfl

/-- Whatever its outcome, a command that writes nothing leaves the disk as it was. -/
theorem WritesNothing.run_perform {command : Command}
    (nothing : WritesNothing options disk command) :
    ((perform options colour command).run disk).2 = disk := by
  have ensured : Ensures (perform options colour command) disk (fun _ after => after = disk)
      (fun _ after => after = disk) := by
    cases nothing with
    | packages file selection =>
        exact ensures_disk_iff.mpr (readsOnly_packages options colour file selection disk)
    | classes file selection =>
        exact ensures_disk_iff.mpr (readsOnly_classes options colour file selection disk)
    | metrics file className =>
        exact ensures_disk_iff.mpr (readsOnly_metrics options colour file className disk)
    | listRecent => exact ensures_disk_iff.mpr (readsOnly_listRecent options colour disk)
    | @unsettledExport file output given error chosen failed =>
        apply (ensures_exportClasses options colour file output disk).mono
        · rintro _ _ ⟨_, exportable⟩
          exact absurd failed (exportable.settled given error chosen)
        · exact fun _ _ => id
    | @unreadExport file output error failed =>
        apply (ensures_exportClasses options colour file output disk).mono
        · rintro _ _ ⟨_, exportable⟩
          rcases exportable.scanned with ⟨project, registry, loaded, _⟩
          simp [loaded] at failed
        · exact fun _ _ => id
    | @unscannedExport file output project error loaded failed =>
        apply (ensures_exportClasses options colour file output disk).mono
        · rintro _ _ ⟨_, exportable⟩
          rcases exportable.scanned with ⟨found, registry, foundLoaded, scanned⟩
          obtain rfl : found = project := by simpa [foundLoaded] using loaded
          simp [scanned] at failed
        · exact fun _ _ => id
    | settled present =>
        apply (ensures_initSettings options colour false disk).mono
        · rintro _ _ ⟨_, absent⟩
          simp [present] at absent
        · exact fun _ _ => id
  exact ensures_disk_iff.mp ensured

/-- Whatever its outcome, a command changes at most its own files. -/
theorem changesAtMost_perform (options : Options) (colour : Bool) (disk : Disk)
    (command : Command) :
    disk.ChangesAtMost (ownFiles options disk command)
      ((perform options colour command).run disk).2 := by
  cases command with
  | packages file selection =>
      rw [readsOnly_packages options colour file selection disk]
      exact .refl disk _
  | classes file selection =>
      rw [readsOnly_classes options colour file selection disk]
      exact .refl disk _
  | metrics file className =>
      rw [readsOnly_metrics options colour file className disk]
      exact .refl disk _
  | exportClasses file output =>
      apply ensures_disk_iff.mp
      apply (ensures_exportClasses options colour file output disk).mono
      · exact fun _ _ changes => changes.1
      · rintro _ after rfl
        exact .refl after _
  | newProject file name? force => exact changes_newProject options colour file name? force disk
  | addPaths file artifacts sources =>
      apply changes_edit
      · exact fun _ => recentFile_subset_ownFiles (.extend artifacts sources)
      · simp [ownFiles]
  | removePaths file artifacts sources =>
      apply changes_edit
      · exact fun _ => recentFile_subset_ownFiles (.reduce artifacts sources)
      · simp [ownFiles]
  | showProject file =>
      apply changes_afterLoading
      · exact fun _ => recentFile_subset_ownFiles .display
      · exact fun _ middle => .refl middle _
  | listRecent =>
      rw [readsOnly_listRecent options colour disk]
      exact .refl disk _
  | forgetRecent file => exact changes_forgetRecent options colour file disk
  | initSettings force =>
      apply ensures_disk_iff.mp
      apply (ensures_initSettings options colour force disk).mono
      · exact fun _ _ changes => changes.1
      · rintro _ after rfl
        exact .refl after _

/-- Whatever the arguments, the disk and the outcome, no file changes but those that the command
owns. Where the command writes nothing, or where the arguments are no command, nothing changes at
all. -/
theorem commands_change_only_own_files (arguments : List String) (colour : Bool) (disk : Disk) :
    (∀ stop, Arguments.parse arguments = .error stop →
      (Arguments.run arguments colour disk).2 = disk) ∧
    ∀ options command, Arguments.parse arguments = .ok (options, command) →
      disk.ChangesAtMost (ownFiles options disk command) (Arguments.run arguments colour disk).2 ∧
      (WritesNothing options disk command → (Arguments.run arguments colour disk).2 = disk) := by
  constructor
  · intro stop refused
    rw [Arguments.run, refused]
    cases stop <;> rfl
  · intro options command parsed
    have ran : (Arguments.run arguments colour disk).2 =
        ((perform options colour command).run disk).2 := by
      rw [Arguments.run, parsed]
      dsimp only [Command.run]
      split <;> simp_all
    rw [ran]
    exact ⟨changesAtMost_perform options colour disk command, WritesNothing.run_perform⟩

/-- On the disk with the garbled descriptor, showing the project changes the list of recent projects
and nothing else, and an export changes nothing. -/
theorem garbled_project_changes_only_recent_list :
    Arguments.parse ["project", "show", "p.json"] = .ok (.default, .showProject ⟨"p.json"⟩) ∧
    ownFiles .default garbledDisk (.showProject ⟨"p.json"⟩) = [⟨"r.json"⟩] ∧
    garbledDisk.ChangesAtMost [⟨"r.json"⟩]
      (Arguments.run ["project", "show", "p.json"] false garbledDisk).2 ∧
    garbledDisk.contains ⟨"r.json"⟩ = false ∧
    (Arguments.run ["project", "show", "p.json"] false garbledDisk).2.contains ⟨"r.json"⟩ ∧
    Arguments.parse ["export", "p.json", "out.json"] =
      .ok (.default, .exportClasses ⟨"p.json"⟩ ⟨"out.json"⟩) ∧
    (Arguments.run ["export", "p.json", "out.json"] false garbledDisk).2 = garbledDisk := by
  have shows : Arguments.parse ["project", "show", "p.json"] =
      .ok (.default, .showProject ⟨"p.json"⟩) := by rfl
  have exports : Arguments.parse ["export", "p.json", "out.json"] =
      .ok (.default, .exportClasses ⟨"p.json"⟩ ⟨"out.json"⟩) := by rfl
  have owned : ownFiles .default garbledDisk (.showProject ⟨"p.json"⟩) = [⟨"r.json"⟩] := by
    decide +kernel
  have unread : Project.load garbledDisk ⟨"p.json"⟩ = .error (.invalid .project ⟨"p.json"⟩) := by
    rfl
  have shown := ((commands_change_only_own_files _ false garbledDisk).2 _ _ shows).1
  have exported := ((commands_change_only_own_files _ false garbledDisk).2 _ _ exports).2
  rw [owned] at shown
  exact ⟨shows, owned, shown, by decide +kernel, by decide +kernel, exports,
    exported (.unreadExport unread)⟩

end Command

end Coupling
