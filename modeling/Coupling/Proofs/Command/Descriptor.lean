import Coupling.Command.Footprint
import Coupling.Proofs.Command.Action
import Coupling.Proofs.Document

/-!
# Project descriptors under failing commands

The commands that add paths to a project, remove paths from it or show it read
the settings and the descriptor before they write anything. Besides the
descriptor they write the list of recent projects only, and writing the descriptor
is their last step. So when they fail, the descriptor is as it was.

The command that makes a project writes the descriptor first and reads the
settings afterwards. If a settings file is given that cannot be read, the command
fails and the new descriptor stays.
-/

namespace Coupling

namespace Disk

/-- The two paths lead to the same location. -/
def SamePlace (disk : Disk) (first second : Path) : Prop :=
  ∃ location, disk.locate first = .ok location ∧ disk.locate second = .ok location

end Disk

namespace Command

open Coupling.Action

variable {options : Options} {colour : Bool} {file : Path} {disk : Disk} {settings : Settings}
  {change : Recent → Recent}

/-- Updating the list of recent projects writes its file or nothing. -/
theorem updateRecent_cases (settings : Settings) (change : Recent → Recent) (disk : Disk) :
    updateRecent settings change disk = disk ∨
      ∃ recentFile location content, settings.recentFile? = some recentFile ∧
        disk.target recentFile = .ok location ∧
        updateRecent settings change disk = disk.holding location content := by
  rw [updateRecent]
  split
  · exact Or.inl rfl
  · next recentFile configured =>
      split
      · exact Or.inl rfl
      · next recent loaded =>
          split
          · next written saved =>
              rcases Disk.save_eq_ok_iff.mp saved with ⟨location, targeted, rfl⟩
              exact Or.inr ⟨recentFile, location, _, configured, targeted, rfl⟩
          · exact Or.inl rfl

theorem node?_updateRecent
    (apart : ∀ recentFile ∈ settings.recentFile?, ¬disk.SamePlace recentFile file) :
    (updateRecent settings change disk).node? file = disk.node? file := by
  rcases updateRecent_cases settings change disk with
    same | ⟨recentFile, location, content, configured, targeted, written⟩
  · rw [same]
  · rw [written]
    apply Disk.node?_holding_of_apart targeted
    intro located
    exact apart recentFile configured ⟨location, Disk.locate_of_target targeted, located⟩

/-- Reading the settings changes nothing, and fails only if a settings file is given. -/
theorem ensures_settingsIn {folder : Path} {returns : Settings → Disk → Prop}
    {fails : Failure → Disk → Prop}
    (returned : ∀ settings, ((settingsIn options folder).run disk).1 = .ok settings →
      returns settings disk)
    (failed : ∀ given error, options.settingsFile? = some given →
      Settings.load disk given = .error error → fails (.document error) disk) :
    Ensures (settingsIn options folder) disk returns fails := by
  unfold settingsIn at returned ⊢
  cases chosen : options.settingsFile? with
  | none =>
      rw [chosen] at returned
      exact returned _ rfl
  | some given =>
      rw [chosen] at returned
      rw [ensures_consult]
      refine ⟨fun settings loaded => returned settings ?_, fun error => failed given error chosen⟩
      have ran : (consult Failure.document fun disk => Settings.load disk given).run disk =
          (.ok settings, disk) := by
        apply Ensures.run_eq
        rw [ensures_consult]
        simp [loaded]
      simp only [ran]

/-- Reading a project for editing writes at most the list of recent projects. -/
theorem ensures_loadRemembered (settings : Settings) (file : Path) (disk : Disk) :
    Ensures (loadRemembered settings file) disk
      (fun _ after => ∃ change, after = updateRecent settings change disk)
      (fun _ after => ∃ change, after = updateRecent settings change disk) := by
  rw [loadRemembered, ensures_bind, ensures_get]
  cases Project.load disk file with
  | ok project =>
      rw [ensures_bind, remember, ensures_modify, ensures_pure]
      exact ⟨_, rfl⟩
  | error error =>
      rw [ensures_bind, dismiss, ensures_modify, ensures_throw]
      exact ⟨_, rfl⟩

theorem knownSettings_eq {command : Command} (about : command.descriptor? = some file)
    (read : ((settingsFor options file).run disk).1 = .ok settings) :
    knownSettings options command disk = settings := by
  rw [settingsFor] at read
  simp only [knownSettings, about, Option.map_some, Option.getD_some, read]

/-- The command makes, changes or shows the project of the descriptor. -/
inductive ConcernsProject (file : Path) : Command → Prop where
  | make (name? : Option String) (force : Bool) :
      ConcernsProject file (.newProject file name? force)
  | extend (artifacts sources : List Path) :
      ConcernsProject file (.addPaths file artifacts sources)
  | reduce (artifacts sources : List Path) :
      ConcernsProject file (.removePaths file artifacts sources)
  | display : ConcernsProject file (.showProject file)

/-- The command made a project: it wrote the descriptor, and only then could not read the settings
file that is given. -/
structure WrittenBeforeSettings (options : Options) (command : Command) (file : Path)
    (before after : Disk) : Prop where
  isNew : ∃ name? force, command = .newProject file name? force
  written : ∃ name, (Project.ofName name).save before file = .ok after ∧
    after.node? file = some (.file (Utf8.encode (Project.ofName name).render))
  unread : ∃ given error, options.settingsFile? = some given ∧
    Settings.load after given = .error error

/-- Making a project is refused, or it ends at the settings or with the list of recent projects, and
the descriptor is written by then. -/
theorem newProject_cases {name? : Option String} {force : Bool} {returns : String → Disk → Prop}
    {fails : Failure → Disk → Prop} (refused : ∀ failure, fails failure disk)
    (unsettled : ∀ name written given error, (Project.ofName name).save disk file = .ok written →
      options.settingsFile? = some given → Settings.load written given = .error error →
      fails (.document error) written)
    (made : ∀ name written settings change output,
      (Project.ofName name).save disk file = .ok written →
      ((settingsFor options file).run written).1 = .ok settings →
      returns output (updateRecent settings change written)) :
    Ensures (perform options colour (.newProject file name? force)) disk returns fails := by
  rw [perform, ensures_bind, ensures_get]
  dsimp only
  by_cases present : (disk.contains file && !force) = true
  · rw [if_pos present, ensures_bind, ensures_throw]
    exact refused _
  rw [if_neg present]
  cases name? <|> file.fileStem? with
  | none =>
      rw [ensures_bind, ensures_throw]
      exact refused _
  | some name =>
      rw [ensures_bind, ensures_pure, ensures_bind, ensures_alter]
      refine ⟨fun written saved => ?_, fun _ _ => refused _⟩
      -- The settings are read from the disk that has the new descriptor already.
      rw [ensures_bind]
      apply ensures_settingsIn
      · intro settings read
        rw [ensures_bind, remember, ensures_modify, ensures_pure]
        exact made name written settings _ _ saved read
      · intro given error chosen failed
        exact unsettled name written given error saved chosen failed

theorem ensures_newProject (options : Options) (colour : Bool) (file : Path)
    (name? : Option String) (force : Bool) (disk : Disk) :
    Ensures (perform options colour (.newProject file name? force)) disk (fun _ _ => True)
      (fun _ after => after = disk ∨
        WrittenBeforeSettings options (.newProject file name? force) file disk after) := by
  apply newProject_cases
  · exact fun _ => Or.inl rfl
  · intro name written given error saved chosen failed
    rcases Disk.save_eq_ok_iff.mp saved with ⟨location, targeted, rfl⟩
    exact Or.inr ⟨⟨name?, force, rfl⟩, ⟨name, saved, Disk.node?_holding targeted⟩,
      given, error, chosen, failed⟩
  · exact fun _ _ _ _ _ _ _ => trivial

/-- Before a project is edited or shown, the list of recent projects is all that can change. -/
theorem afterLoading_cases {next : Project → Action String} {returns : String → Disk → Prop}
    {fails : Failure → Disk → Prop}
    (unsettled : ∀ given error, options.settingsFile? = some given →
      Settings.load disk given = .error error → fails (.document error) disk)
    (unread : ∀ settings change failure, ((settingsFor options file).run disk).1 = .ok settings →
      fails failure (updateRecent settings change disk))
    (continues : ∀ settings change project, ((settingsFor options file).run disk).1 = .ok settings →
      Ensures (next project) (updateRecent settings change disk) returns fails) :
    Ensures (settingsFor options file >>= fun settings => loadRemembered settings file >>= next)
      disk returns fails := by
  rw [ensures_bind]
  apply ensures_settingsIn
  · intro settings read
    rw [ensures_bind]
    apply (ensures_loadRemembered settings file disk).mono
    · rintro project _ ⟨change, rfl⟩
      exact continues settings change project read
    · rintro failure _ ⟨change, rfl⟩
      exact unread settings change failure read
  · exact unsettled

/-- What follows after a project was read decides alone about its descriptor. -/
theorem ensures_afterLoading {next : Project → Action String}
    (apart : ∀ settings, ((settingsFor options file).run disk).1 = .ok settings →
      ∀ recentFile ∈ settings.recentFile?, ¬disk.SamePlace recentFile file)
    (continues : ∀ project middle, Ensures (next project) middle (fun _ _ => True)
      (fun _ after => after.node? file = middle.node? file)) :
    Ensures (settingsFor options file >>= fun settings => loadRemembered settings file >>= next)
      disk (fun _ _ => True) (fun _ after => after.node? file = disk.node? file) := by
  apply afterLoading_cases
  · exact fun _ _ _ _ => rfl
  · intro settings change _ read
    exact node?_updateRecent (apart settings read)
  · intro settings change project read
    apply (continues project _).mono
    · exact fun _ _ => id
    · intro _ after kept
      exact kept.trans (node?_updateRecent (apart settings read))

/-- A command about a project fails with the descriptor as it was, or with one that it wrote before
it read the settings. -/
theorem ensures_perform {command : Command} (concerns : ConcernsProject file command)
    (apart : ∀ recentFile ∈ (knownSettings options command disk).recentFile?,
      ¬disk.SamePlace recentFile file) :
    Ensures (perform options colour command) disk (fun _ _ => True)
      (fun _ after => after.node? file = disk.node? file ∨
        WrittenBeforeSettings options command file disk after) := by
  have about : command.descriptor? = some file := by
    cases concerns <;> rfl
  have apartFrom : ∀ settings, ((settingsFor options file).run disk).1 = .ok settings →
      ∀ recentFile ∈ settings.recentFile?, ¬disk.SamePlace recentFile file := by
    intro settings read
    rwa [knownSettings_eq about read] at apart
  -- Writing the descriptor is the last step of an edit.
  have edited : ∀ change, Ensures (edit options colour file change) disk (fun _ _ => True)
      (fun _ after => after.node? file = disk.node? file) := by
    intro change
    apply ensures_afterLoading apartFrom
    intro project middle
    rw [ensures_bind, ensures_alter]
    exact ⟨fun _ _ => trivial, fun _ _ => rfl⟩
  cases concerns with
  | make name? force =>
      apply (ensures_newProject options colour file name? force disk).mono
      · exact fun _ _ => id
      · rintro _ after (rfl | written)
        · exact Or.inl rfl
        · exact Or.inr written
  | extend artifacts sources => exact (edited _).mono (fun _ _ => id) (fun _ _ => Or.inl)
  | reduce artifacts sources => exact (edited _).mono (fun _ _ => id) (fun _ _ => Or.inl)
  | display =>
      apply (ensures_afterLoading apartFrom fun _ _ => ?_).mono (fun _ _ => id) (fun _ _ => Or.inl)
      trivial

theorem fails_of_exitCode {command : Command} {fails : Failure → Disk → Prop}
    (ensured : Ensures (command.perform options colour) disk (fun _ _ => True) fails)
    (failed : (command.run options colour disk).1.exitCode = 2) :
    ∃ failure, fails failure (command.run options colour disk).2 := by
  revert ensured failed
  unfold Ensures Command.run
  rcases (command.perform options colour).run disk with ⟨failure | output, after⟩
  · exact fun ensured _ => ⟨failure, ensured⟩
  · simp

/-- When a command about a project fails, its descriptor is as it was, unless the command made the
project and could not read the given settings file after the descriptor had been written. The list
of recent projects must be another file. Arguments that are no command change nothing. -/
theorem failed_project_command_keeps_descriptor (arguments : List String) (colour : Bool)
    (disk : Disk) (failed : (Arguments.run arguments colour disk).1.exitCode = 2) :
    (∀ stop, Arguments.parse arguments = .error stop →
      (Arguments.run arguments colour disk).2 = disk) ∧
    ∀ options command file, Arguments.parse arguments = .ok (options, command) →
      ConcernsProject file command →
      (∀ recentFile ∈ (knownSettings options command disk).recentFile?,
        ¬disk.SamePlace recentFile file) →
      (Arguments.run arguments colour disk).2.node? file = disk.node? file ∨
        WrittenBeforeSettings options command file disk
          (Arguments.run arguments colour disk).2 := by
  constructor
  · intro stop refused
    rw [Arguments.run, refused]
    cases stop <;> rfl
  · intro options command file parsed concerns apart
    rw [Arguments.run, parsed] at failed ⊢
    rcases fails_of_exitCode (ensures_perform concerns apart) failed with ⟨_, outcome⟩
    exact outcome

/-- A disk with a descriptor that is no project and settings that name a list of recent projects. -/
def garbledDisk : Disk :=
  ((Disk.empty ["work"]).put ["work", ".tangle.toml"]
    (.file (Utf8.encode "[recent]\nfile = \"r.json\"\n"))).put ["work", "p.json"]
      (.file (Utf8.encode "?"))

/-- An addition to the garbled descriptor fails. It writes the list of recent projects, but not the
descriptor. -/
theorem failed_addition_keeps_descriptor :
    Arguments.parse ["project", "add", "p.json"] = .ok (.default, .addPaths ⟨"p.json"⟩ [] []) ∧
    (knownSettings .default (.addPaths ⟨"p.json"⟩ [] []) garbledDisk).recentFile? =
      some ⟨"r.json"⟩ ∧
    (Arguments.run ["project", "add", "p.json"] false garbledDisk).1.exitCode = 2 ∧
    (Arguments.run ["project", "add", "p.json"] false garbledDisk).2.contains ⟨"r.json"⟩ ∧
    (Arguments.run ["project", "add", "p.json"] false garbledDisk).2.node? ⟨"p.json"⟩ =
      garbledDisk.node? ⟨"p.json"⟩ := by
  have parsed : Arguments.parse ["project", "add", "p.json"] =
      .ok (.default, .addPaths ⟨"p.json"⟩ [] []) := by rfl
  have configured : (knownSettings .default (.addPaths ⟨"p.json"⟩ [] [])
      garbledDisk).recentFile? = some ⟨"r.json"⟩ := by decide +kernel
  have failed : (Arguments.run ["project", "add", "p.json"] false garbledDisk).1.exitCode = 2 := by
    decide +kernel
  have apart : ¬garbledDisk.SamePlace ⟨"r.json"⟩ ⟨"p.json"⟩ := by
    have recentPlace : garbledDisk.locate ⟨"r.json"⟩ = .ok ["work", "r.json"] := by rfl
    have descriptorPlace : garbledDisk.locate ⟨"p.json"⟩ = .ok ["work", "p.json"] := by rfl
    rintro ⟨location, first, second⟩
    rw [recentPlace] at first
    rw [descriptorPlace] at second
    cases first
    simp at second
  refine ⟨parsed, configured, failed, by decide +kernel, ?_⟩
  rcases (failed_project_command_keeps_descriptor _ _ _ failed).2 _ _ _ parsed (.extend [] [])
    (by simpa [configured] using apart) with kept | written
  · exact kept
  · rcases written.isNew with ⟨_, _, isNew⟩
    cases isNew

/-- A disk with nothing but a file that gives no settings. -/
def unsettledDisk : Disk :=
  (Disk.empty ["work"]).put ["work", "bad.toml"] (.file (Utf8.encode "[scan\n"))

/-- A command that makes a project fails because of its settings file, but the descriptor that was
not there before is there afterwards. -/
theorem failed_new_project_is_written :
    Arguments.parse ["project", "new", "p.json", "--config", "bad.toml"] =
      .ok (⟨.text, false, some ⟨"bad.toml"⟩⟩, .newProject ⟨"p.json"⟩ none false) ∧
    (∀ recentFile ∈ (knownSettings ⟨.text, false, some ⟨"bad.toml"⟩⟩
        (.newProject ⟨"p.json"⟩ none false) unsettledDisk).recentFile?,
      ¬unsettledDisk.SamePlace recentFile ⟨"p.json"⟩) ∧
    (Arguments.run ["project", "new", "p.json", "--config", "bad.toml"] false
      unsettledDisk).1.exitCode = 2 ∧
    unsettledDisk.node? ⟨"p.json"⟩ = none ∧
    (Arguments.run ["project", "new", "p.json", "--config", "bad.toml"] false
      unsettledDisk).2.node? ⟨"p.json"⟩ =
        some (.file (Utf8.encode (Project.ofName "p").render)) := by
  have unconfigured : (knownSettings ⟨.text, false, some ⟨"bad.toml"⟩⟩
      (.newProject ⟨"p.json"⟩ none false) unsettledDisk).recentFile? = none := by decide +kernel
  refine ⟨by rfl, ?_, by decide +kernel, by decide +kernel, by decide +kernel⟩
  simp [unconfigured]

end Command

end Coupling
