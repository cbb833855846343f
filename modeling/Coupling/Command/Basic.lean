import Coupling.Artifact.Scan
import Coupling.Java.Metrics
import Coupling.Settings

/-!
# Commands

What can be asked for on the command line, how it is answered, and why it may fail.
-/

namespace Coupling

/-- How a result is printed. -/
inductive OutputFormat where
  /-- As a report for people. -/
  | text
  | json
deriving DecidableEq, Repr

/-- What applies to all commands. -/
structure Options where
  /-- How results are printed. -/
  format : OutputFormat
  /-- JSON is printed on one line. -/
  compact : Bool
  /-- The settings file that is used instead of the nearest one. -/
  settingsFile? : Option Path
deriving DecidableEq, Repr

/-- The options where none are given. -/
def Options.default : Options := ⟨.text, false, none⟩

inductive Command where
  /-- Shows the package graph and its cycles. -/
  | packages (project : Path) (selection : List String)
  /-- Shows the class graph and its cycles. -/
  | classes (project : Path) (selection : List String)
  /-- Shows the metrics of a class. -/
  | metrics (project : Path) (className : ClassName)
  /-- Writes the classes of a project to a registry file. -/
  | exportClasses (project output : Path)
  /-- Makes a project descriptor. -/
  | newProject (file : Path) (name? : Option String) (force : Bool)
  /-- Adds paths to a project descriptor. -/
  | addPaths (file : Path) (artifacts sources : List Path)
  /-- Removes paths from a project descriptor. -/
  | removePaths (file : Path) (artifacts sources : List Path)
  /-- Shows a project descriptor. -/
  | showProject (file : Path)
  /-- Shows the recent projects. -/
  | listRecent
  /-- Removes a project from the recent ones. -/
  | forgetRecent (file : Path)
  /-- Makes a settings file. -/
  | initSettings (force : Bool)
deriving DecidableEq, Repr

/-- Why a command fails. -/
inductive Failure where
  /-- A kept document cannot be read, understood or written. -/
  | document (error : DocumentError)
  /-- The artifacts of a project cannot be scanned. -/
  | scan (projectName : String) (error : ScanError)
  /-- A registry file cannot be written. -/
  | registry (error : ScanError)
  /-- A source file cannot be read. -/
  | source (error : Java.SourceError)
  /-- The file to be made is there already. -/
  | alreadyExists (file : Path)
  /-- The file name gives no project name. -/
  | noProjectName
  /-- The settings name no file for the recent projects. -/
  | noRecentFile
  /-- The settings file cannot be written. -/
  | settingsUnwritable (fault : Fault)
deriving DecidableEq, Repr

/-- What failed and why, in words. -/
def Failure.explanation : Failure → String
  | .document error => error.explanation
  | .scan projectName error => s!"failed to scan project '{projectName}': {error.explanation}"
  | .registry error => error.explanation
  | .source error => error.explanation
  | .alreadyExists file => s!"{file.text} already exists. Use --force to overwrite."
  | .noProjectName => "cannot derive a project name; pass --name"
  | .noRecentFile =>
    s!"no recent-project list configured; set [recent] file in {Settings.fileName}"
  | .settingsUnwritable fault => s!"failed to write {Settings.fileName}: {fault.message}"

/-- What the program leaves behind: a code, what it printed, and an explanation if a command failed.
-/
structure Outcome where
  /-- The code that the program ends with. -/
  exitCode : Nat
  /-- What is printed. -/
  output : String
  /-- Why the command failed. -/
  explanation? : Option String
deriving DecidableEq, Repr

end Coupling
