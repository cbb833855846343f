import Coupling.Disk

/-!
# Kept documents

Three kinds of documents are kept between runs: project descriptors, the list of recent projects,
and the settings. Each can fail to be read, to make sense, or to be written.
-/

namespace Coupling

/-- A kind of kept document. -/
inductive Document where
  /-- A project descriptor. -/
  | project
  /-- The list of recent projects. -/
  | recent
  | settings
deriving DecidableEq, Repr

/-- What went wrong with a document. -/
inductive DocumentError where
  /-- The file cannot be read. -/
  | unreadable (document : Document) (path : Path) (fault : Fault)
  /-- The text of the file is no such document. -/
  | invalid (document : Document) (path : Path)
  /-- The file cannot be written. -/
  | unwritable (document : Document) (path : Path) (fault : Fault)
deriving DecidableEq, Repr

namespace DocumentError

/-- The document that could not be read or written, in words. -/
def label : Document → String
  | .project => "project file"
  | .recent => "recent projects"
  | .settings => "config file"

/-- What failed, in words. -/
def message : DocumentError → String
  | .unreadable document path _ => s!"failed to read {label document} '{path.text}'"
  | .invalid .settings path =>
    s!"failed to parse '{path.text}'. Run `tangle init` to create a valid config file"
  | .invalid document path => s!"failed to parse {label document} '{path.text}'"
  | .unwritable document path _ => s!"failed to write {label document} '{path.text}'"

/-- What failed and why, in words. -/
def explanation (error : DocumentError) : String :=
  match error with
  | .unreadable _ _ fault | .unwritable _ _ fault => error.message ++ ": " ++ fault.message
  | .invalid _ _ => error.message

end DocumentError

namespace Disk

/-- Reads a document and makes sense of its text. -/
def load {α : Type} (disk : Disk) (document : Document) (path : Path)
    (parse? : String → Option α) : Except DocumentError α :=
  match disk.readText path with
  | .error fault => .error (.unreadable document path fault)
  | .ok text =>
    match parse? text with
    | some value => .ok value
    | none => .error (.invalid document path)

/-- Writes the text of a document. -/
def save (disk : Disk) (document : Document) (path : Path) (text : String) :
    Except DocumentError Disk :=
  match disk.writeText path text with
  | .ok written => .ok written
  | .error fault => .error (.unwritable document path fault)

end Disk

end Coupling
