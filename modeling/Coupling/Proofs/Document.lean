import Coupling.Document
import Coupling.Proofs.Disk

/-!
# Reading and writing kept documents

Whether a document can be read, and what it says, depends only on what its path
leads to. A document that was saved is read back from the text that was saved.
-/

namespace Coupling.Disk

variable {disk other : Disk} {path : Path} {location : Location} {text : String}

theorem save_eq_ok_iff {document : Document} {written : Disk} :
    disk.save document path text = .ok written ↔
      ∃ location, disk.target path = .ok location ∧
        disk.holding location (Utf8.encode text) = written := by
  rw [← write_eq_ok_iff, ← writeText, save]
  cases disk.writeText path text with
  | error fault => simp
  | ok saved => simp

/-- The text of the file that a path leads to. -/
def text? (disk : Disk) (path : Path) : Option String :=
  match disk.node? path with
  | some (.file content) => Utf8.decode? content
  | _ => none

theorem toOption_readText : (disk.readText path).toOption = disk.text? path := by
  rw [readText, read, text?, node?]
  cases disk.locate path with
  | error fault => rfl
  | ok place =>
      simp only [bind, Except.bind]
      cases disk.at? place with
      | none => rfl
      | some node =>
          cases node with
          | folder => rfl
          | file content => cases decoded : Utf8.decode? content <;> simp [Except.toOption, decoded]

/-- What is made of a document, failures left aside. -/
theorem toOption_load {α : Type} {document : Document} {parse? : String → Option α} :
    (disk.load document path parse?).toOption = (disk.text? path).bind parse? := by
  rw [← toOption_readText, load]
  cases disk.readText path with
  | error fault => rfl
  | ok text => cases parsed : parse? text <;> simp [Except.toOption, parsed]

theorem load_eq_ok_iff {α : Type} {document : Document} {parse? : String → Option α} {value : α} :
    disk.load document path parse? = .ok value ↔
      ∃ text, disk.text? path = some text ∧ parse? text = some value := by
  rw [← Option.bind_eq_some_iff, ← toOption_load]
  cases disk.load document path parse? <;> simp [Except.toOption]

theorem text?_congr (same : disk.node? path = other.node? path) :
    disk.text? path = other.text? path := by
  rw [text?, text?, same]

theorem text?_holding_of_located {file : Path} (targeted : disk.target path = .ok location)
    (located : disk.locate file = .ok location) :
    (disk.holding location (Utf8.encode text)).text? file = some text := by
  rw [text?, node?_holding_of_located targeted located]
  exact Utf8.decode?_encode text

theorem exists_save {document : Document} (targeted : disk.target path = .ok location)
    (text : String) : ∃ written, disk.save document path text = .ok written :=
  ⟨_, save_eq_ok_iff.mpr ⟨location, targeted, rfl⟩⟩

theorem load_of_save {α : Type} {document : Document} {parse? : String → Option α} {value : α}
    {written : Disk} (saved : disk.save document path text = .ok written)
    (parsed : parse? text = some value) : written.load document path parse? = .ok value := by
  rcases save_eq_ok_iff.mp saved with ⟨location, targeted, rfl⟩
  have held : (disk.holding location (Utf8.encode text)).text? path = some text :=
    text?_holding_of_located targeted (locate_of_target targeted)
  exact load_eq_ok_iff.mpr ⟨text, held, parsed⟩

end Coupling.Disk
