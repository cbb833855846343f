import Coupling.Document
import Coupling.Recent
import Coupling.Scope
import Coupling.Toml.Parser

/-!
# Settings

The settings say which names belong to the platform and where the list of recent projects is kept.
They are read from a file that is given, or else from the nearest folder above a project that has a
settings file. What a settings file leaves out has a default, and keys that mean nothing are passed
over.
-/

namespace Coupling

structure Settings where
  /-- Which names belong to a project. -/
  scope : Scope
  /-- The file that holds the list of recent projects. -/
  recentFile? : Option Path
  /-- The number of recent projects that are kept. -/
  recentLimit : Nat
deriving DecidableEq, Repr

namespace Settings

/-- The settings where no file says otherwise. -/
def default : Settings := ⟨Scope.platform, none, Recent.defaultLimit⟩

instance : Inhabited Settings := ⟨default⟩

/-- The name of a settings file. -/
def fileName : String := ".tangle.toml"

/-- The text of a settings file that spells out the defaults. -/
def defaultText : String :=
  "# tangle - dependency cycle analysis configuration\n" ++
  "\n" ++
  "[scan]\n" ++
  "# Classes and packages starting with any of these prefixes are treated as\n" ++
  "# platform code and left out of every graph.\n" ++
  "excluded_prefixes = [\"java.\", \"javax.\", \"sun.\", \"com.sun.\"]\n" ++
  "\n" ++
  "[recent]\n" ++
  "# file = \"/home/me/.tangle-recent.json\"\n" ++
  "max_entries = 10\n"

open Toml (Value Entries)

/-- The least whole number that can be read at all. -/
def leastNumber : Int := -170141183460469231731687303715884105728

/-- The greatest whole number that can be read at all. -/
def greatestNumber : Int := 340282366920938463463374607431768211455

mutual

/-- Every whole number in a value is in the range that can be read at all. -/
def isReadable : Value → Bool
  | .integer value => decide (leastNumber ≤ value) && decide (value ≤ greatestNumber)
  | .array items => areReadable items
  | .table _ entries => entriesReadable entries
  | .tables items => tablesReadable items
  | .string _ | .float _ | .boolean _ | .dateTime _ => true
termination_by structural value => value

/-- All values of a list are readable. -/
def areReadable : List Value → Bool
  | [] => true
  | value :: rest => isReadable value && areReadable rest
termination_by structural values => values

/-- All values of a table are readable. -/
def entriesReadable : List (String × Value) → Bool
  | [] => true
  | (_, value) :: rest => isReadable value && entriesReadable rest
termination_by structural entries => entries

/-- All values of some tables are readable. -/
def tablesReadable : List (List (String × Value)) → Bool
  | [] => true
  | entries :: rest => entriesReadable entries && tablesReadable rest
termination_by structural items => items

end

/-- The values of the named fields of a table. Other keys are passed over, but must be readable. -/
def fieldsOfEntries? (names : List String) (entries : Entries) : Option (List (Option Value)) :=
  if entries.all fun entry => names.contains entry.1 || isReadable entry.2 then
    some (names.map entries.get?)
  else none

/-- The values of the named fields of a section. A section is a table, but may also be an array that
gives the fields in their order. -/
def fields? (names : List String) : Option Value → Option (List (Option Value))
  | none | some (.dateTime _) => some (names.map fun _ => none)
  | some (.table _ entries) => fieldsOfEntries? names entries
  | some (.array items) => some ((List.range names.length).map fun position => items[position]?)
  | some (.tables items) =>
    some ((List.range names.length).map fun position =>
      (items[position]?).map (Value.table .header))
  | some _ => none

/-- A string. -/
def asText? : Value → Option String
  | .string content => some content
  | _ => none

/-- The scope, whose beginnings of names may be left out. -/
def scopeFrom? : Option Value → Option Scope
  | none => some Scope.platform
  | some (.array items) => (items.mapM asText?).map Scope.mk
  | some _ => none

/-- The file of the recent projects, which may be left out. -/
def recentFileFrom? : Option Value → Option (Option Path)
  | none => some none
  | some given => (asText? given).map fun content => some ⟨content⟩

/-- The number of recent projects, which may be left out. -/
def recentLimitFrom? : Option Value → Option Nat
  | none => some Recent.defaultLimit
  | some (.integer (.ofNat value)) => if value < 18446744073709551616 then some value else none
  | some _ => none

/-- The settings that the text of a settings file gives. -/
def parse? (text : String) : Option Settings := do
  let document ← Toml.parse? text
  match ← fieldsOfEntries? ["scan", "recent"] document with
  | [scan, recent] =>
    match ← fields? ["excluded_prefixes"] scan, ← fields? ["file", "max_entries"] recent with
    | [excluded], [file, limit] =>
      return ⟨← scopeFrom? excluded, ← recentFileFrom? file, ← recentLimitFrom? limit⟩
    | _, _ => none
  | _ => none

/-- Reads a settings file. -/
def load (disk : Disk) (path : Path) : Except DocumentError Settings :=
  disk.load .settings path parse?

/-- Looks for a settings file in a folder and in the folders above it. The first file there is
counts, and if it cannot be used the settings are the defaults. A path has at most as many folders
above it as characters. -/
def searchFrom (disk : Disk) : (fuel : Nat) → Path → Settings
  | 0, _ => default
  | fuel + 1, folder =>
    if disk.contains (folder.join ⟨fileName⟩) then
      (load disk (folder.join ⟨fileName⟩)).toOption.getD default
    else
      match folder.parent? with
      | some above => searchFrom disk fuel above
      | none => default

/-- The settings for a folder. -/
def discover (disk : Disk) (folder : Path) : Settings :=
  let start := (disk.resolve? folder).getD folder
  searchFrom disk (start.text.length + 2) start

end Settings

end Coupling
