import Coupling.Project

/-!
# Recent projects

The descriptors that were opened lately, the latest first, up to a limit. Opening one that is listed
moves it to the front.
-/

namespace Coupling

/-- The projects opened lately. -/
structure Recent where
  /-- The descriptors, latest first. -/
  entries : List Path
  /-- The number of descriptors that are kept. -/
  limit : Nat
deriving DecidableEq, Repr

namespace Recent

/-- The number of descriptors that are kept unless the settings say otherwise. -/
def defaultLimit : Nat := 10

/-- The empty list with a limit. -/
def empty (limit : Nat) : Recent := ⟨[], limit⟩

instance : Inhabited Recent := ⟨empty defaultLimit⟩

/-- Puts a descriptor in front and drops what exceeds the limit. -/
def touch (recent : Recent) (path : Path) : Recent :=
  { recent with entries := (path :: Project.removePath recent.entries path).take recent.limit }

/-- A descriptor is listed. -/
def lists (recent : Recent) (path : Path) : Bool :=
  recent.entries.any (·.same path)

/-- What is left of a list without a descriptor. -/
structure Remainder extends Recent where
  /-- The descriptor was listed. -/
  listed : Bool

instance : Coe Remainder Recent := ⟨Remainder.toRecent⟩

/-- Leaves out a descriptor. It was listed if the list has become shorter. -/
def forget (recent : Recent) (path : Path) : Remainder :=
  let entries := Project.removePath recent.entries path
  { recent with entries, listed := entries.length != recent.entries.length }

/-- The list as a record. The limit is not written. -/
def toJson (recent : Recent) : Json :=
  .record [("entries", .texts (recent.entries.map Path.text))]

/-- The list that a record describes, with the default limit. -/
def ofJson? (document : Json) : Option Recent :=
  match document.fields? ["entries"] with
  | some [given] => (Project.pathsFrom? given).map fun entries => ⟨entries, defaultLimit⟩
  | _ => none

/-- The text of a list of recent projects. -/
def render (recent : Recent) : String :=
  recent.toJson.pretty

/-- The list that a text describes. -/
def parse? (text : String) : Option Recent :=
  (Json.parse? text).bind ofJson?

/-- Reads the list and cuts it to a limit. A file that is not there holds no entries. -/
def load (disk : Disk) (path : Path) (limit : Nat) : Except DocumentError Recent :=
  if disk.contains path then
    (disk.load .recent path parse?).map fun found => ⟨found.entries.take limit, limit⟩
  else
    .ok (empty limit)

/-- Writes the list. -/
def save (recent : Recent) (disk : Disk) (path : Path) : Except DocumentError Disk :=
  disk.save .recent path recent.render

end Recent

end Coupling
