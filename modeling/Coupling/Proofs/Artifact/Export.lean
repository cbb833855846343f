import Coupling.Artifact.Scan
import Coupling.Proofs.Disk
import Coupling.Proofs.Registry.Document

/-!
# Exporting a registry

A registry that was written to a file is read back from it unchanged, so the
classes of a class path can be analyzed from one exported file in place of the
artifacts that they were found in.
-/

namespace Coupling

variable {registry : Registry} {disk : Disk} {path : Path} {location : Location}

namespace Registry

/-- The disk after a registry was written to a location. -/
def exported (registry : Registry) (disk : Disk) (location : Location) : Disk :=
  disk.holding location (Utf8.encode registry.render)

theorem save_of_target (targeted : disk.target path = .ok location) :
    registry.save disk path = .ok (registry.exported disk location) := by
  have written : disk.writeText path registry.render = .ok (registry.exported disk location) :=
    Disk.write_eq_ok_iff.mpr ⟨location, targeted, rfl⟩
  rw [save, written]

theorem index_exported (targeted : disk.target path = .ok location) :
    Indexer.index (registry.exported disk location) .registry [path] = .ok registry := by
  have there : (registry.exported disk location).contains path := Disk.contains_holding targeted
  have read : Indexer.readRegistry (registry.exported disk location) path =
      .ok registry.classes := by
    rw [Indexer.readRegistry, exported, Disk.readText_holding targeted]
    simp only [parse?_render]
  simp [Indexer.index, Indexer.addArtifact, there, read, Except.map, insertMany_classes]

theorem run_exported (targeted : disk.target path = .ok location)
    (extension : path.extension? = some "json") :
    Scan.run (registry.exported disk location) [path] = .ok registry := by
  have there : (registry.exported disk location).contains path := Disk.contains_holding targeted
  have accepted : Scan.indexers.find? (·.accepts (registry.exported disk location) path) =
      some .registry := by
    simp [Scan.indexers, Indexer.accepts, extension]
  simp [Scan.run, Scan.addArtifact, there, accepted, index_exported targeted, Except.map,
    insertMany_classes]

/-- A registry can be written to every path where a file can be, and indexing that file gives the
registry back. If its name ends in `.json`, analyzing the file gives what analyzing the artifacts
gives that the classes were found in. -/
theorem exported_file_restores_registry (registry : Registry) (disk : Disk) (path : Path)
    (location : Location) (targeted : disk.target path = .ok location) :
    ∃ written, registry.save disk path = .ok written ∧
      Indexer.index written .registry [path] = .ok registry ∧
      (path.extension? = some "json" →
        ∀ artifacts scope, Scan.run disk artifacts = .ok registry →
          ∃ index, Scan.analyze disk scope artifacts = .ok index ∧
            Scan.analyze written scope [path] = .ok index) := by
  refine ⟨_, save_of_target targeted, index_exported targeted, ?_⟩
  intro extension artifacts scope scanned
  refine ⟨ProjectIndex.build scope registry, ?_, ?_⟩
  · rw [Scan.analyze, scanned]
    rfl
  · rw [Scan.analyze, run_exported targeted extension]
    rfl

/-- A disk with a registry file that lists a class with a quote, a backslash and a control character
in its name. -/
def awkwardDisk : Disk :=
  (Disk.empty ["work"]).put ["work", "in.json"] (.file (Utf8.encode
    "[\x7b\"name\": \"a.\\\"\\\\\\u0001\", \"package\": \"b\"\x7d]"))

theorem awkward_file_restores_registry :
    ∃ registry written, Scan.run awkwardDisk [⟨"in.json"⟩] = .ok registry ∧
      registry.contains "a.\"\\\x01" ∧
      registry.save awkwardDisk ⟨"out.json"⟩ = .ok written ∧
      Indexer.index written .registry [⟨"out.json"⟩] = .ok registry ∧
      ∃ index, Scan.analyze awkwardDisk .platform [⟨"in.json"⟩] = .ok index ∧
        Scan.analyze written .platform [⟨"out.json"⟩] = .ok index := by
  have found : ((Scan.run awkwardDisk [⟨"in.json"⟩]).map
      (·.contains "a.\"\\\x01")).toOption = some true := by
    decide +kernel
  have targeted : awkwardDisk.target ⟨"out.json"⟩ = .ok ["work", "out.json"] := by rfl
  cases scanned : Scan.run awkwardDisk [⟨"in.json"⟩] with
  | error _ => simp [scanned, Except.map, Except.toOption] at found
  | ok registry =>
      have held : registry.contains "a.\"\\\x01" := by
        simpa [scanned, Except.map, Except.toOption] using found
      rcases exported_file_restores_registry registry awkwardDisk ⟨"out.json"⟩ _ targeted with
        ⟨written, saved, indexed, analyzed⟩
      exact ⟨registry, written, rfl, held, saved, indexed,
        analyzed (by decide +kernel) _ _ scanned⟩

end Registry

end Coupling
