import Coupling.Project
import Coupling.Proofs.Document
import Coupling.Proofs.Json.RoundTrip

/-!
# Project descriptors

A project is read back from its text: its name and its paths as they were
written, in their order.
-/

namespace Coupling.Project

theorem pathsFrom?_texts (paths : List Path) :
    pathsFrom? (some (.texts (paths.map Path.text))) = some paths := by
  simp [pathsFrom?, Json.asTexts?_texts, Function.comp_def]

variable (project : Project)

theorem textual_toJson : project.toJson.Textual := by
  apply Json.Textual.record
  simp only [List.forall_mem_cons, List.not_mem_nil, false_implies, implies_true, and_true]
  exact ⟨.text project.name, .texts _, .texts _⟩

theorem fields?_toJson :
    project.toJson.fields? ["name", "artifact_paths", "source_paths"] =
      some [some (.text project.name), some (.texts (project.artifactPaths.map Path.text)),
        some (.texts (project.sourcePaths.map Path.text))] := by
  rfl

theorem parse?_render : parse? project.render = some project := by
  rw [parse?, render, project.textual_toJson.parse?_pretty, Option.bind_some, ofJson?,
    fields?_toJson]
  simp [Json.text, Json.asText?, pathsFrom?_texts]

variable {project} {disk written : Disk} {path : Path}

theorem load_of_save (saved : project.save disk path = .ok written) :
    load written path = .ok project :=
  Disk.load_of_save saved project.parse?_render

end Coupling.Project
