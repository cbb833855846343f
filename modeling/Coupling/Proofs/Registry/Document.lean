import Coupling.Proofs.Json.RoundTrip
import Coupling.Proofs.Name
import Coupling.Proofs.Registry.Basic
import Coupling.Registry.Document

/-!
# Registry files

The text of a registry lists exactly its classes, each with its name, its
package and its dependencies.
-/

namespace Coupling

namespace ClassInfo

variable (info : ClassInfo)

theorem textual_toJson : info.toJson.Textual := by
  apply Json.Textual.record
  simp only [List.forall_mem_cons, List.not_mem_nil, false_implies, implies_true, and_true]
  exact ⟨.text info.name, .text info.package, .texts info.dependencies.toList⟩

theorem fields?_toJson :
    info.toJson.fields? ["name", "package", "dependencies"] =
      some [some (.text info.name), some (.text info.package),
        some (.texts info.dependencies.toList)] := by
  rfl

theorem ofJson?_toJson : ofJson? info.toJson = some info := by
  rw [ofJson?, fields?_toJson]
  simp [Json.text, Json.asText?, packageFrom?, dependenciesFrom?, Json.asTexts?_texts,
    NameSet.ofList_toList]

end ClassInfo

namespace Registry

/-- The text of a registry lists the classes of the registry. -/
theorem parse?_render (registry : Registry) : parse? registry.render = some registry.classes := by
  have textual : registry.toJson.Textual := by
    refine .array fun item itemMem => ?_
    rcases List.mem_map.mp itemMem with ⟨info, _, rfl⟩
    exact info.textual_toJson
  rw [parse?, render, textual.parse?_pretty, Option.bind_some, toJson, classesOfJson?]
  exact mapM_map_of_undone fun info _ => info.ofJson?_toJson

end Registry

end Coupling
