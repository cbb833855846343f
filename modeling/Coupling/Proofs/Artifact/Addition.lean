import Coupling.Artifact.Indexer
import Coupling.Proofs.Registry.Basic

/-!
# Adding artifacts to a registry

What an artifact adds, and whether it fails, does not depend on the registry that
it is added to. So an artifact can as well be indexed by itself and merged behind
what is there already.
-/

namespace Coupling

namespace Registry

variable {ε α : Type}

theorem get?_insertMany_classes (registry found : Registry) (name : ClassName) :
    (registry.insertMany found.classes).get? name = (registry.get? name).or (found.get? name) := by
  rw [get?_insertMany, find?_classes]

theorem insertMany_append (registry : Registry) (first second : List ClassInfo) :
    registry.insertMany (first ++ second) = (registry.insertMany first).insertMany second :=
  List.foldl_append

/-- Every registry gets the same classes, or the same failure. -/
def IsUniform (add : Registry → Except ε Registry) : Prop :=
  ∃ added : Except ε (List ClassInfo), ∀ registry, add registry = added.map registry.insertMany

namespace IsUniform

theorem fail (error : ε) : IsUniform fun _ => (.error error : Except ε Registry) :=
  ⟨.error error, fun _ => rfl⟩

theorem keep : IsUniform fun registry => (.ok registry : Except ε Registry) :=
  ⟨.ok [], fun _ => rfl⟩

theorem insert (info : ClassInfo) :
    IsUniform fun registry => (.ok (registry.insert info) : Except ε Registry) :=
  ⟨.ok [info], fun _ => rfl⟩

theorem bind {first second : Registry → Except ε Registry} (firstUniform : IsUniform first)
    (secondUniform : IsUniform second) : IsUniform fun registry => first registry >>= second := by
  rcases firstUniform with ⟨error | firstAdded, firstAdds⟩
  · refine ⟨.error error, fun registry => ?_⟩
    simp only [firstAdds]
    rfl
  rcases secondUniform with ⟨error | secondAdded, secondAdds⟩
  · refine ⟨.error error, fun registry => ?_⟩
    simp only [firstAdds]
    exact secondAdds _
  · refine ⟨.ok (firstAdded ++ secondAdded), fun registry => ?_⟩
    simp only [firstAdds, Except.map, insertMany_append]
    exact secondAdds _

theorem foldlM {add : Registry → α → Except ε Registry} (each : ∀ item, IsUniform (add · item))
    (items : List α) : IsUniform (items.foldlM add ·) := by
  induction items with
  | nil => exact keep
  | cons item rest ih =>
      simp only [List.foldlM_cons]
      exact (each item).bind ih

/-- Adding to a registry is adding to the empty one and merging behind what is there. -/
theorem eq_map_empty {add : Registry → Except ε Registry} (uniform : IsUniform add)
    (registry : Registry) :
    add registry = (add ∅).map fun found => registry.insertMany found.classes := by
  rcases uniform with ⟨error | added, adds⟩
  · simp only [adds, Except.map]
  · simp only [adds, Except.map, Except.ok.injEq]
    apply ext_get?
    intro name
    rw [get?_insertMany_classes, get?_insertMany, get?_insertMany, get?_empty, Option.none_or]

end IsUniform

end Registry

namespace Indexer

open Registry (IsUniform)

theorem isUniform_addClassFile (path : Path) (data : List UInt8) :
    IsUniform (addClassFile · path data) := by
  unfold addClassFile
  cases ClassFile.parse data with
  | error fault => exact .fail _
  | ok file =>
      dsimp only
      cases file.isModule with
      | true => exact .keep
      | false => exact .insert _

theorem isUniform_addFile (disk : Disk) (path : Path) : IsUniform (addFile disk · path) := by
  unfold addFile
  cases disk.read path with
  | error fault => exact .fail _
  | ok data => exact isUniform_addClassFile path data

theorem isUniform_addEntry (archive : Path) (data : List UInt8) (entry : Archive.Entry) :
    IsUniform (addEntry archive data · entry) := by
  unfold addEntry
  cases entry.open? data with
  | none => exact .fail _
  | some compressed =>
      dsimp only
      cases isClassEntry entry with
      | false => exact .keep
      | true =>
          cases entry.expand compressed with
          | error fault => exact .fail _
          | ok content => exact isUniform_addClassFile _ content

theorem isUniform_addArchive (disk : Disk) (path : Path) : IsUniform (addArchive disk · path) := by
  unfold addArchive
  cases disk.read path with
  | error fault => exact .fail _
  | ok data =>
      dsimp only
      cases Archive.entries? data with
      | none => exact .fail _
      | some entries => exact .foldlM (isUniform_addEntry path data) entries

theorem isUniform_addBelow (disk : Disk) (entry : Path × Node) :
    IsUniform (addBelow disk · entry) := by
  rcases entry with ⟨path, content | _⟩
  · simp only [addBelow]
    cases hasExtension path "class" with
    | false => exact .keep
    | true => exact isUniform_addFile disk path
  · simp only [addBelow]
    cases disk.openFolder path with
    | error fault => exact .fail _
    | ok opened => exact .keep

theorem isUniform_addFolder (disk : Disk) (path : Path) : IsUniform (addFolder disk · path) := by
  unfold addFolder
  exact .foldlM (isUniform_addBelow disk) _

/-- What an artifact adds does not depend on the classes that were found before. -/
theorem isUniform_addArtifact (disk : Disk) (indexer : Indexer) (path : Path) :
    IsUniform (addArtifact disk indexer · path) := by
  unfold addArtifact
  cases disk.contains path with
  | false => exact .fail _
  | true =>
      cases indexer with
      | registry => exact ⟨readRegistry disk path, fun _ => rfl⟩
      | classes =>
          cases disk.isFolder path with
          | true => exact isUniform_addFolder disk path
          | false =>
              cases isArchive path with
              | true => exact isUniform_addArchive disk path
              | false => exact isUniform_addFile disk path

theorem index_singleton (disk : Disk) (indexer : Indexer) (path : Path) :
    indexer.index disk [path] = indexer.addArtifact disk ∅ path := by
  rw [index, List.foldlM_cons]
  simp

end Indexer

end Coupling
