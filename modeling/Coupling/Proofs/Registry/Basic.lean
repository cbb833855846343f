import Coupling.Registry.Basic

/-!
# Lookups in class registries

A registry is determined by its lookups. Inserting never replaces a class, and
the classes of a registry are those that their own names lead to.
-/

namespace Coupling.Registry

variable {registry : Registry} {name : ClassName} {info : ClassInfo}

/-- Registries with the same lookups are the same. -/
theorem ext_get? {left right : Registry} (same : ∀ name, left.get? name = right.get? name) :
    left = right := by
  rcases left with ⟨leftNames, leftNamed⟩
  rcases right with ⟨rightNames, rightNamed⟩
  have : leftNames = rightNames := Std.ExtTreeMap.ext_getElem? fun name => same name
  subst this
  rfl

theorem classes_eq_map_toList (registry : Registry) :
    registry.classes = registry.byName.toList.map Prod.snd := by
  rcases registry with ⟨⟨⟨inner⟩⟩, named⟩
  induction inner using Quotient.inductionOn with
  | _ tree =>
      change tree.inner.values = (Std.DTreeMap.Internal.Impl.Const.toList tree.inner).map Prod.snd
      rw [Std.DTreeMap.Internal.Impl.values_eq_map_snd,
        Std.DTreeMap.Internal.Impl.Const.toList_eq_toListModel_map]
      simp

theorem mem_classes : info ∈ registry.classes ↔ registry.get? info.name = some info := by
  rw [classes_eq_map_toList, List.mem_map]
  constructor
  · rintro ⟨⟨name, found⟩, foundMem, rfl⟩
    rw [Std.ExtTreeMap.mem_toList_iff_getElem?_eq_some] at foundMem
    have nameEq : found.name = name := registry.named name found foundMem
    rw [get?, nameEq]
    exact foundMem
  · intro found
    exact ⟨(info.name, info), Std.ExtTreeMap.mem_toList_iff_getElem?_eq_some.mpr found, rfl⟩

theorem name_of_get? (found : registry.get? name = some info) : info.name = name :=
  registry.named name info found

theorem get?_empty : (∅ : Registry).get? name = none := by
  change (∅ : Std.ExtTreeMap ClassName ClassInfo)[name]? = none
  simp

/-- A class is found under its own name unless another one is there already. -/
theorem get?_insert :
    (registry.insert info).get? name =
      (registry.get? name).or (if info.name = name then some info else none) := by
  simp only [get?, insert, Std.ExtTreeMap.getElem?_insertIfNew, Std.compare_eq_iff_eq]
  by_cases same : info.name = name
  · subst same
    by_cases taken : info.name ∈ registry.byName
    · rw [if_neg (by simp [taken])]
      have found := Std.ExtTreeMap.mem_iff_isSome_getElem?.mp taken
      cases present : registry.byName[info.name]? with
      | none => simp [present] at found
      | some earlier => rfl
    · simp [taken]
  · simp [same]

theorem get?_insertMany (infos : List ClassInfo) :
    (registry.insertMany infos).get? name =
      (registry.get? name).or (infos.find? fun info => info.name = name) := by
  induction infos generalizing registry with
  | nil => simp [insertMany]
  | cons info rest ih =>
      have step : (registry.insertMany (info :: rest)).get? name =
          ((registry.insert info).insertMany rest).get? name := rfl
      rw [step, ih, get?_insert, Option.or_assoc, List.find?_cons]
      by_cases same : info.name = name <;> simp [same]

/-- Of classes with different names, each is found first. -/
theorem find?_classes (registry : Registry) (name : ClassName) :
    registry.classes.find? (fun info => info.name = name) = registry.get? name := by
  cases found : registry.get? name with
  | none =>
      rw [List.find?_eq_none]
      intro info infoMem same
      rw [mem_classes] at infoMem
      rw [decide_eq_true_eq] at same
      rw [same, found] at infoMem
      simp at infoMem
  | some info =>
      cases first : registry.classes.find? (fun info => info.name = name) with
      | none =>
          rw [List.find?_eq_none] at first
          have nameEq := name_of_get? found
          exact absurd (by simpa using nameEq) (first info (mem_classes.mpr (nameEq ▸ found)))
      | some other =>
          have otherMem := mem_classes.mp (List.mem_of_find?_eq_some first)
          have otherName : other.name = name := by simpa using List.find?_some first
          rw [otherName, found] at otherMem
          exact otherMem.symm

/-- Inserting the classes of a registry in their order makes the registry again. -/
theorem insertMany_classes (registry : Registry) :
    (∅ : Registry).insertMany registry.classes = registry := by
  apply ext_get?
  intro name
  rw [get?_insertMany, get?_empty, Option.none_or, find?_classes]

end Coupling.Registry
