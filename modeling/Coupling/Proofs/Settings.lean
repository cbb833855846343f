import Coupling.Settings
import Coupling.Proofs.Document

/-!
# Settings beside other documents

A project descriptor gives no settings, since no settings file starts with a brace.
So a descriptor that is written where a settings file is looked for can only take
away settings: what is found afterwards are the settings from before or the
defaults.
-/

namespace Coupling

theorem Toml.parse?_of_brace {text : String} {rest : List Char}
    (opened : text.toList = '\x7b' :: rest) : Toml.parse? text = none := by
  have noKey : ∀ fuel, readKeyParts? fuel ('\x7b' :: rest) = none := by
    intro fuel
    cases fuel <;> rfl
  have noLine : readLine? ('\x7b' :: rest) = none := by
    simp [readLine?, readKey?, noKey]
  have noLines : ∀ fuel, readLines? (fuel + 1) [] ('\x7b' :: rest) = none := by
    intro fuel
    simp [readLines?, dropLines?, noLine]
  simp [parse?, opened, noLines]

namespace Settings

theorem parse?_render (project : Project) : parse? project.render = none := by
  have opened : project.render.toList.head? = some '\x7b' := by
    simp [Project.render, Json.pretty, Project.toJson, Json.record, Json.prettyChars]
  rcases List.head?_eq_some_iff.mp opened with ⟨rest, opened⟩
  rw [parse?, Toml.parse?_of_brace opened]
  rfl

variable {disk : Disk} {path : Path} {location : Location} {text : String}

section Written

variable (targeted : disk.target path = .ok location) (useless : parse? text = none)

include targeted useless

theorem load_of_load_holding {file : Path} {settings : Settings}
    (loaded : load (disk.holding location (Utf8.encode text)) file = .ok settings) :
    load disk file = .ok settings := by
  rcases Disk.load_eq_ok_iff.mp loaded with ⟨found, read, parsed⟩
  by_cases written : disk.locate file = .ok location
  · rw [Disk.text?_holding_of_located targeted written] at read
    cases read
    simp [useless] at parsed
  · rw [Disk.text?_congr (Disk.node?_holding_of_apart targeted written)] at read
    exact Disk.load_eq_ok_iff.mpr ⟨found, read, parsed⟩

theorem searchFrom_holding (fuel : Nat) (folder : Path) :
    searchFrom (disk.holding location (Utf8.encode text)) fuel folder =
        searchFrom disk fuel folder ∨
      searchFrom (disk.holding location (Utf8.encode text)) fuel folder = default := by
  induction fuel generalizing folder with
  | zero => exact Or.inl rfl
  | succ fuel ih =>
      by_cases written : disk.locate (folder.join ⟨fileName⟩) = .ok location
      · right
        have present : (disk.holding location (Utf8.encode text)).node? (folder.join ⟨fileName⟩) =
            some (.file (Utf8.encode text)) := Disk.node?_holding_of_located targeted written
        have read : (load (disk.holding location (Utf8.encode text))
            (folder.join ⟨fileName⟩)).toOption = none := by
          rw [load, Disk.toOption_load, Disk.text?_holding_of_located targeted written]
          exact useless
        simp [searchFrom, Disk.contains, present, read]
      · have same : (disk.holding location (Utf8.encode text)).node? (folder.join ⟨fileName⟩) =
            disk.node? (folder.join ⟨fileName⟩) := Disk.node?_holding_of_apart targeted written
        have sameLoad : (load (disk.holding location (Utf8.encode text))
            (folder.join ⟨fileName⟩)).toOption = (load disk (folder.join ⟨fileName⟩)).toOption := by
          rw [load, load, Disk.toOption_load, Disk.toOption_load, Disk.text?_congr same]
        simp only [searchFrom, Disk.contains, same, sameLoad]
        by_cases present : (disk.node? (folder.join ⟨fileName⟩)).isSome
        · simp [present]
        · simp only [present, Bool.false_eq_true, ↓reduceIte]
          cases folder.parent? with
          | none => exact Or.inl rfl
          | some above => exact ih above

theorem discover_holding {folder : Path} (apart : disk.locate folder ≠ .ok location) :
    discover (disk.holding location (Utf8.encode text)) folder = discover disk folder ∨
      discover (disk.holding location (Utf8.encode text)) folder = default := by
  simp only [discover, Disk.resolve?_holding_of_apart targeted apart]
  exact searchFrom_holding targeted useless _ _

end Written

end Settings

end Coupling
