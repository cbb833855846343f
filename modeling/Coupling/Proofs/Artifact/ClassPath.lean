import Coupling.Artifact.Scan
import Coupling.Proofs.Artifact.Addition

/-!
# Class paths as left-biased merges

There are two ways to the classes of several artifacts. A scan indexes each
artifact by itself and merges what it finds behind what is there already. An
indexer adds artifact after artifact to one registry. Both agree, because what an
artifact adds does not depend on the registry that it is added to.

So a scan fails with the first artifact that fails by itself, and otherwise finds
each class in the first artifact that defines it.
-/

namespace Coupling

/-- The item is the first one of a list that has a property. -/
def IsFirst {α : Type} (holds : α → Prop) (list : List α) (item : α) : Prop :=
  ∃ earlier later, list = earlier ++ item :: later ∧ holds item ∧ ∀ other ∈ earlier, ¬holds other

theorem not_isFirst_nil {α : Type} {holds : α → Prop} {item : α} : ¬IsFirst holds [] item := by
  rintro ⟨earlier, later, split, _⟩
  simp at split

theorem isFirst_cons {α : Type} {holds : α → Prop} {head item : α} {rest : List α} :
    IsFirst holds (head :: rest) item ↔
      (holds head ∧ item = head) ∨ (¬holds head ∧ IsFirst holds rest item) := by
  constructor
  · rintro ⟨earlier, later, split, itemHolds, earlierFail⟩
    rcases List.cons_eq_append_iff.mp split with ⟨rfl, same⟩ | ⟨others, rfl, rest⟩
    · cases same
      exact Or.inl ⟨itemHolds, rfl⟩
    · rw [List.forall_mem_cons] at earlierFail
      exact Or.inr ⟨earlierFail.1, others, later, rest, itemHolds, earlierFail.2⟩
  · rintro (⟨headHolds, rfl⟩ | ⟨headFails, earlier, later, rfl, itemHolds, earlierFail⟩)
    · exact ⟨[], rest, rfl, headHolds, by simp⟩
    · exact ⟨head :: earlier, later, rfl, itemHolds,
        List.forall_mem_cons.mpr ⟨headFails, earlierFail⟩⟩

theorem exists_isFirst_iff {α : Type} {holds : α → Prop} {list : List α} :
    (∃ item, IsFirst holds list item) ↔ ∃ item ∈ list, holds item := by
  induction list with
  | nil => simp [not_isFirst_nil]
  | cons head rest ih =>
      by_cases headHolds : holds head
      · simp [isFirst_cons, headHolds]
      · simp [isFirst_cons, headHolds, ih]

namespace Scan

variable {disk : Disk} {path : Path} {paths : List Path} {name : ClassName}
  {outcome : Except ScanError Registry}

/-- What one artifact of a class path gives by itself. Registry files are asked for first. -/
inductive Yields (disk : Disk) (path : Path) : Except ScanError Registry → Prop where
  | missing (absent : disk.contains path = false) : Yields disk path (.error (.missing path))
  | unsupported (there : disk.contains path = true)
      (refused : ∀ indexer : Indexer, indexer.accepts disk path = false) :
      Yields disk path (.error (.unsupported path))
  | registry (there : disk.contains path = true)
      (accepted : Indexer.registry.accepts disk path = true) :
      Yields disk path (Indexer.registry.index disk [path])
  | classes (there : disk.contains path = true)
      (passed : Indexer.registry.accepts disk path = false)
      (accepted : Indexer.classes.accepts disk path = true) :
      Yields disk path (Indexer.classes.index disk [path])

/-- The artifact is missing, of no kind that can be indexed, or cannot be indexed. -/
def Fails (disk : Disk) (path : Path) : Prop :=
  ∃ error, Yields disk path (.error error)

/-- The artifact by itself has a class of the name. -/
def Defines (disk : Disk) (name : ClassName) (path : Path) : Prop :=
  ∃ found info, Yields disk path (.ok found) ∧ found.get? name = some info

theorem Yields.addArtifact_eq (yields : Yields disk path outcome) (registry : Registry) :
    addArtifact disk registry path =
      outcome.map fun found => registry.insertMany found.classes := by
  cases yields with
  | missing absent => simp [addArtifact, absent, Except.map]
  | unsupported there refused => simp [addArtifact, there, indexers, refused, Except.map]
  | registry there accepted => simp [addArtifact, there, indexers, accepted]
  | classes there passed accepted => simp [addArtifact, there, indexers, passed, accepted]

theorem exists_yields (disk : Disk) (path : Path) : ∃ outcome, Yields disk path outcome := by
  cases there : disk.contains path with
  | false => exact ⟨_, .missing there⟩
  | true =>
      cases first : Indexer.registry.accepts disk path with
      | true => exact ⟨_, .registry there first⟩
      | false =>
          cases second : Indexer.classes.accepts disk path with
          | true => exact ⟨_, .classes there first second⟩
          | false =>
              refine ⟨_, .unsupported there fun indexer => ?_⟩
              cases indexer with
              | registry => exact first
              | classes => exact second

theorem Yields.unique {other : Except ScanError Registry} (yields : Yields disk path outcome)
    (otherYields : Yields disk path other) : outcome = other := by
  have same := (yields.addArtifact_eq ∅).symm.trans (otherYields.addArtifact_eq ∅)
  have mergedIntoEmpty : ∀ result : Except ScanError Registry,
      result.map (fun found => (∅ : Registry).insertMany found.classes) = result := by
    intro result
    cases result with
    | error error => rfl
    | ok found => simp only [Except.map, Registry.insertMany_classes]
  rwa [mergedIntoEmpty, mergedIntoEmpty] at same

/-- The first artifact of a class path that defines the name has this class of it. -/
def FirstDefines (disk : Disk) (paths : List Path) (name : ClassName) (info : ClassInfo) : Prop :=
  ∃ path, IsFirst (Defines disk name) paths path ∧
    ∃ found, Yields disk path (.ok found) ∧ found.get? name = some info

theorem Yields.not_fails {found : Registry} (yields : Yields disk path (.ok found)) :
    ¬Fails disk path := by
  rintro ⟨error, failed⟩
  cases yields.unique failed

theorem Yields.firstDefines_cons {found : Registry} {rest : List Path} {info : ClassInfo}
    (yields : Yields disk path (.ok found)) :
    FirstDefines disk (path :: rest) name info ↔
      found.get? name = some info ∨
        (found.get? name = none ∧ FirstDefines disk rest name info) := by
  have defines_iff : Defines disk name path ↔ ∃ info, found.get? name = some info := by
    constructor
    · rintro ⟨other, info, otherYields, defined⟩
      cases yields.unique otherYields
      exact ⟨info, defined⟩
    · rintro ⟨info, defined⟩
      exact ⟨found, info, yields, defined⟩
  simp only [FirstDefines, isFirst_cons, defines_iff]
  constructor
  · rintro ⟨first, ⟨_, rfl⟩ | ⟨undefined, isFirst⟩, defining⟩
    · rcases defining with ⟨other, otherYields, defined⟩
      cases yields.unique otherYields
      exact Or.inl defined
    · exact Or.inr ⟨by simpa [Option.eq_none_iff_forall_ne_some] using undefined, first, isFirst,
        defining⟩
  · rintro (defined | ⟨undefined, first, isFirst, defining⟩)
    · exact ⟨path, Or.inl ⟨⟨info, defined⟩, rfl⟩, found, yields, defined⟩
    · exact ⟨first, Or.inr ⟨by simp [undefined], isFirst⟩, defining⟩

/-- A scan fails with the first artifact that fails by itself, whatever was found before. -/
theorem foldlM_addArtifact_eq_error_iff {error : ScanError} (paths : List Path)
    (registry : Registry) :
    paths.foldlM (addArtifact disk) registry = .error error ↔
      ∃ path, IsFirst (Fails disk) paths path ∧ Yields disk path (.error error) := by
  induction paths generalizing registry with
  | nil => simp [not_isFirst_nil, pure, Except.pure]
  | cons path rest ih =>
      rcases exists_yields disk path with ⟨outcome, yields⟩
      simp only [List.foldlM_cons, yields.addArtifact_eq, isFirst_cons]
      cases outcome with
      | error first =>
          have failed : Fails disk path := ⟨first, yields⟩
          constructor
          · rintro ⟨⟩
            exact ⟨path, Or.inl ⟨failed, rfl⟩, yields⟩
          · rintro ⟨other, ⟨_, rfl⟩ | ⟨passed, _⟩, otherYields⟩
            · cases yields.unique otherYields
              rfl
            · exact absurd failed passed
      | ok found =>
          -- What was found decides nothing about the artifacts that follow.
          refine (ih _).trans ?_
          simp [yields.not_fails]

/-- A scan that succeeds adds the classes of the first artifacts that define them. -/
theorem get?_of_foldlM_addArtifact {result : Registry} {info : ClassInfo} (paths : List Path)
    (registry : Registry) (scanned : paths.foldlM (addArtifact disk) registry = .ok result) :
    result.get? name = some info ↔
      registry.get? name = some info ∨
        (registry.get? name = none ∧ FirstDefines disk paths name info) := by
  induction paths generalizing registry with
  | nil =>
      cases scanned
      simp [FirstDefines, not_isFirst_nil]
  | cons path rest ih =>
      rcases exists_yields disk path with ⟨outcome, yields⟩
      rw [List.foldlM_cons, yields.addArtifact_eq] at scanned
      cases outcome with
      | error error => cases scanned
      | ok found =>
          rw [ih _ scanned, Registry.get?_insertMany_classes, yields.firstDefines_cons]
          cases registry.get? name with
          | some earlier => simp
          | none => simp

theorem run_fails_iff :
    (∃ error, run disk paths = .error error) ↔ ∃ path ∈ paths, Fails disk path := by
  simp only [run, foldlM_addArtifact_eq_error_iff]
  rw [← exists_isFirst_iff]
  constructor
  · rintro ⟨_, path, isFirst, _⟩
    exact ⟨path, isFirst⟩
  · rintro ⟨path, isFirst⟩
    have ⟨_, _, _, ⟨error, yields⟩, _⟩ := isFirst
    exact ⟨error, path, isFirst, yields⟩

theorem run_eq_ok_iff {registry : Registry} :
    run disk paths = .ok registry ↔
      (∀ path ∈ paths, ¬Fails disk path) ∧
        ∀ name info, registry.get? name = some info ↔ FirstDefines disk paths name info := by
  have lookups : ∀ result, run disk paths = .ok result →
      ∀ name info, result.get? name = some info ↔ FirstDefines disk paths name info := by
    intro result scanned name info
    rw [get?_of_foldlM_addArtifact paths ∅ scanned, Registry.get?_empty]
    simp
  constructor
  · intro scanned
    refine ⟨?_, lookups registry scanned⟩
    intro path pathMem failed
    rcases run_fails_iff.mpr ⟨path, pathMem, failed⟩ with ⟨error, failedRun⟩
    rw [scanned] at failedRun
    cases failedRun
  · rintro ⟨noneFails, found⟩
    cases scanned : run disk paths with
    | error error =>
        rcases run_fails_iff.mp ⟨error, scanned⟩ with ⟨path, pathMem, failed⟩
        exact absurd failed (noneFails path pathMem)
    | ok result =>
        congr 1
        apply Registry.ext_get?
        intro name
        apply Option.ext
        intro info
        rw [lookups result scanned, found]

/-- A scan of artifacts of one kind adds them one after the other as the indexer does. -/
theorem run_eq_index {indexer : Indexer}
    (chosen : ∀ path ∈ paths, indexers.find? (·.accepts disk path) = some indexer) :
    run disk paths = indexer.index disk paths := by
  have sameFold : ∀ registry, paths.foldlM (addArtifact disk) registry =
      paths.foldlM (indexer.addArtifact disk) registry := by
    induction paths with
    | nil => exact fun _ => rfl
    | cons path rest ih =>
        rw [List.forall_mem_cons] at chosen
        intro registry
        have sameStep : addArtifact disk registry path =
            indexer.addArtifact disk registry path := by
          rw [(indexer.isUniform_addArtifact disk path).eq_map_empty, addArtifact, chosen.1]
          cases there : disk.contains path with
          | false => simp [Indexer.addArtifact, there, Except.map]
          | true => simp [Indexer.index_singleton]
        simp only [List.foldlM_cons, sameStep, ih chosen.2]
  exact sameFold ∅

/-- A scan fails iff an artifact fails by itself, and then as the first such artifact does.
Otherwise it finds exactly the class that the first artifact defining its name has. Artifacts of one
kind give what the indexer of this kind gives for all of them. -/
theorem scan_merges_class_path (disk : Disk) (paths : List Path) :
    ((∃ error, run disk paths = .error error) ↔ ∃ path ∈ paths, Fails disk path) ∧
    (∀ error, run disk paths = .error error ↔
      ∃ path, IsFirst (Fails disk) paths path ∧ Yields disk path (.error error)) ∧
    (∀ registry, run disk paths = .ok registry ↔
      (∀ path ∈ paths, ¬Fails disk path) ∧
        ∀ name info, registry.get? name = some info ↔ FirstDefines disk paths name info) ∧
    ((∀ path ∈ paths, Indexer.registry.accepts disk path = true) →
      run disk paths = Indexer.registry.index disk paths) ∧
    ((∀ path ∈ paths, Indexer.classes.accepts disk path = true ∧
        Indexer.registry.accepts disk path = false) →
      run disk paths = Indexer.classes.index disk paths) := by
  refine ⟨run_fails_iff, fun _ => foldlM_addArtifact_eq_error_iff paths ∅, fun _ => run_eq_ok_iff,
    ?_, ?_⟩
  · intro accepted
    apply run_eq_index
    intro path pathMem
    simp [indexers, accepted path pathMem]
  · intro accepted
    apply run_eq_index
    intro path pathMem
    simp [indexers, accepted path pathMem]

/-- A disk with two registry files and a folder with a class file. The first registry file lists a
class twice, and the second one lists it again. -/
def layeredDisk : Disk :=
  (((Disk.empty ["work"]).put ["work", "old.json"] (.file (Utf8.encode
    "[\x7b\"name\": \"a.A\", \"dependencies\": [\"b.B\"]\x7d, \x7b\"name\": \"a.A\"\x7d]"))).put
      ["work", "new.json"] (.file (Utf8.encode
        "[\x7b\"name\": \"a.A\"\x7d, \x7b\"name\": \"c.C\"\x7d]"))).put
      ["work", "out", "Y.class"] (.file
        [0xCA, 0xFE, 0xBA, 0xBE, 0, 0, 0, 52, 0, 3, 7, 0, 2, 1, 0, 3, 0x78, 0x2F, 0x59,
          0, 0, 0, 1, 0, 0, 0, 0, 0, 0, 0, 0, 0, 0])

theorem layered_class_path :
    ((∀ path ∈ [⟨"old.json"⟩, ⟨"new.json"⟩],
        Indexer.registry.accepts layeredDisk path = true) ∧
      run layeredDisk [⟨"old.json"⟩, ⟨"new.json"⟩] =
        Indexer.registry.index layeredDisk [⟨"old.json"⟩, ⟨"new.json"⟩] ∧
      FirstDefines layeredDisk [⟨"old.json"⟩, ⟨"new.json"⟩] "a.A"
        (.ofName "a.A" (.ofList ["b.B"]))) ∧
    (∀ path ∈ [⟨"out"⟩, ⟨"out/Y.class"⟩], Indexer.classes.accepts layeredDisk path = true ∧
        Indexer.registry.accepts layeredDisk path = false) ∧
      run layeredDisk [⟨"out"⟩, ⟨"out/Y.class"⟩] =
        Indexer.classes.index layeredDisk [⟨"out"⟩, ⟨"out/Y.class"⟩] ∧
      FirstDefines layeredDisk [⟨"out"⟩, ⟨"out/Y.class"⟩] "x.Y" (.ofName "x.Y" ∅) := by
  have registries : ∀ path ∈ [⟨"old.json"⟩, ⟨"new.json"⟩],
      Indexer.registry.accepts layeredDisk path = true := by decide +kernel
  have classes : ∀ path ∈ [⟨"out"⟩, ⟨"out/Y.class"⟩],
      Indexer.classes.accepts layeredDisk path = true ∧
        Indexer.registry.accepts layeredDisk path = false := by decide +kernel
  have found : ∀ paths name info,
      (run layeredDisk paths).toOption.bind (·.get? name) = some info →
        FirstDefines layeredDisk paths name info := by
    intro paths name info looked
    cases scanned : run layeredDisk paths with
    | error error => simp [scanned, Except.toOption] at looked
    | ok registry =>
        have merged := (scan_merges_class_path layeredDisk paths).2.2.1 registry
        rw [← (merged.mp scanned).2]
        simpa [scanned, Except.toOption] using looked
  exact ⟨⟨registries, (scan_merges_class_path layeredDisk _).2.2.2.1 registries,
      found _ _ _ (by decide +kernel)⟩,
    classes, (scan_merges_class_path layeredDisk _).2.2.2.2 classes,
    found _ _ _ (by decide +kernel)⟩

end Scan

end Coupling
