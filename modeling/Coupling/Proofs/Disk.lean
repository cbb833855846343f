import Coupling.Disk
import Coupling.Proofs.Path
import Coupling.Proofs.Text.Utf8

/-!
# Writing and reading files

A file that has been written is found again under the path that it was written
to, with the content that was written, and nothing else on the disk changes.
-/

namespace Coupling

theorem bind_eq_ok_iff {ε α β : Type} {computed : Except ε α} {next : α → Except ε β} {result : β} :
    computed >>= next = .ok result ↔ ∃ value, computed = .ok value ∧ next value = .ok result := by
  cases computed <;> simp [bind, Except.bind]

namespace Disk

variable {disk other : Disk} {path : Path} {location : Location}

theorem enter_eq_ok_iff : disk.enter location = .ok () ↔ disk.at? location = some .folder := by
  rw [enter]
  split
  · next folder => simp [folder]
  · next file => simp [file]
  · next absent => simp [absent]

/-- Where a text between two slashes leads from a folder. -/
def stepTo (location : Location) (segment : String) : Except Fault Location :=
  if Path.isIdle segment then .ok location
  else if segment == ".." then .ok location.dropLast
  else if segment.utf8ByteSize > 255 then .error .tooLong
  else .ok (location ++ [segment])

theorem follow_cons_eq_ok_iff {segment : String} {rest : List String} {reached : Location} :
    disk.follow location (segment :: rest) = .ok reached ↔
      disk.at? location = some .folder ∧
        ∃ place, stepTo location segment = .ok place ∧ disk.follow place rest = .ok reached := by
  have stepped : (if Path.isIdle segment then disk.follow location rest
      else if segment == ".." then disk.follow location.dropLast rest
      else if segment.utf8ByteSize > 255 then .error .tooLong
      else disk.follow (location ++ [segment]) rest) =
        (stepTo location segment >>= fun place => disk.follow place rest) := by
    rw [stepTo]
    split
    · rfl
    split
    · rfl
    split
    · rfl
    · rfl
  rw [follow, stepped, bind_eq_ok_iff, bind_eq_ok_iff, ← enter_eq_ok_iff]
  constructor
  · rintro ⟨_, entered, place, reachable⟩
    exact ⟨entered, place, reachable⟩
  · rintro ⟨entered, place, reachable⟩
    exact ⟨(), entered, place, reachable⟩

theorem follow_append_eq_ok_iff {first second : List String} {reached : Location} :
    disk.follow location (first ++ second) = .ok reached ↔
      ∃ place, disk.follow location first = .ok place ∧ disk.follow place second = .ok reached := by
  induction first generalizing location with
  | nil => simp [follow]
  | cons segment rest ih =>
      simp only [List.cons_append, follow_cons_eq_ok_iff, ih]
      grind

/-- A path leads to the same location as long as the folders on its way are there. -/
theorem follow_of_folders {segments : List String} {reached : Location}
    (folders : ∀ place, disk.at? place = some .folder → other.at? place = some .folder)
    (followed : disk.follow location segments = .ok reached) :
    other.follow location segments = .ok reached := by
  induction segments generalizing location with
  | nil => exact followed
  | cons segment rest ih =>
      rcases follow_cons_eq_ok_iff.mp followed with ⟨entered, place, stepped, followed⟩
      exact follow_cons_eq_ok_iff.mpr ⟨folders location entered, place, stepped, ih followed⟩

/-- Paths lead to the same locations on disks with the same folders. -/
theorem locate_eq_ok_iff_of_folders (start : other.workingFolder = disk.workingFolder)
    (folders : ∀ place, other.at? place = some .folder ↔ disk.at? place = some .folder) :
    other.locate path = .ok location ↔ disk.locate path = .ok location := by
  rw [locate, locate, bind_eq_ok_iff, bind_eq_ok_iff, startOf, startOf, start]
  constructor
  · rintro ⟨_, checked, followed⟩
    exact ⟨(), checked, follow_of_folders (fun place => (folders place).mp) followed⟩
  · rintro ⟨_, checked, followed⟩
    exact ⟨(), checked, follow_of_folders (fun place => (folders place).mpr) followed⟩

/-- Without an empty text at the end, nothing is dropped from the end. -/
theorem eq_of_dropWhile_reverse {segments before : List String} {name : String}
    (last : segments.getLast? ≠ some "")
    (dropped : segments.reverse.dropWhile (·.isEmpty) = name :: before) :
    segments = before.reverse ++ [name] := by
  rw [List.getLast?_eq_head?_reverse] at last
  cases reversed : segments.reverse with
  | nil => simp [reversed] at dropped
  | cons first others =>
      have nonempty : first.isEmpty = false := by simpa [reversed] using last
      rw [reversed, List.dropWhile_cons_of_neg (by simp [nonempty])] at dropped
      rw [← List.reverse_reverse segments, reversed, dropped, List.reverse_cons]

/-- A file is written under a name in a folder that is there. -/
theorem target_cases (targeted : disk.target path = .ok location) :
    checkPath path = .ok () ∧ ∃ front name folder, path.segments = front ++ [name] ∧
      disk.follow (disk.startOf path) front = .ok folder ∧ disk.at? folder = some .folder ∧
      Path.isIdle name = false ∧ stepTo folder name = .ok (folder ++ [name]) ∧
      location = folder ++ [name] ∧ disk.at? location ≠ some .folder := by
  rcases bind_eq_ok_iff.mp targeted with ⟨_, checked, targeted⟩
  split at targeted
  · cases targeted
  · next name before dropped =>
      rcases bind_eq_ok_iff.mp targeted with ⟨folder, followed, targeted⟩
      rcases bind_eq_ok_iff.mp targeted with ⟨_, entered, targeted⟩
      split at targeted
      · cases targeted
      next named =>
      split at targeted
      · cases targeted
      next short =>
      split at targeted
      · cases targeted
      next free =>
      cases targeted
      simp only [Bool.or_eq_true, beq_iff_eq, not_or] at named
      have segments_eq := eq_of_dropWhile_reverse named.2 dropped
      have nonempty : name ≠ "" := by simpa [segments_eq] using named.2
      have moves : Path.isIdle name = false := by simp [Path.isIdle, nonempty, named]
      have stepped : stepTo folder name = .ok (folder ++ [name]) := by
        simp [stepTo, moves, named, short]
      exact ⟨checked, before.reverse, name, folder, segments_eq, followed,
        enter_eq_ok_iff.mp entered, moves, stepped, rfl, free⟩

/-- A file is written where its path leads to, unless a folder is there. -/
theorem target_eq_ok (targeted : disk.target path = .ok location) :
    checkPath path = .ok () ∧ location ≠ [] ∧ disk.at? location ≠ some .folder ∧
      disk.follow (disk.startOf path) path.segments = .ok location := by
  rcases target_cases targeted with
    ⟨checked, front, name, folder, segments_eq, followed, entered, _, stepped, rfl, free⟩
  refine ⟨checked, by simp, free, ?_⟩
  rw [segments_eq, follow_append_eq_ok_iff]
  exact ⟨folder, followed, follow_cons_eq_ok_iff.mpr ⟨entered, _, stepped, rfl⟩⟩

/-- Where segments lead to if the folders on the way are there. -/
def walk (location : Location) (segments : List String) : Location :=
  (Path.solid segments).foldl
    (fun place segment => if segment == ".." then place.dropLast else place ++ [segment]) location

theorem walk_of_follow {segments : List String} {reached : Location}
    (followed : disk.follow location segments = .ok reached) :
    walk location segments = reached := by
  induction segments generalizing location with
  | nil =>
      cases followed
      rfl
  | cons segment rest ih =>
      rcases follow_cons_eq_ok_iff.mp followed with ⟨_, place, stepped, followed⟩
      rw [← ih followed, walk, Path.solid, List.filter_cons]
      rw [stepTo] at stepped
      split at stepped
      · next idle =>
          cases stepped
          simp [idle, walk, Path.solid]
      next moves =>
      simp only [moves, Bool.not_false, ↓reduceIte, List.foldl_cons]
      split at stepped
      · next up =>
          cases stepped
          simp [up, walk, Path.solid]
      next down =>
      split at stepped
      · cases stepped
      · cases stepped
        simp [down, walk, Path.solid]

/-- The disk with a file put at a location. -/
def holding (disk : Disk) (location : Location) (content : List UInt8) : Disk :=
  { disk with nodes := disk.nodes.insert location (.file content) }

theorem write_eq_ok_iff {content : List UInt8} {written : Disk} :
    disk.write path content = .ok written ↔
      ∃ location, disk.target path = .ok location ∧ disk.holding location content = written := by
  rw [write, bind_eq_ok_iff]
  simp [holding, pure, Except.pure]

/-- A written file is at its location, and every other location is as it was. -/
theorem at?_holding (inner : location ≠ []) (content : List UInt8) (place : Location) :
    (disk.holding location content).at? place =
      if place = location then some (.file content) else disk.at? place := by
  by_cases same : place = location
  · subst same
    simp [at?, holding, inner]
  · simp [at?, holding, same, Std.ExtTreeMap.getElem?_insert, Ne.symm same]

section Written

variable {content : List UInt8} (targeted : disk.target path = .ok location)

include targeted

theorem locate_of_target : disk.locate path = .ok location := by
  rcases target_eq_ok targeted with ⟨checked, _, _, followed⟩
  rw [locate, checked]
  exact followed

/-- Writing a file neither makes nor removes a folder. -/
theorem at?_holding_eq_folder_iff {place : Location} :
    (disk.holding location content).at? place = some .folder ↔ disk.at? place = some .folder := by
  rcases target_eq_ok targeted with ⟨_, inner, free, _⟩
  rw [at?_holding inner]
  by_cases same : place = location
  · simp [same, free]
  · simp [same]

/-- Writing a file does not change where paths lead to. -/
theorem locate_holding_eq_ok_iff {other : Path} {place : Location} :
    (disk.holding location content).locate other = .ok place ↔ disk.locate other = .ok place := by
  apply locate_eq_ok_iff_of_folders
  · rfl
  · exact fun _ => at?_holding_eq_folder_iff targeted

theorem locate_holding : (disk.holding location content).locate path = .ok location :=
  (locate_holding_eq_ok_iff targeted).mpr (locate_of_target targeted)

theorem at?_location_holding :
    (disk.holding location content).at? location = some (.file content) := by
  rw [at?_holding (target_eq_ok targeted).2.1, if_pos rfl]

theorem read_holding : (disk.holding location content).read path = .ok content := by
  rw [read, locate_holding targeted]
  simp only [bind, Except.bind, at?_location_holding targeted]

/-- A path that leads elsewhere leads there as before, and to what was there before. -/
theorem locate_holding_of_apart (content : List UInt8) {other : Path}
    (apart : disk.locate other ≠ .ok location) :
    (∃ place, disk.locate other = .ok place ∧
      (disk.holding location content).locate other = .ok place ∧
      (disk.holding location content).at? place = disk.at? place) ∨
    ∃ before after, disk.locate other = .error before ∧
      (disk.holding location content).locate other = .error after := by
  cases before : disk.locate other with
  | ok place =>
      have different : place ≠ location := fun same => apart (same ▸ before)
      refine Or.inl ⟨place, rfl, (locate_holding_eq_ok_iff targeted).mpr before, ?_⟩
      rw [at?_holding (target_eq_ok targeted).2.1, if_neg different]
  | error fault =>
      cases after : (disk.holding location content).locate other with
      | ok place =>
          rw [(locate_holding_eq_ok_iff targeted).mp after] at before
          cases before
      | error later => exact Or.inr ⟨fault, later, rfl, rfl⟩

theorem node?_holding_of_apart {other : Path} (apart : disk.locate other ≠ .ok location) :
    (disk.holding location content).node? other = disk.node? other := by
  rcases locate_holding_of_apart targeted content apart with
    ⟨place, before, after, same⟩ | ⟨_, _, before, after⟩
  · simp [node?, before, after, same]
  · simp [node?, before, after]

theorem resolve?_holding_of_apart {other : Path} (apart : disk.locate other ≠ .ok location) :
    (disk.holding location content).resolve? other = disk.resolve? other := by
  rcases locate_holding_of_apart targeted content apart with
    ⟨place, before, after, same⟩ | ⟨_, _, before, after⟩
  · simp [resolve?, before, after, same]
  · simp [resolve?, before, after]

theorem node?_holding_of_located {other : Path} (located : disk.locate other = .ok location) :
    (disk.holding location content).node? other = some (.file content) := by
  rw [node?, (locate_holding_eq_ok_iff targeted).mpr located]
  exact at?_location_holding targeted

theorem node?_holding : (disk.holding location content).node? path = some (.file content) :=
  node?_holding_of_located targeted (locate_of_target targeted)

theorem contains_holding : (disk.holding location content).contains path := by
  simp [contains, node?_holding targeted]

end Written

theorem readText_holding {text : String} (targeted : disk.target path = .ok location) :
    (disk.holding location (Utf8.encode text)).readText path = .ok text := by
  rw [readText, read_holding targeted]
  simp only [bind, Except.bind, Utf8.decode?_encode]

end Disk

end Coupling
