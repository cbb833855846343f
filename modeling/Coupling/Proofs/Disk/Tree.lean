import Coupling.Proofs.Disk

/-!
# Trees of folders

On a disk that is a tree, whatever stands somewhere stands in a folder, under a
name that can be part of a path. The path of a folder, continued by the names of
what it holds, leads to these entries. Only its length can stop it: there is no
bound on how deep folders lie in each other, but there is one on paths.
-/

namespace Coupling

/-- A name that an entry of a folder can have. -/
structure IsEntryName (name : String) : Prop where
  nonempty : name ≠ ""
  notHere : name ≠ "."
  notAbove : name ≠ ".."
  slashFree : '/' ∉ name.toList
  nulFree : '\x00' ∉ name.toList
  short : name.utf8ByteSize ≤ 255

instance : DecidablePred IsEntryName := fun name =>
  decidable_of_iff (name ≠ "" ∧ name ≠ "." ∧ name ≠ ".." ∧ '/' ∉ name.toList ∧
      '\x00' ∉ name.toList ∧ name.utf8ByteSize ≤ 255)
    ⟨fun ⟨nonempty, notHere, notAbove, slashFree, nulFree, short⟩ =>
      ⟨nonempty, notHere, notAbove, slashFree, nulFree, short⟩,
    fun ⟨nonempty, notHere, notAbove, slashFree, nulFree, short⟩ =>
      ⟨nonempty, notHere, notAbove, slashFree, nulFree, short⟩⟩

theorem IsEntryName.not_isIdle {name : String} (proper : IsEntryName name) :
    Path.isIdle name = false := by
  simp [Path.isIdle, proper.nonempty, proper.notHere]

theorem IsEntryName.stepTo {name : String} (proper : IsEntryName name) (location : Location) :
    Disk.stepTo location name = .ok (location ++ [name]) := by
  have fits : ¬name.utf8ByteSize > 255 := Nat.not_lt.mpr proper.short
  simp [Disk.stepTo, proper.not_isIdle, proper.notAbove, fits]

namespace Path

variable {path : Path} {name : String}

section Join

variable (slashFree : '/' ∉ name.toList)

include slashFree

theorem not_isAbsolute_of_slashFree : isAbsolute ⟨name⟩ = false := by
  rw [isAbsolute, beq_eq_false_iff_ne]
  intro head
  exact slashFree (List.mem_of_mem_head? head)

theorem segments_of_slashFree : segments ⟨name⟩ = [name] := by
  simp [segments, List.splitOn_eq_singleton slashFree]

theorem segments_join_name (path : Path) : ∃ front, (path.join ⟨name⟩).segments = front ++ [name] ∧
    (path.segments = front ∨ path.segments = front ++ [""]) := by
  rw [← segments_of_slashFree slashFree]
  exact segments_join (not_isAbsolute_of_slashFree slashFree) path

theorem size_le_size_join (path : Path) :
    path.text.utf8ByteSize + name.utf8ByteSize ≤ (path.join ⟨name⟩).text.utf8ByteSize := by
  rcases text_join (not_isAbsolute_of_slashFree slashFree) path with joined | joined
  · simp [joined]
  · simp [joined]

end Join

theorem fileName?_join (proper : IsEntryName name) : (path.join ⟨name⟩).fileName? = some name := by
  rcases segments_join_name proper.slashFree path with ⟨front, joined, _⟩
  have moves := proper.not_isIdle
  simp [fileName?, components, joined, moves, componentOf, proper.notAbove]

theorem below_concat (path : Path) (names : List String) (name : String) :
    path.below (names ++ [name]) = (path.below names).join ⟨name⟩ := by
  simp [below]

theorem size_le_size_below {names : List String} (slashFree : ∀ name ∈ names, '/' ∉ name.toList) :
    path.text.utf8ByteSize ≤ (path.below names).text.utf8ByteSize := by
  induction names generalizing path with
  | nil => exact Nat.le_refl _
  | cons name names ih =>
      rw [List.forall_mem_cons] at slashFree
      have longer := size_le_size_join slashFree.1 path
      exact Nat.le_trans (Nat.le_of_add_right_le longer) (ih slashFree.2)

end Path

namespace Disk

variable {disk : Disk} {path : Path} {location place : Location} {node : Node} {name : String}

/-- Whatever stands somewhere stands in a folder, under names that entries of folders can have. -/
def IsTree (disk : Disk) : Prop :=
  ∀ place ∈ disk.nodes.keys,
    place ≠ [] ∧ (∀ name ∈ place, IsEntryName name) ∧ disk.at? place.dropLast = some .folder

instance : DecidablePred IsTree := fun disk =>
  inferInstanceAs (Decidable (∀ place ∈ disk.nodes.keys, _))

theorem mem_keys_of_at? (inner : place ≠ []) (held : disk.at? place = some node) :
    place ∈ disk.nodes.keys := by
  rw [at?, if_neg (by simpa using inner)] at held
  rw [Std.ExtTreeMap.mem_keys, Std.ExtTreeMap.mem_iff_isSome_getElem?, held]
  rfl

theorem checkPath_eq_ok_iff : checkPath path = .ok () ↔
    '\x00' ∉ path.text.toList ∧ path.text ≠ "" ∧ path.text.utf8ByteSize ≤ 4095 := by
  rw [checkPath]
  split
  · next held =>
      rw [List.contains_iff_mem] at held
      simp [held]
  next nulFree =>
  split
  · next empty => simp [String.isEmpty_iff.mp empty]
  next nonempty =>
  split
  · next long => simp; omega
  next short => simpa using ⟨by simpa using nulFree, by simpa using nonempty, by omega⟩

theorem locate_eq_ok_iff : disk.locate path = .ok location ↔
    checkPath path = .ok () ∧ disk.follow (disk.startOf path) path.segments = .ok location := by
  rw [locate, bind_eq_ok_iff]
  constructor
  · rintro ⟨_, checked, followed⟩
    exact ⟨checked, followed⟩
  · rintro ⟨checked, followed⟩
    exact ⟨(), checked, followed⟩

theorem size_le_of_locate (located : disk.locate path = .ok location) :
    path.text.utf8ByteSize ≤ 4095 :=
  (checkPath_eq_ok_iff.mp (locate_eq_ok_iff.mp located).1).2.2

theorem exists_fault_of_long (long : 4095 < path.text.utf8ByteSize) :
    ∃ fault, disk.locate path = .error fault := by
  cases located : disk.locate path with
  | error fault => exact ⟨fault, rfl⟩
  | ok location => exact absurd long (Nat.not_lt.mpr (size_le_of_locate located))

theorem follow_join {start : Location} (proper : IsEntryName name)
    (folder : disk.at? location = some .folder)
    (followed : disk.follow start path.segments = .ok location) :
    disk.follow start (path.join ⟨name⟩).segments = .ok (location ++ [name]) := by
  have last : disk.follow location [name] = .ok (location ++ [name]) :=
    follow_cons_eq_ok_iff.mpr ⟨folder, _, proper.stepTo location, rfl⟩
  -- The empty segment that a trailing slash leaves leads nowhere else.
  rcases Path.segments_join_name proper.slashFree path with ⟨front, joined, same | idle⟩
  · rw [joined, follow_append_eq_ok_iff, ← same]
    exact ⟨location, followed, last⟩
  · rw [idle, follow_append_eq_ok_iff] at followed
    rcases followed with ⟨before, reached, stays⟩
    rcases follow_cons_eq_ok_iff.mp stays with ⟨_, after, stepped, done⟩
    cases stepped
    cases done
    rw [joined, follow_append_eq_ok_iff]
    exact ⟨_, reached, last⟩

theorem locate_join (proper : IsEntryName name) (located : disk.locate path = .ok location)
    (folder : disk.at? location = some .folder)
    (short : (path.join ⟨name⟩).text.utf8ByteSize ≤ 4095) :
    disk.locate (path.join ⟨name⟩) = .ok (location ++ [name]) := by
  rw [locate_eq_ok_iff, checkPath_eq_ok_iff] at located ⊢
  rcases located with ⟨⟨nulFree, nonempty, _⟩, followed⟩
  have relative := Path.not_isAbsolute_of_slashFree proper.slashFree
  have start : disk.startOf (path.join ⟨name⟩) = disk.startOf path := by
    rw [startOf, startOf, Path.isAbsolute_join relative nonempty]
  refine ⟨⟨?_, ?_, short⟩, start ▸ follow_join proper folder followed⟩
  · rcases Path.text_join relative path with joined | joined
    · simp [joined, nulFree, proper.nulFree]
    · simp [joined, nulFree, proper.nulFree]
  · rcases Path.text_join relative path with joined | joined
    · simp [joined, nonempty]
    · simp [joined, nonempty]

namespace IsTree

variable (tree : disk.IsTree)

include tree

theorem isEntryName (held : disk.at? place = some node) (nameMem : name ∈ place) :
    IsEntryName name :=
  (tree place (mem_keys_of_at? (List.ne_nil_of_mem nameMem) held)).2.1 name nameMem

theorem mem_toList_iff :
    (place, node) ∈ disk.nodes.toList ↔ place ≠ [] ∧ disk.at? place = some node := by
  rw [Std.ExtTreeMap.mem_toList_iff_getElem?_eq_some]
  constructor
  · intro held
    have keyMem : place ∈ disk.nodes.keys := by
      rw [Std.ExtTreeMap.mem_keys, Std.ExtTreeMap.mem_iff_isSome_getElem?, held]
      rfl
    have inner := (tree place keyMem).1
    exact ⟨inner, by simpa [at?, inner] using held⟩
  · rintro ⟨inner, held⟩
    simpa [at?, inner] using held

theorem folder_above (held : disk.at? (place ++ [name]) = some node) :
    disk.at? place = some .folder := by
  simpa using (tree _ (mem_keys_of_at? (by simp) held)).2.2

/-- Whatever lies below a location leads up to it, and to a folder unless it is the same. -/
theorem exists_above {names : List String} (held : disk.at? (place ++ names) = some node) :
    ∃ upper, disk.at? place = some upper ∧ (names ≠ [] → upper = .folder) := by
  induction names generalizing place with
  | nil => exact ⟨node, by simpa using held, by simp⟩
  | cons name names ih =>
      rw [List.append_cons] at held
      rcases ih held with ⟨upper, above, _⟩
      exact ⟨.folder, tree.folder_above above, fun _ => rfl⟩

/-- The names of an entry below a folder lead to it from any path of the folder. -/
theorem locate_below {names : List String} (located : disk.locate path = .ok location)
    (held : disk.at? (location ++ names) = some node)
    (short : (path.below names).text.utf8ByteSize ≤ 4095) :
    disk.locate (path.below names) = .ok (location ++ names) := by
  induction names generalizing path location with
  | nil => simpa [Path.below] using located
  | cons name names ih =>
      have proper : ∀ step ∈ name :: names, IsEntryName step := by
        intro step stepMem
        exact tree.isEntryName held (List.mem_append_right location stepMem)
      rw [List.forall_mem_cons] at proper
      rcases tree.exists_above held with ⟨_, folder, isFolder⟩
      rw [isFolder (by simp)] at folder
      have shorter : (path.join ⟨name⟩).text.utf8ByteSize ≤ 4095 :=
        Nat.le_trans (Path.size_le_size_below fun step stepMem => (proper.2 step stepMem).slashFree)
          short
      rw [List.append_cons] at held ⊢
      exact ih (locate_join proper.1 located folder shorter) held short

end IsTree

end Disk

end Coupling
