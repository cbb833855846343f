import Coupling.Proofs.Artifact.Addition
import Coupling.Proofs.Disk.Listing
import Mathlib.Control.Monad.Basic

/-!
# Folders of classes

Indexing a folder walks through all that is below it and adds the class files.
Indexing the listed class files one by one comes to the same: a folder that opens
adds nothing, and a class file is added as it is by itself. The exception is what
lies so deep that its path is too long to be opened. There the walk fails, while
of the listed files it is the file that is missing, and folders are not looked at.
-/

namespace Coupling

namespace Path

theorem splitExtension_append {stem extension : List Char} {name : String} (nonempty : stem ≠ [])
    (absent : '.' ∉ extension) (split : name.toList = stem ++ '.' :: extension) :
    (splitExtension name).2 = some (String.ofList extension) := by
  have others : ∀ c ∈ extension.reverse, (c != '.') = true := by
    intro c charMem
    rw [bne_iff_ne]
    rintro rfl
    exact absent (List.mem_reverse.mp charMem)
  have reversed : name.toList.reverse = extension.reverse ++ '.' :: stem.reverse := by simp [split]
  have started : stem.reverse ≠ [] := by simpa using nonempty
  rcases List.exists_cons_of_ne_nil started with ⟨first, rest, stem_eq⟩
  have dropped : name.toList.reverse.dropWhile (· != '.') = '.' :: first :: rest := by
    rw [reversed, List.dropWhile_append_of_pos others, stem_eq]
    simp
  have taken : name.toList.reverse.takeWhile (· != '.') = extension.reverse := by
    rw [reversed, List.takeWhile_append_of_pos others]
    simp
  simp only [splitExtension, dropped, taken, List.reverse_reverse]

theorem exists_of_splitExtension {name extension : String}
    (split : (splitExtension name).2 = some extension) :
    ∃ stem, stem ≠ [] ∧ name.toList = stem ++ '.' :: extension.toList := by
  simp only [splitExtension] at split
  split at split
  · next dot first rest dropped =>
      have isDot : dot = '.' := by
        have stops := List.head_dropWhile_not (· != '.') (l := name.toList.reverse)
          (by simp [dropped])
        simpa [dropped] using stops
      have whole := List.takeWhile_append_dropWhile (p := (· != '.')) (l := name.toList.reverse)
      rw [dropped, isDot] at whole
      cases split
      refine ⟨(first :: rest).reverse, by simp, ?_⟩
      simpa using congrArg List.reverse whole.symm
  · cases split

end Path

namespace Indexer

variable {disk : Disk} {path : Path} {location : Location} {files : List (List String)}

theorem hasExtension_class_iff {name : String} (named : path.fileName? = some name) :
    hasExtension path "class" ↔ NamesClassFile name := by
  rw [hasExtension, Path.extension?, named, Option.bind_some]
  constructor
  · intro isClass
    split at isClass
    · next extension split =>
        rcases Path.exists_of_splitExtension split with ⟨stem, nonempty, name_eq⟩
        exact ⟨stem, extension.toList, nonempty, name_eq, beq_iff_eq.mp isClass⟩
    · cases isClass
  · rintro ⟨stem, extension, nonempty, name_eq, isClass⟩
    have absent : '.' ∉ extension := by
      intro dot
      have lowered : '.' ∈ extension.map Char.toLower := List.mem_map.mpr ⟨'.', dot, by decide⟩
      rw [isClass] at lowered
      revert lowered
      decide
    rw [Path.splitExtension_append nonempty absent name_eq]
    simpa [lowered] using isClass

theorem not_isArchive_of_class (isClass : hasExtension path "class") : isArchive path = false := by
  rw [hasExtension] at isClass
  split at isClass
  · next extension found =>
      have class_eq := beq_iff_eq.mp isClass
      simp only [isArchive, hasExtension, found, class_eq]
      decide
  · cases isClass

theorem hasExtension_below_iff {names : List String} {content : List UInt8} (tree : disk.IsTree)
    (folder : disk.at? location = some .folder)
    (held : disk.at? (location ++ names) = some (.file content)) :
    hasExtension (path.below names) "class" ↔ disk.HoldsClassFile (location ++ names) := by
  rcases List.eq_nil_or_concat names with rfl | ⟨upper, name, rfl⟩
  · rw [List.append_nil, folder] at held
    cases held
  · rw [List.concat_eq_append] at held ⊢
    have named : (path.below (upper ++ [name])).fileName? = some name := by
      rw [Path.below_concat]
      exact Path.fileName?_join (tree.isEntryName held (by simp))
    rw [hasExtension_class_iff named]
    constructor
    · intro isClass
      exact ⟨location ++ upper, name, content, by simp, isClass, held⟩
    · rintro ⟨_, _, _, place_eq, isClass, _⟩
      rw [← List.append_assoc] at place_eq
      rcases List.append_inj' place_eq rfl with ⟨_, name_eq⟩
      cases name_eq
      exact isClass

/-- The names of an entry that the walk adds. -/
def added? (path : Path) : List String × Node → Option (List String)
  | (names, .file _) => if hasExtension (path.below names) "class" then some names else none
  | (_, .folder) => none

theorem added?_eq_some_iff {names found : List String} {node : Node} :
    added? path (names, node) = some found ↔
      names = found ∧ ∃ content, node = .file content ∧ hasExtension (path.below names) "class" := by
  cases node with
  | file content => simp [added?, and_comm]
  | folder => simp [added?]

theorem index_eq_addFolder (located : disk.locate path = .ok location)
    (folder : disk.at? location = some .folder) :
    classes.index disk [path] = addFolder disk ∅ path := by
  simp [index, addArtifact, Disk.contains, Disk.isFolder, Disk.node?, located, folder]

section Fold

variable {ε α β : Type} {entries : List α} {entry : α} {step other : β → α → Except ε β}

theorem foldlM_congr (same : ∀ entry ∈ entries, ∀ state, step state entry = other state entry)
    (state : β) : entries.foldlM step state = entries.foldlM other state := by
  induction entries generalizing state with
  | nil => rfl
  | cons entry entries ih =>
      rw [List.forall_mem_cons] at same
      simp only [List.foldlM_cons, same.1, ih same.2]

theorem foldlM_fails (entryMem : entry ∈ entries)
    (fails : ∀ state, ∃ error, step state entry = .error error) (state : β) :
    ∃ error, entries.foldlM step state = .error error := by
  induction entries generalizing state with
  | nil => cases entryMem
  | cons first entries ih =>
      rw [List.foldlM_cons]
      cases stepped : step state first with
      | error error => exact ⟨error, rfl⟩
      | ok next =>
          rcases List.mem_cons.mp entryMem with rfl | entryMem
          · rcases fails state with ⟨error, failed⟩
            rw [stepped] at failed
            cases failed
          · exact ih entryMem next

end Fold

section Folder

variable (tree : disk.IsTree) (folder : disk.at? location = some .folder)

include tree folder

theorem mem_added_iff {names : List String} :
    names ∈ (disk.heldBelow location).filterMap (added? path) ↔
      disk.HoldsClassFile (location ++ names) := by
  rw [List.mem_filterMap]
  constructor
  · rintro ⟨⟨_, node⟩, entryMem, added⟩
    rcases added?_eq_some_iff.mp added with ⟨rfl, content, rfl, isClass⟩
    exact (hasExtension_below_iff tree folder ((Disk.mem_heldBelow tree).mp entryMem).2).mp isClass
  · intro found
    rcases found.exists_file with ⟨content, inner, held⟩
    have entryMem := (Disk.mem_heldBelow tree).mpr ⟨inner, held⟩
    refine ⟨_, entryMem, added?_eq_some_iff.mpr ⟨rfl, content, rfl, ?_⟩⟩
    exact (hasExtension_below_iff tree folder held).mpr found

/-- The walk adds the listed files, in the order of the list. -/
theorem eq_added (path : Path) (listed : disk.ListsClassFiles location files) :
    files = (disk.heldBelow location).filterMap (added? path) := by
  apply Disk.eq_of_ascending listed.pairwise
  · apply List.Pairwise.filterMap _ _ Disk.pairwise_heldBelow
    rintro ⟨names, node⟩ ⟨others, otherNode⟩ before first added second otherAdded
    rcases added?_eq_some_iff.mp added with ⟨rfl, _⟩
    rcases added?_eq_some_iff.mp otherAdded with ⟨rfl, _⟩
    exact before
  · intro names
    rw [listed.mem_iff tree, mem_added_iff tree folder]

variable (located : disk.locate path = .ok location)

include located

/-- An entry is added by the walk as it is by itself, if it is a class file. -/
theorem addBelow_eq (listed : disk.ListsClassFiles location files)
    (within : disk.WithinReach path location files) {names : List String} {node : Node}
    (entryMem : (names, node) ∈ disk.heldBelow location) (registry : Registry) :
    addBelow disk registry (path.below names, node) =
      (added? path (names, node)).elim (.ok registry) fun found =>
        addArtifact disk .classes registry (path.below found) := by
  rcases (Disk.mem_heldBelow tree).mp entryMem with ⟨_, held⟩
  cases node with
  | folder =>
      have opened := tree.locate_below located held (within names (.inl held))
      simp [addBelow, added?, Disk.openFolder, opened, bind, Except.bind,
        Disk.enter_eq_ok_iff.mpr held]
  | file content =>
      by_cases isClass : hasExtension (path.below names) "class"
      · have listedMem : names ∈ files := by
          rw [listed.mem_iff tree]
          exact (hasExtension_below_iff tree folder held).mp isClass
        have found := tree.locate_below located held (within names (.inr listedMem))
        simp [addBelow, added?, isClass, addArtifact, Disk.contains, Disk.isFolder, Disk.node?,
          found, held, not_isArchive_of_class isClass]
      · simp [addBelow, added?, isClass]

theorem index_eq_index_files (listed : disk.ListsClassFiles location files)
    (within : disk.WithinReach path location files) :
    classes.index disk [path] = classes.index disk (files.map path.below) := by
  rw [index_eq_addFolder located folder, addFolder, Disk.entriesBelow_eq located, index,
    eq_added tree folder path listed, List.foldlM_map, List.foldlM_map, List.foldlM_filterMap]
  apply foldlM_congr
  rintro ⟨names, node⟩ entryMem registry
  rw [addBelow_eq tree folder located listed within entryMem registry]
  cases added? path (names, node) with
  | none => rfl
  | some found => rfl

/-- What lies too deep is met by the walk, which fails there. -/
theorem exists_unopened (listed : disk.ListsClassFiles location files) {names : List String}
    (needed : disk.at? (location ++ names) = some .folder ∨ names ∈ files)
    (long : 4095 < (path.below names).text.utf8ByteSize) :
    ∃ node, (names, node) ∈ disk.heldBelow location ∧
      ∀ registry, ∃ error, addBelow disk registry (path.below names, node) = .error error := by
  obtain ⟨fault, unfound⟩ : ∃ fault, disk.locate (path.below names) = .error fault :=
    Disk.exists_fault_of_long long
  rcases needed with held | listedMem
  · -- The topmost folder is not met, but its own path is short enough to lead to it.
    have inner : location ++ names ≠ [] := by
      intro topmost
      rcases List.append_eq_nil_iff.mp topmost with ⟨_, rfl⟩
      exact absurd long (Nat.not_lt.mpr (Disk.size_le_of_locate located))
    refine ⟨.folder, (Disk.mem_heldBelow tree).mpr ⟨inner, held⟩, fun registry => ?_⟩
    simp [addBelow, Disk.openFolder, unfound, bind, Except.bind]
  · have found := (listed.mem_iff tree).mp listedMem
    rcases found.exists_file with ⟨content, inner, held⟩
    have isClass : hasExtension (path.below names) "class" :=
      (hasExtension_below_iff tree folder held).mpr found
    refine ⟨.file content, (Disk.mem_heldBelow tree).mpr ⟨inner, held⟩, ?_⟩
    intro registry
    simp [addBelow, isClass, addFile, Disk.read, unfound, bind, Except.bind]

theorem withinReach_of_heldBelow (listed : disk.ListsClassFiles location files)
    (short : ∀ entry ∈ disk.heldBelow location,
      (path.below entry.1).text.utf8ByteSize ≤ 4095) :
    disk.WithinReach path location files := by
  intro names needed
  apply Nat.not_lt.mp
  intro long
  rcases exists_unopened tree folder located listed needed long with ⟨node, entryMem, _⟩
  exact Nat.not_le.mpr long (short (names, node) entryMem)

theorem index_fails (listed : disk.ListsClassFiles location files)
    (outside : ¬disk.WithinReach path location files) :
    ∃ error, classes.index disk [path] = .error error := by
  rw [Disk.WithinReach] at outside
  simp only [Classical.not_forall, Nat.not_le] at outside
  rcases outside with ⟨names, needed, long⟩
  rcases exists_unopened tree folder located listed needed long with ⟨node, entryMem, fails⟩
  rw [index_eq_addFolder located folder, addFolder, Disk.entriesBelow_eq located, List.foldlM_map]
  exact foldlM_fails entryMem fails ∅

end Folder

/-- Indexing a folder comes to the same as indexing the class files below it one by one, in the
order of the list, if every folder and class file there can be opened. Otherwise it fails. -/
theorem folder_indexed_as_its_class_files (tree : disk.IsTree)
    (located : disk.locate path = .ok location) (folder : disk.at? location = some .folder) :
    (∃ files, disk.ListsClassFiles location files) ∧
    ∀ files, disk.ListsClassFiles location files →
      (disk.WithinReach path location files →
        classes.index disk [path] = classes.index disk (files.map path.below)) ∧
      (¬disk.WithinReach path location files →
        ∃ error, classes.index disk [path] = .error error) := by
  refine ⟨Disk.exists_listsClassFiles folder, fun files listed => ⟨?_, ?_⟩⟩
  · exact index_eq_index_files tree folder located listed
  · exact index_fails tree folder located listed

/-- A class file that declares a class of the given letter and nothing else. -/
def letterClass (letter : UInt8) : List UInt8 :=
  [0xCA, 0xFE, 0xBA, 0xBE, 0, 0, 0, 52, 0, 3, 7, 0, 2, 1, 0, 1, letter, 0, 0, 0, 1] ++
    List.replicate 10 0

/-- A folder with a class file, another file, and a folder that is named as a class file is. -/
def classFolder : Disk :=
  ((((Disk.empty ["work"]).put ["work", "d", "x.class", "A.CLASS"] (.file (letterClass 65))).put
    ["work", "d", "Z.Class"] (.file (letterClass 66))).put
    ["work", "d", "x.class", "class"] (.file []))

/-- The upper case letter comes first, and the folder is entered. -/
theorem classFolder_indexed_as_its_class_files :
    classFolder.IsTree ∧ classFolder.locate ⟨"d"⟩ = .ok ["work", "d"] ∧
    classFolder.at? ["work", "d"] = some .folder ∧
    classFolder.ListsClassFiles ["work", "d"] [["Z.Class"], ["x.class", "A.CLASS"]] ∧
    classes.index classFolder [⟨"d"⟩] =
      classes.index classFolder [⟨"d/Z.Class"⟩, ⟨"d/x.class/A.CLASS"⟩] := by
  have tree : classFolder.IsTree := by decide +kernel
  have located : classFolder.locate ⟨"d"⟩ = .ok ["work", "d"] := by decide +kernel
  have folder : classFolder.at? ["work", "d"] = some .folder := by decide +kernel
  rcases folder_indexed_as_its_class_files tree located folder with ⟨⟨files, listed⟩, indexed⟩
  have files_eq : files = [["Z.Class"], ["x.class", "A.CLASS"]] :=
    (eq_added tree folder ⟨"d"⟩ listed).trans (by decide +kernel)
  have short : ∀ entry ∈ classFolder.heldBelow ["work", "d"],
      (Path.below ⟨"d"⟩ entry.1).text.utf8ByteSize ≤ 4095 := by decide +kernel
  have within := withinReach_of_heldBelow tree folder located listed short
  have paths : files.map (Path.below ⟨"d"⟩) = [⟨"d/Z.Class"⟩, ⟨"d/x.class/A.CLASS"⟩] := by
    rw [files_eq]
    decide +kernel
  exact ⟨tree, located, folder, files_eq ▸ listed, paths ▸ (indexed files listed).1 within⟩

/-- The path with slashes after it. -/
def slashed (path : Path) : Nat → Path
  | 0 => path
  | count + 1 => ⟨(slashed path count).text ++ "/"⟩

theorem size_slashed (path : Path) (count : Nat) :
    (slashed path count).text.utf8ByteSize = path.text.utf8ByteSize + count := by
  induction count with
  | zero => rfl
  | succ count ih =>
      have slash : "/".utf8ByteSize = 1 := by decide
      rw [slashed, String.utf8ByteSize_append, ih, slash, Nat.add_assoc]

theorem locate_slash (located : disk.locate path = .ok location)
    (folder : disk.at? location = some .folder)
    (short : (path.text ++ "/").utf8ByteSize ≤ 4095) :
    disk.locate ⟨path.text ++ "/"⟩ = .ok location := by
  rw [Disk.locate_eq_ok_iff, Disk.checkPath_eq_ok_iff] at located ⊢
  rcases located with ⟨⟨nulFree, nonempty, _⟩, followed⟩
  have segments_eq : Path.segments ⟨path.text ++ "/"⟩ = path.segments ++ [""] := by
    simp [Path.segments, List.splitOn_append_cons_self]
  have start : disk.startOf ⟨path.text ++ "/"⟩ = disk.startOf path := by
    have started : path.text.toList ≠ [] := by simpa using nonempty
    rcases List.exists_cons_of_ne_nil started with ⟨first, rest, text_eq⟩
    simp [Disk.startOf, Path.isAbsolute, text_eq]
  refine ⟨⟨by simp [nulFree], by simp [nonempty], short⟩, ?_⟩
  rw [start, segments_eq, Disk.follow_append_eq_ok_iff]
  exact ⟨location, followed, Disk.follow_cons_eq_ok_iff.mpr ⟨folder, location, rfl, rfl⟩⟩

theorem locate_slashed (located : disk.locate path = .ok location)
    (folder : disk.at? location = some .folder) {count : Nat}
    (short : path.text.utf8ByteSize + count ≤ 4095) :
    disk.locate (slashed path count) = .ok location := by
  induction count with
  | zero => exact located
  | succ count ih =>
      have further : (slashed path (count + 1)).text.utf8ByteSize ≤ 4095 := by
        rw [size_slashed]
        exact short
      exact locate_slash (ih (by omega)) folder further

theorem not_withinReach_of_long (files : List (List String)) {name : String}
    (held : disk.at? (location ++ [name]) = some .folder) (slashFree : '/' ∉ name.toList)
    (long : 4095 < path.text.utf8ByteSize + name.utf8ByteSize) :
    ¬disk.WithinReach path location files := by
  intro within
  have short : (path.join ⟨name⟩).text.utf8ByteSize ≤ 4095 := within [name] (.inl held)
  have longer := Path.size_le_size_join slashFree path
  omega

/-- A folder with a folder in it. -/
def nestedFolder : Disk :=
  (Disk.empty ["work"]).put ["work", "d", "s"] .folder

/-- Nothing in the folder is a class file, but its path is as long as a path can be, and that of
the folder in it is longer. -/
theorem nestedFolder_beyond_reach :
    nestedFolder.IsTree ∧ nestedFolder.locate (slashed ⟨"d"⟩ 4094) = .ok ["work", "d"] ∧
    nestedFolder.at? ["work", "d"] = some .folder ∧
    nestedFolder.ListsClassFiles ["work", "d"] [] ∧
    classes.index nestedFolder [slashed ⟨"d"⟩ 4094] ≠
      classes.index nestedFolder (([] : List (List String)).map (slashed ⟨"d"⟩ 4094).below) := by
  have tree : nestedFolder.IsTree := by decide +kernel
  have folder : nestedFolder.at? ["work", "d"] = some .folder := by decide +kernel
  have inner : nestedFolder.at? (["work", "d"] ++ ["s"]) = some .folder := by decide +kernel
  have size : (Path.mk "d").text.utf8ByteSize + 4094 = 4095 := by decide
  have located : nestedFolder.locate (slashed ⟨"d"⟩ 4094) = .ok ["work", "d"] :=
    locate_slashed (by decide +kernel) folder (Nat.le_of_eq size)
  rcases Disk.exists_listsClassFiles folder with ⟨files, listed⟩
  have files_eq : files = [] := (eq_added tree folder ⟨"d"⟩ listed).trans (by decide +kernel)
  subst files_eq
  have long : 4095 < (slashed ⟨"d"⟩ 4094).text.utf8ByteSize + "s".utf8ByteSize := by
    rw [size_slashed, size]
    decide
  have outside := not_withinReach_of_long [] inner (by decide) long
  rcases index_fails tree folder located listed outside with ⟨error, failed⟩
  refine ⟨tree, located, folder, listed, ?_⟩
  rw [failed]
  simp [index, pure, Except.pure]

end Indexer

end Coupling
