import Coupling.Proofs.Disk.Tree
import Coupling.Proofs.Text.Utf8Order
import Mathlib.Tactic.Choose

/-!
# Listing class files

The class files below a folder, listed folder by folder: the entries of each
folder in the order of the bytes of their names, and what an entry holds before
the next entry. On a tree there is one such list. It holds what stands below the
folder and is a class file, in the order of locations, since these are ordered by
their first names that differ and names are ordered as their bytes.
-/

namespace Coupling

/-- A name that ends in `.class`, in any case, after something else. -/
def NamesClassFile (name : String) : Prop :=
  ∃ stem extension : List Char, stem ≠ [] ∧ name.toList = stem ++ '.' :: extension ∧
    extension.map Char.toLower = "class".toList

namespace Disk

variable {disk : Disk} {path : Path} {location place : Location} {files : List (List String)}

/-- A class file is at the location. -/
def HoldsClassFile (disk : Disk) (place : Location) : Prop :=
  ∃ upper name content, place = upper ++ [name] ∧ NamesClassFile name ∧
    disk.at? place = some (.file content)

/-- Lists the class files at or below a location, each by the names that lead to it from there. The
entries of a folder are listed in the order of the bytes of their names, and each of them before the
next one is looked at. -/
inductive ListsClassFiles (disk : Disk) : Location → List (List String) → Prop
  | classFile {place : Location} (held : disk.HoldsClassFile place) : ListsClassFiles disk place [[]]
  | otherFile {place : Location} {content : List UInt8}
      (held : disk.at? place = some (.file content)) (other : ¬disk.HoldsClassFile place) :
      ListsClassFiles disk place []
  | folder {place : Location} {names : List String} {parts : String → List (List String)}
      (held : disk.at? place = some .folder)
      (complete : ∀ name, name ∈ names ↔ (disk.at? (place ++ [name])).isSome)
      (ascending : names.Pairwise fun first second => Utf8.encode first < Utf8.encode second)
      (listed : ∀ name ∈ names, ListsClassFiles disk (place ++ [name]) (parts name)) :
      ListsClassFiles disk place (names.flatMap fun name => (parts name).map (name :: ·))

/-- Every folder and every listed file below a folder has a path that can be opened, as seen from the
given path of the folder. -/
def WithinReach (disk : Disk) (path : Path) (location : Location) (files : List (List String)) :
    Prop :=
  ∀ names, disk.at? (location ++ names) = some .folder ∨ names ∈ files →
    (path.below names).text.utf8ByteSize ≤ 4095

theorem compare_cons_cons (name other : String) (names others : Location) :
    compare (name :: names) (other :: others) = (compare name other).then (compare names others) :=
  List.compareLex_cons_cons

theorem compare_append_append (names first second : Location) :
    compare (names ++ first) (names ++ second) = compare first second := by
  induction names with
  | nil => rfl
  | cons name names ih =>
      have same : compare name name = .eq := Std.ReflCmp.compare_self
      rw [List.cons_append, List.cons_append, compare_cons_cons, same, ih]
      rfl

theorem HoldsClassFile.exists_file (found : disk.HoldsClassFile place) :
    ∃ content, place ≠ [] ∧ disk.at? place = some (.file content) := by
  rcases found with ⟨upper, name, content, rfl, _, held⟩
  exact ⟨content, by simp, held⟩

theorem HoldsClassFile.eq_nil_of_file {names : List String} {content : List UInt8}
    (found : disk.HoldsClassFile (place ++ names)) (tree : disk.IsTree)
    (isFile : disk.at? place = some (.file content)) : names = [] := by
  rcases found.exists_file with ⟨_, _, held⟩
  rcases tree.exists_above held with ⟨upper, above, isFolder⟩
  apply Decidable.byContradiction
  intro nonempty
  rw [isFolder nonempty, isFile] at above
  cases above

namespace ListsClassFiles

theorem mem_iff (tree : disk.IsTree) (listed : disk.ListsClassFiles place files)
    {names : List String} : names ∈ files ↔ disk.HoldsClassFile (place ++ names) := by
  induction listed generalizing names with
  | classFile held =>
      constructor
      · intro namesMem
        rw [List.mem_singleton.mp namesMem, List.append_nil]
        exact held
      · rcases held.exists_file with ⟨_, _, isFile⟩
        intro found
        simpa using found.eq_nil_of_file tree isFile
  | otherFile isFile other =>
      simp only [List.not_mem_nil, false_iff]
      intro found
      rw [found.eq_nil_of_file tree isFile, List.append_nil] at found
      exact other found
  | @folder place inside parts held complete ascending listed ih =>
      simp only [List.mem_flatMap, List.mem_map]
      constructor
      · rintro ⟨name, nameMem, rest, restMem, rfl⟩
        rw [List.append_cons]
        exact (ih name nameMem).mp restMem
      · intro found
        cases names with
        | nil =>
            rcases found.exists_file with ⟨_, _, isFile⟩
            rw [List.append_nil, held] at isFile
            cases isFile
        | cons name rest =>
            rw [List.append_cons] at found
            rcases found.exists_file with ⟨_, _, isFile⟩
            rcases tree.exists_above isFile with ⟨upper, above, _⟩
            have nameMem : name ∈ inside := (complete name).mpr (by simp [above])
            exact ⟨name, nameMem, rest, (ih name nameMem).mpr found, rfl⟩

theorem pairwise (listed : disk.ListsClassFiles place files) :
    files.Pairwise fun first second => compare first second = .lt := by
  induction listed with
  | classFile held => exact List.pairwise_singleton _ _
  | otherFile held other => exact .nil
  | @folder place names parts held complete ascending listed ih =>
      rw [List.pairwise_flatMap]
      constructor
      · intro name nameMem
        rw [List.pairwise_map]
        refine (ih name nameMem).imp fun {first second} before => ?_
        exact (compare_append_append [name] first second).trans before
      · refine ascending.imp fun {first second} before => ?_
        have before : compare first second = .lt :=
          compareOfLessAndEq_eq_lt.mpr (Utf8.encode_lt_iff.mp before)
        intro names namesMem others othersMem
        rcases List.mem_map.mp namesMem with ⟨_, _, rfl⟩
        rcases List.mem_map.mp othersMem with ⟨_, _, rfl⟩
        rw [compare_cons_cons, before]
        rfl

end ListsClassFiles

theorem eq_of_ascending {first second : List Location}
    (ascending : first.Pairwise fun left right => compare left right = .lt)
    (otherAscending : second.Pairwise fun left right => compare left right = .lt)
    (same : ∀ names, names ∈ first ↔ names ∈ second) : first = second := by
  have nodup : ∀ {list : List Location},
      (list.Pairwise fun left right => compare left right = .lt) → list.Nodup := by
    intro list pairs
    refine pairs.imp fun {left right} before => ?_
    rintro rfl
    exact Std.OrientedCmp.not_lt_of_lt before before
  apply List.Perm.eq_of_pairwise _ ascending otherAscending
  · exact (List.perm_ext_iff_of_nodup (nodup ascending) (nodup otherAscending)).mpr same
  · intro left right _ _ before after
    exact absurd after (Std.OrientedCmp.not_lt_of_lt before)

/-- The name under which a folder holds a location, if it does. -/
def nameIn? (place key : Location) : Option String :=
  if key.dropLast = place then key.getLast? else none

theorem nameIn?_eq_some_iff {key : Location} {name : String} :
    nameIn? place key = some name ↔ key = place ++ [name] := by
  rw [nameIn?]
  constructor
  · intro named
    obtain ⟨rfl, last⟩ := by simpa using named
    rcases List.getLast?_eq_some_iff.mp last with ⟨upper, rfl⟩
    simp
  · rintro rfl
    simp

/-- The names of what a folder holds. -/
def namesIn (disk : Disk) (place : Location) : List String :=
  disk.nodes.keys.filterMap (nameIn? place)

theorem mem_namesIn {name : String} :
    name ∈ disk.namesIn place ↔ (disk.at? (place ++ [name])).isSome := by
  rw [at?, if_neg (by simp), ← Std.ExtTreeMap.mem_iff_isSome_getElem?, ← Std.ExtTreeMap.mem_keys,
    namesIn, List.mem_filterMap]
  simp only [nameIn?_eq_some_iff, exists_eq_right]

theorem ascending_namesIn : (disk.namesIn place).Pairwise fun first second =>
    Utf8.encode first < Utf8.encode second := by
  apply List.Pairwise.filterMap _ _ Std.ExtTreeMap.ordered_keys
  intro key other before first named second otherNamed
  rw [nameIn?_eq_some_iff] at named otherNamed
  rw [named, otherNamed, compare_append_append, compare_cons_cons] at before
  have before : compare first second = .lt := by
    cases order : compare first second with
    | lt => rfl
    | eq => rw [order] at before; cases before
    | gt => rw [order] at before; cases before
  exact Utf8.encode_lt_iff.mpr (compareOfLessAndEq_eq_lt.mp before)

theorem exists_listsClassFiles_of_bounded {node : Node} (depth : Nat)
    (held : disk.at? place = some node)
    (bounded : ∀ names, (disk.at? (place ++ names)).isSome → names.length ≤ depth) :
    ∃ files, disk.ListsClassFiles place files := by
  induction depth using Nat.strongRecOn generalizing place node with
  | ind depth ih =>
      cases node with
      | file content =>
          by_cases isClass : disk.HoldsClassFile place
          · exact ⟨_, .classFile isClass⟩
          · exact ⟨_, .otherFile held isClass⟩
      | folder =>
          have listed : ∀ name ∈ disk.namesIn place,
              ∃ files, disk.ListsClassFiles (place ++ [name]) files := by
            intro name nameMem
            have inside := mem_namesIn.mp nameMem
            rcases Option.isSome_iff_exists.mp inside with ⟨inner, innerHeld⟩
            have deep := bounded [name] inside
            -- An entry can lead one name less deep than the folder that holds it.
            refine ih (depth - 1) (by simp at deep; omega) innerHeld fun names deeper => ?_
            have below := bounded (name :: names) (by simpa using deeper)
            simp at below
            omega
          choose! parts listed using listed
          exact ⟨_, .folder held (fun name => mem_namesIn) ascending_namesIn listed⟩

theorem exists_listsClassFiles {node : Node} (held : disk.at? place = some node) :
    ∃ files, disk.ListsClassFiles place files := by
  apply exists_listsClassFiles_of_bounded ((disk.nodes.keys.map List.length).max?.getD 0) held
  intro names inside
  rcases Option.isSome_iff_exists.mp inside with ⟨inner, innerHeld⟩
  cases names with
  | nil => exact Nat.zero_le _
  | cons name names =>
      have keyMem := mem_keys_of_at? (by simp) innerHeld
      have longest := List.le_max?_getD_of_mem (k := 0)
        (List.mem_map_of_mem (f := List.length) keyMem)
      simp at longest ⊢
      omega

/-- What stands below a location, each entry with the names that lead to it from there. -/
def heldBelow (disk : Disk) (location : Location) : List (List String × Node) :=
  disk.nodes.toList.filterMap fun (place, node) =>
    if location.isPrefixOf place then some (place.drop location.length, node) else none

theorem entriesBelow_eq (located : disk.locate path = .ok location) :
    disk.entriesBelow path =
      (disk.heldBelow location).map fun entry => (path.below entry.1, entry.2) := by
  simp only [entriesBelow, located, heldBelow, List.map_filterMap]
  congr
  funext ⟨place, node⟩
  split
  · rfl
  · rfl

theorem mem_heldBelow (tree : disk.IsTree) {names : List String} {node : Node} :
    (names, node) ∈ disk.heldBelow location ↔
      location ++ names ≠ [] ∧ disk.at? (location ++ names) = some node := by
  rw [← tree.mem_toList_iff, heldBelow, List.mem_filterMap]
  constructor
  · rintro ⟨⟨place, held⟩, entryMem, kept⟩
    simp only [Option.ite_none_right_eq_some, List.isPrefixOf_iff_prefix, Option.some.injEq,
      Prod.mk.injEq] at kept
    rcases kept with ⟨⟨rest, rfl⟩, rfl, rfl⟩
    simpa using entryMem
  · intro entryMem
    exact ⟨_, entryMem, by simp⟩

theorem pairwise_heldBelow :
    (disk.heldBelow location).Pairwise fun first second => compare first.1 second.1 = .lt := by
  apply List.Pairwise.filterMap _ _ Std.ExtTreeMap.ordered_keys_toList
  rintro ⟨place, node⟩ ⟨other, otherNode⟩ before first kept second otherKept
  simp only [Option.ite_none_right_eq_some, List.isPrefixOf_iff_prefix,
    Option.some.injEq] at kept otherKept
  rcases kept with ⟨⟨names, rfl⟩, rfl⟩
  rcases otherKept with ⟨⟨others, rfl⟩, rfl⟩
  simpa [compare_append_append] using before

end Disk

end Coupling
