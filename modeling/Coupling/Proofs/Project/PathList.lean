import Coupling.Project
import Mathlib.Data.List.Induction

/-!
# Path lists under editing

A project lists artifacts and source folders. Each list is edited by adding and
removing paths, and paths with the same components count as one, however they are
written.

What a list holds can be told from the history of its edits alone. A path is
listed if and only if the latest edit of it was an addition. An entry was
introduced by an addition that found no such path in the list and that no removal
has undone since; it keeps the text of that addition and its place among the other
introductions.
-/

namespace Coupling

namespace Project

variable {path other : Path} {paths : List Path}

theorem removePath_eq_filter (paths : List Path) (path : Path) :
    removePath paths path = paths.filter (·.components ≠ path.components) := by
  apply List.filter_congr
  intro listed _
  by_cases same : listed.components = path.components
  · simp [Path.same, same]
  · simp [Path.same, same]

theorem removePath_of_absent (absent : ∀ listed ∈ paths, listed.components ≠ path.components) :
    removePath paths path = paths := by
  rw [removePath_eq_filter, List.filter_eq_self]
  simpa using absent

theorem removePath_cons (first : Path) (rest : List Path) :
    removePath (first :: rest) path =
      if first.components = path.components then removePath rest path
      else first :: removePath rest path := by
  by_cases same : first.components = path.components
  · simp [removePath, Path.same, same]
  · simp [removePath, Path.same, same]

/-- A path is listed, perhaps in other words. -/
def Lists (paths : List Path) (path : Path) : Prop :=
  ∃ entry ∈ paths, entry.components = path.components

theorem addPath_of_lists (present : Lists paths path) : addPath paths path = paths := by
  rw [addPath, if_pos]
  simpa [Lists, Path.same] using present

theorem addPath_of_not_lists (absent : ¬Lists paths path) :
    addPath paths path = paths ++ [path] := by
  rw [addPath, if_neg]
  simpa [Lists, Path.same] using absent

theorem lists_addPath :
    Lists (addPath paths path) other ↔ path.components = other.components ∨ Lists paths other := by
  by_cases present : Lists paths path
  · rw [addPath_of_lists present]
    constructor
    · exact Or.inr
    · rintro (same | listed)
      · rcases present with ⟨entry, entryMem, written⟩
        exact ⟨entry, entryMem, written.trans same⟩
      · exact listed
  · rw [addPath_of_not_lists present]
    simp only [Lists, List.mem_append, List.mem_singleton]
    constructor
    · rintro ⟨entry, entryMem | rfl, same⟩
      · exact Or.inr ⟨entry, entryMem, same⟩
      · exact Or.inl same
    · rintro (same | ⟨entry, entryMem, same⟩)
      · exact ⟨path, Or.inr rfl, same⟩
      · exact ⟨entry, Or.inl entryMem, same⟩

theorem lists_removePath :
    Lists (removePath paths path) other ↔
      path.components ≠ other.components ∧ Lists paths other := by
  rw [removePath_eq_filter]
  simp only [Lists, List.mem_filter, decide_eq_true_eq]
  constructor
  · rintro ⟨entry, ⟨entryMem, kept⟩, same⟩
    exact ⟨fun removed => kept (same.trans removed.symm), entry, entryMem, same⟩
  · rintro ⟨kept, entry, entryMem, same⟩
    exact ⟨entry, ⟨entryMem, fun removed => kept (removed.symm.trans same)⟩, same⟩

theorem nodup_addPath (distinct : (paths.map Path.components).Nodup) :
    ((addPath paths path).map Path.components).Nodup := by
  by_cases present : Lists paths path
  · rwa [addPath_of_lists present]
  · rw [addPath_of_not_lists present, List.map_append, List.nodup_append]
    refine ⟨distinct, by simp, ?_⟩
    intro listed listedMem added addedMem same
    rcases List.mem_map.mp listedMem with ⟨entry, entryMem, rfl⟩
    simp only [List.map_cons, List.map_nil, List.mem_singleton] at addedMem
    exact present ⟨entry, entryMem, same.trans addedMem⟩

theorem nodup_removePath (distinct : (paths.map Path.components).Nodup) :
    ((removePath paths path).map Path.components).Nodup :=
  distinct.sublist (List.filter_sublist.map Path.components)

/-- One of the two lists of a project. -/
inductive PathList where
  | artifacts
  | sources
deriving DecidableEq

/-- What is done to a list. -/
inductive Change where
  | add
  | remove
deriving DecidableEq

/-- A path that is added to a list or removed from it. -/
structure Edit where
  change : Change
  list : PathList
  path : Path

/-- The paths of a list. -/
def listed (project : Project) : PathList → List Path
  | .artifacts => project.artifactPaths
  | .sources => project.sourcePaths

/-- The project after an edit. -/
def apply (project : Project) (edit : Edit) : Project :=
  match edit.change, edit.list with
  | .add, .artifacts => project.addArtifact edit.path
  | .remove, .artifacts => project.removeArtifact edit.path
  | .add, .sources => project.addSource edit.path
  | .remove, .sources => project.removeSource edit.path

/-- A new project after some edits. -/
def edited (name : String) (edits : List Edit) : Project :=
  edits.foldl apply (ofName name)

variable {edits : List Edit} {edit : Edit} {list : PathList}

theorem edited_append (name : String) (edits : List Edit) (edit : Edit) :
    edited name (edits ++ [edit]) = (edited name edits).apply edit := by
  rw [edited, List.foldl_append]
  rfl

theorem name_apply (project : Project) (edit : Edit) : (project.apply edit).name = project.name := by
  rcases edit with ⟨_ | _, _ | _, path⟩ <;> rfl

theorem listed_apply_add (project : Project) (path : Path) :
    (project.apply ⟨.add, list, path⟩).listed list = addPath (project.listed list) path := by
  cases list <;> rfl

theorem listed_apply_remove (project : Project) (path : Path) :
    (project.apply ⟨.remove, list, path⟩).listed list = removePath (project.listed list) path := by
  cases list <;> rfl

theorem listed_apply_of_ne (project : Project) (different : edit.list ≠ list) :
    (project.apply edit).listed list = project.listed list := by
  rcases edit with ⟨_ | _, _ | _, path⟩ <;> cases list <;> first | rfl | exact absurd rfl different

/-- An edit adds a path to the list, removes one from it, or leaves it alone. -/
theorem edit_cases (edit : Edit) (list : PathList) :
    (∃ path, edit = ⟨.add, list, path⟩) ∨ (∃ path, edit = ⟨.remove, list, path⟩) ∨
      edit.list ≠ list := by
  rcases edit with ⟨change, target, path⟩
  by_cases same : target = list
  · subst same
    cases change with
    | add => exact Or.inl ⟨path, rfl⟩
    | remove => exact Or.inr (Or.inl ⟨path, rfl⟩)
  · exact Or.inr (Or.inr same)

/-- The edit is about a path in a list. -/
def Edit.concerns (edit : Edit) (list : PathList) (path : Path) : Bool :=
  edit.list = list && edit.path.same path

/-- The latest edit of a path in a list added it. -/
def LastAdded (edits : List Edit) (list : PathList) (path : Path) : Prop :=
  ∃ edit, edits.reverse.find? (·.concerns list path) = some edit ∧ edit.change = .add

/-- The edit at a position put an entry into a list where the path was not listed, and no later edit
took it out. -/
structure Introduces (edits : List Edit) (list : PathList) (position : Nat) (entry : Path) :
    Prop where
  added : edits[position]? = some ⟨.add, list, entry⟩
  fresh : ¬LastAdded (edits.take position) list entry
  stays : ∀ later ∈ edits.drop (position + 1), later.concerns list entry → later.change = .add

theorem concerns_iff :
    edit.concerns list path = true ↔
      edit.list = list ∧ edit.path.components = path.components := by
  simp [Edit.concerns, Path.same]

theorem not_lastAdded_nil : ¬LastAdded [] list path := by
  simp [LastAdded]

theorem lastAdded_append :
    LastAdded (edits ++ [edit]) list path ↔
      if edit.concerns list path then edit.change = .add else LastAdded edits list path := by
  rw [LastAdded, List.reverse_append, List.reverse_singleton, List.singleton_append]
  by_cases concerned : edit.concerns list path
  · simp [concerned]
  · simp [concerned, LastAdded]

theorem name_edited (name : String) (edits : List Edit) : (edited name edits).name = name := by
  induction edits using List.reverseRecOn with
  | nil => rfl
  | append_singleton edits edit ih => rw [edited_append, name_apply, ih]

/-- One more edit undoes introductions by a removal, and is itself one if it adds a path that is not
listed. -/
theorem introduces_append {position : Nat} {entry : Path} :
    Introduces (edits ++ [edit]) list position entry ↔
      (Introduces edits list position entry ∧
        (edit.concerns list entry → edit.change = .add)) ∨
      (position = edits.length ∧ edit = ⟨.add, list, entry⟩ ∧ ¬LastAdded edits list entry) := by
  rcases Nat.lt_trichotomy position edits.length with earlier | rfl | later
  · have kept : (edits ++ [edit]).drop (position + 1) = edits.drop (position + 1) ++ [edit] :=
      List.drop_append_of_le_length earlier
    have before : (edits ++ [edit]).take position = edits.take position :=
      List.take_append_of_le_length (Nat.le_of_lt earlier)
    constructor
    · rintro ⟨added, fresh, stays⟩
      rw [List.getElem?_append_left earlier] at added
      rw [before] at fresh
      rw [kept, List.forall_mem_append, List.forall_mem_singleton] at stays
      exact Or.inl ⟨⟨added, fresh, stays.1⟩, stays.2⟩
    · rintro (⟨⟨added, fresh, stays⟩, remains⟩ | ⟨position_eq, _⟩)
      · refine ⟨?_, ?_, ?_⟩
        · rwa [List.getElem?_append_left earlier]
        · rwa [before]
        · rw [kept, List.forall_mem_append, List.forall_mem_singleton]
          exact ⟨stays, remains⟩
      · omega
  -- The new edit itself: all of the history comes before it and nothing after it.
  · have absent : ¬Introduces edits list edits.length entry := by
      rintro ⟨added, _, _⟩
      simp at added
    simp only [absent, false_and, true_and, false_or]
    constructor
    · rintro ⟨added, fresh, _⟩
      exact ⟨by simpa using added, by simpa using fresh⟩
    · rintro ⟨rfl, fresh⟩
      exact ⟨by simp, by simpa using fresh, by simp⟩
  · constructor
    · rintro ⟨added, _, _⟩
      rw [List.getElem?_eq_none (by simp only [List.length_append, List.length_singleton]; omega)]
        at added
      cases added
    · rintro (⟨⟨added, _, _⟩, _⟩ | ⟨rfl, _⟩)
      · rw [List.getElem?_eq_none (by omega)] at added
        cases added
      · omega

/-- These are all introductions of a list, in the order of their positions. -/
structure IntroducedBy (edits : List Edit) (list : PathList) (found : List (Nat × Path)) :
    Prop where
  ascending : (found.map Prod.fst).Pairwise (· < ·)
  mem_iff : ∀ position entry, (position, entry) ∈ found ↔ Introduces edits list position entry

namespace IntroducedBy

variable {found : List (Nat × Path)} (introduced : IntroducedBy edits list found)

include introduced

theorem lt_length : ∀ position ∈ found.map Prod.fst, position < edits.length := by
  intro position positionMem
  rcases List.mem_map.mp positionMem with ⟨⟨_, entry⟩, mem, rfl⟩
  have added := ((introduced.mem_iff _ entry).mp mem).added
  exact (List.getElem?_eq_some_iff.mp added).1

/-- An edit that removes no path and adds none that is not listed. -/
theorem keep (remains : ∀ entry, edit.concerns list entry → edit.change = .add)
    (stale : ∀ entry, edit = ⟨.add, list, entry⟩ → LastAdded edits list entry) :
    IntroducedBy (edits ++ [edit]) list found := by
  refine ⟨introduced.ascending, fun position entry => ?_⟩
  rw [introduced.mem_iff, introduces_append]
  constructor
  · exact fun introduces => Or.inl ⟨introduces, remains entry⟩
  · rintro (⟨introduces, _⟩ | ⟨_, addition, fresh⟩)
    · exact introduces
    · exact absurd (stale entry addition) fresh

theorem push {added : Path} (fresh : ¬LastAdded edits list added) :
    IntroducedBy (edits ++ [⟨.add, list, added⟩]) list (found ++ [(edits.length, added)]) := by
  constructor
  · rw [List.map_append, List.pairwise_append]
    refine ⟨introduced.ascending, List.pairwise_singleton _ _, ?_⟩
    intro position positionMem last lastMem
    simp only [List.map_cons, List.map_nil, List.mem_singleton] at lastMem
    rw [lastMem]
    exact introduced.lt_length position positionMem
  · intro position entry
    rw [List.mem_append, List.mem_singleton, introduced.mem_iff, introduces_append]
    simp only [implies_true, and_true, Prod.mk.injEq, Edit.mk.injEq, true_and]
    constructor
    · rintro (introduces | ⟨position_eq, rfl⟩)
      · exact Or.inl introduces
      · exact Or.inr ⟨position_eq, rfl, fresh⟩
    · rintro (introduces | ⟨position_eq, rfl, _⟩)
      · exact Or.inl introduces
      · exact Or.inr ⟨position_eq, rfl⟩

theorem drop (removed : Path) :
    IntroducedBy (edits ++ [⟨.remove, list, removed⟩]) list
      (found.filter fun introduction => introduction.2.components ≠ removed.components) := by
  constructor
  · exact introduced.ascending.sublist (List.filter_sublist.map Prod.fst)
  · intro position entry
    rw [List.mem_filter, introduced.mem_iff, introduces_append, decide_eq_true_eq]
    constructor
    · rintro ⟨introduces, kept⟩
      refine Or.inl ⟨introduces, fun concerned => ?_⟩
      exact absurd (concerns_iff.mp concerned).2.symm kept
    · rintro (⟨introduces, remains⟩ | ⟨_, addition, _⟩)
      · refine ⟨introduces, fun same => ?_⟩
        cases remains (concerns_iff.mpr ⟨rfl, same.symm⟩)
      · cases addition

end IntroducedBy

/-- A list is what the edits make of it: it holds no path twice, the paths whose latest edit added
them, and the entries that were introduced. -/
structure Follows (edits : List Edit) (list : PathList) (paths : List Path) : Prop where
  distinct : (paths.map Path.components).Nodup
  lists_iff : ∀ path, Lists paths path ↔ LastAdded edits list path
  introduced : ∃ found, IntroducedBy edits list found ∧ found.map Prod.snd = paths

namespace Follows

theorem start (list : PathList) : Follows [] list [] := by
  refine ⟨List.nodup_nil, ?_, [], ⟨List.Pairwise.nil, ?_⟩, rfl⟩
  · intro path
    simp [Lists, not_lastAdded_nil]
  · intro position entry
    constructor
    · simp
    · rintro ⟨added, _, _⟩
      simp at added

variable (follows : Follows edits list paths)

include follows

theorem add (added : Path) : Follows (edits ++ [⟨.add, list, added⟩]) list (addPath paths added) := by
  refine ⟨nodup_addPath follows.distinct, ?_, ?_⟩
  · intro path
    rw [lists_addPath, lastAdded_append, follows.lists_iff]
    by_cases same : added.components = path.components
    · simp [concerns_iff, same]
    · simp [concerns_iff, same]
  · rcases follows.introduced with ⟨found, introduced, entries⟩
    by_cases present : Lists paths added
    · refine ⟨found, introduced.keep (fun _ _ => rfl) ?_, ?_⟩
      · intro entry addition
        cases addition
        exact (follows.lists_iff added).mp present
      · rw [addPath_of_lists present, entries]
    · have fresh : ¬LastAdded edits list added := by rwa [← follows.lists_iff]
      refine ⟨_, introduced.push fresh, ?_⟩
      rw [addPath_of_not_lists present, List.map_append, entries]
      rfl

theorem remove (removed : Path) :
    Follows (edits ++ [⟨.remove, list, removed⟩]) list (removePath paths removed) := by
  refine ⟨nodup_removePath follows.distinct, ?_, ?_⟩
  · intro path
    rw [lists_removePath, lastAdded_append, follows.lists_iff]
    by_cases same : removed.components = path.components
    · simp [concerns_iff, same]
    · simp [concerns_iff, same]
  · rcases follows.introduced with ⟨found, introduced, rfl⟩
    refine ⟨_, introduced.drop removed, ?_⟩
    rw [removePath_eq_filter, List.filter_map]
    rfl

theorem elsewhere (different : edit.list ≠ list) : Follows (edits ++ [edit]) list paths := by
  refine ⟨follows.distinct, ?_, ?_⟩
  · intro path
    rw [follows.lists_iff, lastAdded_append, if_neg]
    exact fun concerned => different (concerns_iff.mp concerned).1
  · rcases follows.introduced with ⟨found, introduced, entries⟩
    refine ⟨found, introduced.keep ?_ ?_, entries⟩
    · exact fun _ concerned => absurd (concerns_iff.mp concerned).1 different
    · rintro entry rfl
      exact absurd rfl different

end Follows

theorem follows_edited (name : String) (edits : List Edit) (list : PathList) :
    Follows edits list ((edited name edits).listed list) := by
  induction edits using List.reverseRecOn with
  | nil => cases list <;> exact .start _
  | append_singleton edits edit ih =>
      rw [edited_append]
      rcases edit_cases edit list with ⟨added, rfl⟩ | ⟨removed, rfl⟩ | different
      · rw [listed_apply_add]
        exact ih.add added
      · rw [listed_apply_remove]
        exact ih.remove removed
      · rw [listed_apply_of_ne _ different]
        exact ih.elsewhere different

/-- However a new project is edited, each of its lists holds no path twice, a path is listed if and
only if its latest edit in that list added it, and the entries are the paths of the additions that
introduced them, as written there and in that order. Editing one list changes neither the other nor
the name. -/
theorem path_lists_follow_edits (name : String) (edits : List Edit) (list : PathList) :
    (((edited name edits).listed list).map Path.components).Nodup ∧
    (∀ path, (∃ entry ∈ (edited name edits).listed list, entry.components = path.components) ↔
      LastAdded edits list path) ∧
    (∃ introductions : List (Nat × Path),
      (introductions.map Prod.fst).Pairwise (· < ·) ∧
      (∀ position entry, (position, entry) ∈ introductions ↔
        Introduces edits list position entry) ∧
      introductions.map Prod.snd = (edited name edits).listed list) ∧
    (edited name edits).name = name ∧
    ∀ change path,
      ((edited name edits).apply ⟨change, .artifacts, path⟩).sourcePaths =
        (edited name edits).sourcePaths ∧
      ((edited name edits).apply ⟨change, .sources, path⟩).artifactPaths =
        (edited name edits).artifactPaths := by
  have follows := follows_edited name edits list
  rcases follows.introduced with ⟨found, introduced, entries⟩
  refine ⟨follows.distinct, follows.lists_iff,
    ⟨found, introduced.ascending, introduced.mem_iff, entries⟩, name_edited name edits, ?_⟩
  intro change path
  cases change <;> exact ⟨rfl, rfl⟩

-- The removal makes room for the last addition, whose text is listed after the path in between.
example :
    (edited "demo" [⟨.add, .artifacts, ⟨"a//b"⟩⟩, ⟨.add, .artifacts, ⟨"./a"⟩⟩,
      ⟨.add, .artifacts, ⟨"a/b/"⟩⟩, ⟨.add, .sources, ⟨"a/b"⟩⟩, ⟨.remove, .artifacts, ⟨"a/./b"⟩⟩,
      ⟨.add, .artifacts, ⟨"a/b/."⟩⟩]) =
      ⟨"demo", [⟨"./a"⟩, ⟨"a/b/."⟩], [⟨"a/b"⟩]⟩ := by
  decide +kernel

end Project

end Coupling
