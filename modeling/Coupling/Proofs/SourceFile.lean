import Mathlib.Data.List.Induction
import Coupling.SourceFile
import Coupling.Proofs.Disk.Tree
import Coupling.Proofs.Name
import Coupling.Proofs.Name.Parts

/-!
# Paths of source files

The path of the source of a class is put together from the parts of its name,
one folder after the other, and then gets an extension. Joining could leave out
or restart the path at a part that is empty or starts with a slash, and the
extension could cut the last part at a dot. Parts without slashes that are not
empty are kept whole, so that the path spells the name, and different names lead
to different paths below any folder.
-/

namespace Coupling

namespace Path

variable {path : Path} {names front : List String} {name : String}

/-- A segment that is not made of dots is an entry of its own. -/
theorem moves_of_mem {c : Char} (charMem : c ∈ name.toList) (notDot : c ≠ '.') :
    isIdle name = false ∧ name ≠ ".." := by
  have notDots : name ≠ "" ∧ name ≠ "." ∧ name ≠ ".." := by
    refine ⟨?_, ?_, ?_⟩ <;> rintro rfl <;> simp [notDot] at charMem
  simp [isIdle, notDots]

theorem moves_of_dotless (nonempty : name ≠ "") (dotless : '.' ∉ name.toList) :
    isIdle name = false ∧ name ≠ ".." := by
  rcases List.exists_mem_of_ne_nil name.toList (by simpa using nonempty) with ⟨c, charMem⟩
  apply moves_of_mem charMem
  rintro rfl
  exact dotless charMem

/-- Names that are not empty and have no slashes are the segments of the path they lead along. -/
theorem below_empty (proper : ∀ name ∈ names, name ≠ "" ∧ '/' ∉ name.toList) :
    (Path.mk "").below names = ofSegments names := by
  induction names using List.reverseRecOn with
  | nil => rfl
  | append_singleton front name ih =>
      have properFront : ∀ name ∈ front, name ≠ "" ∧ '/' ∉ name.toList :=
        fun name nameMem => proper name (List.mem_append_left _ nameMem)
      have slashFree : '/' ∉ name.toList := (proper name (by simp)).2
      rw [below_concat, ih properFront]
      by_cases started : front = []
      · subst started
        simp [ofSegments, join, not_isAbsolute_of_slashFree slashFree]
      · have kept : (ofSegments front).segments = front :=
          segments_ofSegments started fun name nameMem => (properFront name nameMem).2
        rw [← ofSegments_segments (join _ _)]
        rcases segments_join_name slashFree (ofSegments front) with ⟨before, joined, same | idle⟩
        · rw [joined, ← same, kept]
        · -- An empty segment is dropped only if the path ends in a slash.
          rw [kept] at idle
          exact absurd rfl (properFront "" (by simp [idle])).1

theorem components_ofSegments (nonempty : names ≠ [])
    (proper : ∀ name ∈ names, isIdle name = false ∧ name ≠ ".." ∧ '/' ∉ name.toList) :
    (ofSegments names).components = names.map .entry := by
  have kept : (ofSegments names).segments = names :=
    segments_ofSegments nonempty fun name nameMem => (proper name nameMem).2.2
  have solids : solid names = names := by
    apply List.filter_eq_self.mpr
    intro name nameMem
    simp [(proper name nameMem).1]
  have entries : names.map componentOf = names.map .entry := by
    apply List.map_congr_left
    intro name nameMem
    simp [componentOf, (proper name nameMem).2.1]
  have relative : (ofSegments names).isAbsolute = false := by
    rw [Bool.eq_false_iff]
    intro absolute
    rcases isAbsolute_iff.mp absolute with ⟨next, others, shape⟩
    rw [kept] at shape
    exact absurd (proper "" (by simp [shape])).1 (by decide)
  have undotted : names.head? ≠ some "." := by
    intro dotted
    exact absurd (proper "." (List.mem_of_mem_head? dotted)).1 (by decide)
  simp [components_eq, kept, solids, entries, relative, undotted]

theorem components_join_of_entries {tail : Path} (entries : tail.components = names.map .entry)
    (path : Path) : (path.join tail).components = path.components ++ tail.components := by
  cases absolute : tail.isAbsolute with
  | true => cases names <;> simp [components_eq, absolute] at entries
  | false =>
      apply components_join absolute
      intro dotted
      cases names <;> simp [components_eq, absolute, dotted] at entries

section Extension

variable (segments_eq : path.segments = front ++ [name]) (nonempty : name ≠ "")
  (dotless : '.' ∉ name.toList)

include segments_eq nonempty dotless

/-- A last name without a dot stays as it is before the extension. -/
theorem withExtension_of_dotless (extension : String) :
    path.withExtension extension = ofSegments (front ++ [name ++ "." ++ extension]) := by
  rcases moves_of_dotless nonempty dotless with ⟨moves, notUp⟩
  have named : path.fileName? = some name := by
    simp [fileName?, components, segments_eq, moves, componentOf, notUp]
  have uncut : splitExtension name = (name, none) := by
    have dropped := Name.dropWhile_of_absent dotless []
    simp only [List.append_nil, List.dropWhile_nil] at dropped
    simp [splitExtension, dropped]
  have trimmed : trimIdle path.segments.reverse = name :: front.reverse := by
    simp [segments_eq, trimIdle_cons moves]
  simp [withExtension, fileStem?, named, uncut, trimmed]

end Extension

theorem intercalate_concat_append (mark : Char) (front : List (List Char)) (last more : List Char) :
    [mark].intercalate (front ++ [last ++ more]) =
      [mark].intercalate (front ++ [last]) ++ more := by
  induction front with
  | nil => simp
  | cons first rest ih =>
      cases rest with
      | nil => simp [List.intercalate_cons_cons]
      | cons second rest =>
          simp only [List.cons_append, List.intercalate_cons_cons] at ih ⊢
          simp [ih]

end Path

namespace Name

theorem intercalate_splitOn_eq_map (mark other : Char) (text : List Char) :
    [other].intercalate (text.splitOn mark) = text.map fun c => if c = mark then other else c := by
  induction text with
  | nil => simp
  | cons c rest ih =>
      rcases List.exists_cons_of_ne_nil (List.splitOn_ne_nil mark rest) with ⟨head, tail, pieces⟩
      rw [pieces] at ih
      rw [List.splitOn_cons_eq_if_modifyHead, pieces]
      by_cases isMark : c = mark
      · simp [isMark, List.intercalate_cons_cons, ih]
      · have longer : [other].intercalate ((c :: head) :: tail) =
            c :: [other].intercalate (head :: tail) := by
          cases tail <;> simp [List.intercalate_cons_cons]
        simp [isMark, longer, ih]

end Name

namespace SourceFile

open Name (parts)

variable {name first second : ClassName}

/-- The parts of the name can be names of folders and files. -/
def HasPlainParts (name : ClassName) : Prop :=
  ∀ part ∈ parts name, part ≠ "" ∧ '/' ∉ part.toList

instance : DecidablePred HasPlainParts := fun name =>
  inferInstanceAs (Decidable (∀ part ∈ parts name, _))

theorem dot_not_mem_part {part : String} (partMem : part ∈ parts name) : '.' ∉ part.toList := by
  rcases List.mem_map.mp partMem with ⟨piece, pieceMem, rfl⟩
  simpa using Path.not_mem_of_mem_splitOn pieceMem

/-- The parts of the name are the segments of the path, and the last one carries the extension. -/
theorem exists_relativePath (plain : HasPlainParts name) :
    ∃ front last, parts name = front ++ [last] ∧
      relativePath name = Path.ofSegments (front ++ [last ++ ".java"]) := by
  have nonempty : parts name ≠ [] := by simp [parts, List.splitOn_ne_nil]
  rcases List.eq_nil_or_concat (parts name) with none | ⟨front, last, shape⟩
  · exact absurd none nonempty
  rw [List.concat_eq_append] at shape
  refine ⟨front, last, shape, ?_⟩
  have lastMem : last ∈ parts name := by simp [shape]
  have along : (Path.mk "").below (parts name) = Path.ofSegments (front ++ [last]) := by
    rw [Path.below_empty plain, shape]
  have kept : (Path.ofSegments (front ++ [last])).segments = front ++ [last] := by
    apply Path.segments_ofSegments (by simp)
    intro part partMem
    exact (plain part (shape ▸ partMem)).2
  change ((Path.mk "").below (parts name)).withExtension "java" = _
  rw [along, Path.withExtension_of_dotless kept (plain last lastMem).1 (dot_not_mem_part lastMem)]
  simp [String.append_assoc]

theorem text_relativePath (plain : HasPlainParts name) :
    (relativePath name).text = (name.map fun c => if c = '.' then '/' else c) ++ ".java" := by
  rcases exists_relativePath plain with ⟨front, last, shape, path_eq⟩
  have pieces : (front ++ [last]).map String.toList = name.toList.splitOn '.' := by
    simp [← shape, parts, Function.comp_def]
  apply String.toList_injective
  simp only [path_eq, Path.ofSegments, List.map_append, List.map_cons, List.map_nil,
    String.toList_append, String.toList_ofList, String.toList_map,
    Path.intercalate_concat_append] at pieces ⊢
  rw [pieces, Name.intercalate_splitOn_eq_map]

theorem components_relativePath (plain : HasPlainParts name) :
    ∃ front last, parts name = front ++ [last] ∧
      (relativePath name).components = (front ++ [last ++ ".java"]).map .entry := by
  rcases exists_relativePath plain with ⟨front, last, shape, path_eq⟩
  refine ⟨front, last, shape, ?_⟩
  rw [path_eq]
  apply Path.components_ofSegments (by simp)
  intro segment segmentMem
  rcases List.mem_append.mp segmentMem with inFront | isLast
  · have partMem : segment ∈ parts name := by simp [shape, inFront]
    rcases plain segment partMem with ⟨nonempty, slashFree⟩
    rcases Path.moves_of_dotless nonempty (dot_not_mem_part partMem) with ⟨moves, notUp⟩
    exact ⟨moves, notUp, slashFree⟩
  · rw [List.mem_singleton] at isLast
    have slashFree : '/' ∉ last.toList := (plain last (by simp [shape])).2
    have letter : 'j' ∈ segment.toList := by simp [isLast]
    rcases Path.moves_of_mem letter (by decide) with ⟨moves, notUp⟩
    exact ⟨moves, notUp, by simp [isLast, slashFree]⟩

theorem eq_of_components (firstPlain : HasPlainParts first) (secondPlain : HasPlainParts second)
    (same : (relativePath first).components = (relativePath second).components) :
    first = second := by
  rcases components_relativePath firstPlain with ⟨front, last, shape, along⟩
  rcases components_relativePath secondPlain with ⟨otherFront, otherLast, otherShape, otherAlong⟩
  rw [along, otherAlong] at same
  have segments := List.map_injective_iff.mpr (fun _ _ => Path.Component.entry.inj) same
  rcases List.append_inj' segments rfl with ⟨sameFront, sameLast⟩
  have lastParts : last = otherLast := by simpa [String.append_left_inj] using sameLast
  apply Name.parts_injective
  rw [shape, otherShape, sameFront, lastParts]

/-- The path of the source of a class spells the name of the class, with slashes for dots.
Different classes have different paths, also as seen from any source folder. -/
theorem source_paths_tell_classes :
    (∀ name : ClassName, HasPlainParts name →
      (relativePath name).text = (name.map fun c => if c = '.' then '/' else c) ++ ".java") ∧
    ∀ first second : ClassName, HasPlainParts first → HasPlainParts second → first ≠ second →
      (relativePath first).same (relativePath second) = false ∧
      ∀ root : Path,
        (root.join (relativePath first)).same (root.join (relativePath second)) = false := by
  refine ⟨fun _ plain => text_relativePath plain, ?_⟩
  intro first second firstPlain secondPlain different
  have apart : (relativePath first).components ≠ (relativePath second).components :=
    fun same => different (eq_of_components firstPlain secondPlain same)
  refine ⟨by simpa [Path.same] using apart, ?_⟩
  intro root
  rcases components_relativePath firstPlain with ⟨_, _, _, entries⟩
  rcases components_relativePath secondPlain with ⟨_, _, _, otherEntries⟩
  simpa [Path.same, Path.components_join_of_entries entries,
    Path.components_join_of_entries otherEntries] using apart

/-- A nested class and a class of a nested package, seen from a folder with a trailing slash. -/
theorem source_paths_of_namesakes :
    HasPlainParts "app.Kern.Größe" ∧ HasPlainParts "app.Kern$Größe" ∧
      (relativePath "app.Kern.Größe").text = "app/Kern/Größe.java" ∧
      ((Path.mk "./src/").join (relativePath "app.Kern.Größe")).same
        ((Path.mk "./src/").join (relativePath "app.Kern$Größe")) = false := by
  have nested : HasPlainParts "app.Kern.Größe" := by decide +kernel
  have plain : HasPlainParts "app.Kern$Größe" := by decide +kernel
  refine ⟨nested, plain, ?_, ?_⟩
  · rw [source_paths_tell_classes.1 _ nested]
    decide +kernel
  · exact (source_paths_tell_classes.2 _ _ nested plain (by decide)).2 _

end SourceFile

end Coupling
