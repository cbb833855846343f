import Coupling.Path

/-!
# Segments of paths

Of the texts between the slashes of a path, those that are empty or a single dot
stand still. A path that is joined to another one adds its own components to
those of the other. The path above a path that ends in a name keeps the other
texts apart from that name, and starts at the same folder.
-/

namespace Coupling.Path

variable {path : Path}

/-- The segments that do not stand still. -/
def solid (segments : List String) : List String :=
  segments.filter fun segment => !isIdle segment

theorem components_eq (path : Path) :
    path.components = (if path.isAbsolute then [.root]
      else if path.segments.head? == some "." then [.here] else []) ++
        (solid path.segments).map componentOf :=
  rfl

theorem solid_append (front back : List String) :
    solid (front ++ back) = solid front ++ solid back :=
  List.filter_append front back

theorem not_mem_of_mem_splitOn {c : Char} {text piece : List Char}
    (pieceMem : piece ∈ text.splitOn c) : c ∉ piece := by
  induction text generalizing piece with
  | nil =>
      simp only [List.splitOn_nil, List.mem_singleton] at pieceMem
      simp [pieceMem]
  | cons first rest ih =>
      rw [List.splitOn_cons_eq_if_modifyHead] at pieceMem
      split at pieceMem
      · rcases List.mem_cons.mp pieceMem with rfl | pieceMem
        · simp
        · exact ih pieceMem
      · next other =>
          rcases List.exists_cons_of_ne_nil (List.splitOn_ne_nil c rest) with ⟨head, tail, pieces⟩
          rw [pieces, List.modifyHead_cons] at pieceMem
          rcases List.mem_cons.mp pieceMem with rfl | pieceMem
          · have differs : c ≠ first := by
              rintro rfl
              simp at other
            exact List.not_mem_cons_of_ne_of_not_mem differs (ih (pieces ▸ List.mem_cons_self))
          · exact ih (pieces ▸ List.mem_cons_of_mem head pieceMem)

theorem slash_not_mem_of_mem_segments {segment : String} (segmentMem : segment ∈ path.segments) :
    '/' ∉ segment.toList := by
  rcases List.mem_map.mp segmentMem with ⟨piece, pieceMem, rfl⟩
  simpa using not_mem_of_mem_splitOn pieceMem

theorem segments_ofSegments {segments : List String} (nonempty : segments ≠ [])
    (whole : ∀ segment ∈ segments, '/' ∉ segment.toList) :
    (ofSegments segments).segments = segments := by
  have split : (['/'].intercalate (segments.map String.toList)).splitOn '/' =
      segments.map String.toList := by
    apply List.splitOn_intercalate
    · simpa using whole
    · simpa using nonempty
  simp [Path.segments, ofSegments, split, Function.comp_def]

theorem ofSegments_segments (path : Path) : ofSegments path.segments = path := by
  simp [ofSegments, segments, Function.comp_def, List.intercalate_splitOn]

theorem solid_segments_ofSegments {segments : List String}
    (whole : ∀ segment ∈ segments, '/' ∉ segment.toList) :
    solid (ofSegments segments).segments = solid segments := by
  by_cases nonempty : segments = []
  · subst nonempty
    decide
  · rw [segments_ofSegments nonempty whole]

theorem isAbsolute_iff : path.isAbsolute ↔ ∃ next rest, path.segments = "" :: next :: rest := by
  rw [isAbsolute, segments]
  cases path.text.toList with
  | nil => simp
  | cons first rest =>
      rcases List.exists_cons_of_ne_nil (List.splitOn_ne_nil '/' rest) with ⟨head, tail, pieces⟩
      rw [List.splitOn_cons_eq_if_modifyHead, pieces]
      by_cases slash : first = '/'
      · simp [slash]
      · simp [slash]

section Join

variable {tail : Path} (relative : tail.isAbsolute = false)

include relative

theorem text_join (path : Path) : (path.join tail).text = path.text ++ tail.text ∨
    (path.join tail).text = path.text ++ ("/" ++ tail.text) := by
  rw [join, if_neg (by simp [relative])]
  split
  · exact .inl rfl
  · exact .inr String.append_assoc

/-- The segments of the tail come after those of the path, of which an empty one at the end is
dropped. -/
theorem segments_join (path : Path) : ∃ front, (path.join tail).segments = front ++ tail.segments ∧
    (path.segments = front ∨ path.segments = front ++ [""]) := by
  rw [join, if_neg (by simp [relative])]
  split
  · next ends =>
      rcases Bool.or_eq_true _ _ ▸ ends with empty | slash
      · refine ⟨[], ?_, .inr ?_⟩
        · simp [segments, String.isEmpty_iff.mp empty]
        · simp [segments, String.isEmpty_iff.mp empty]
      · rcases List.getLast?_eq_some_iff.mp (beq_iff_eq.mp slash) with ⟨front, text_eq⟩
        refine ⟨(front.splitOn '/').map String.ofList, ?_, .inr ?_⟩
        · simp [segments, text_eq, List.splitOn_append_cons_self]
        · simp [segments, text_eq, List.splitOn_append_cons_self]
  · refine ⟨path.segments, ?_, .inl rfl⟩
    simp [segments, List.splitOn_append_cons_self]

theorem isAbsolute_join (nonempty : path.text ≠ "") :
    (path.join tail).isAbsolute = path.isAbsolute := by
  have started : path.text.toList ≠ [] := by simpa using nonempty
  rcases List.exists_cons_of_ne_nil started with ⟨first, rest, text_eq⟩
  rcases text_join relative path with joined | joined
  · simp [isAbsolute, joined, text_eq]
  · simp [isAbsolute, joined, text_eq]

/-- The components of a tail that does not start with a single dot come after those of the
path. -/
theorem components_join (undotted : tail.segments.head? ≠ some ".") (path : Path) :
    (path.join tail).components = path.components ++ tail.components := by
  by_cases empty : path.text = ""
  · have nothing : path.components = [] := by simp [components, isAbsolute, segments, isIdle, empty]
    have onlyTail : path.join tail = tail := by simp [join, relative, empty]
    simp [nothing, onlyTail]
  · rcases segments_join relative path with ⟨front, joined, kept⟩
    have started : front ≠ [] := by
      rintro rfl
      rcases kept with none | only
      · simp [segments] at none
      · apply empty
        rw [← path.ofSegments_segments, only]
        rfl
    rcases List.exists_cons_of_ne_nil started with ⟨first, others, rfl⟩
    have heads : (path.join tail).segments.head? = path.segments.head? := by
      rcases kept with same | idle
      · simp [joined, same]
      · simp [joined, idle]
    have solids : solid (path.join tail).segments = solid path.segments ++ solid tail.segments := by
      rcases kept with same | idle
      · rw [joined, same, solid_append]
      · rw [joined, idle, solid_append, solid_append (first :: others)]
        simp [solid, isIdle]
    simp [components_eq, isAbsolute_join relative empty, heads, solids, relative, undotted]

end Join

theorem trimIdle_suffix (segments : List String) : trimIdle segments <:+ segments := by
  fun_induction trimIdle segments with
  | case1 => exact List.suffix_refl _
  | case2 segment rest _ _ ih => exact ih.trans (List.suffix_cons segment rest)
  | case3 => exact List.suffix_refl _
  | case4 => exact List.suffix_refl _

theorem trimIdle_cons {segment : String} (moves : isIdle segment = false) (rest : List String) :
    trimIdle (segment :: rest) = segment :: rest := by
  rw [trimIdle]
  · simp [moves]
  · rintro rfl
    simp [isIdle] at moves

theorem solid_trimIdle (segments : List String) : solid (trimIdle segments) = solid segments := by
  fun_induction trimIdle segments with
  | case1 => rfl
  | case2 segment rest _ idle ih => simpa [solid, idle] using ih
  | case3 => rfl
  | case4 => rfl

theorem solid_dropWhile_isIdle (segments : List String) :
    solid (segments.dropWhile isIdle) = solid segments := by
  induction segments with
  | nil => rfl
  | cons segment rest ih =>
      by_cases idle : isIdle segment
      · simpa [solid, idle] using ih
      · simp [idle]

theorem solid_reverse (segments : List String) :
    solid segments.reverse = (solid segments).reverse :=
  List.filter_reverse

theorem orRoot_ne_nil (segments : List String) : orRoot segments ≠ [] := by
  cases segments <;> simp [orRoot]

theorem solid_orRoot (segments : List String) : solid (orRoot segments) = solid segments := by
  cases segments <;> rfl

theorem mem_orRoot {segments : List String} {segment : String}
    (segmentMem : segment ∈ orRoot segments) : segment = "" ∨ segment ∈ segments := by
  cases segments with
  | nil => simpa [orRoot] using segmentMem
  | cons first rest => exact .inr segmentMem

section Parent

variable {front : List String} {name : String} (segments_eq : path.segments = front ++ [name])
  (moves : isIdle name = false)

include segments_eq

theorem slash_not_mem_of_mem_front {segment : String} (segmentMem : segment ∈ front) :
    '/' ∉ segment.toList := by
  have inPath : segment ∈ path.segments := by simp [segments_eq, segmentMem]
  exact slash_not_mem_of_mem_segments inPath

include moves

theorem parent?_of_relative (relative : path.isAbsolute = false) :
    ∃ parent, path.parent? = some parent ∧ solid parent.segments = solid front ∧
      parent.isAbsolute = false := by
  have trimmed : trimIdle path.segments.reverse = name :: front.reverse := by
    simp [segments_eq, trimIdle_cons moves]
  have kept : (trimIdle front.reverse).reverse <+: front := by
    simpa using List.reverse_prefix.mpr (trimIdle_suffix front.reverse)
  have whole : ∀ segment ∈ (trimIdle front.reverse).reverse, '/' ∉ segment.toList := by
    intro segment segmentMem
    exact slash_not_mem_of_mem_front segments_eq (kept.subset segmentMem)
  refine ⟨ofSegments (trimIdle front.reverse).reverse, ?_, ?_, ?_⟩
  · simp [parent?, relative, trimmed]
  · rw [solid_segments_ofSegments whole, solid_reverse, solid_trimIdle, ← solid_reverse,
      List.reverse_reverse]
  · rw [Bool.eq_false_iff]
    intro absolute
    rcases isAbsolute_iff.mp absolute with ⟨next, rest, split⟩
    have nonempty : (trimIdle front.reverse).reverse ≠ [] := by
      intro none
      have single : (ofSegments []).segments = [""] := by decide
      rw [none, single] at split
      simp at split
    rw [segments_ofSegments nonempty whole] at split
    rcases kept with ⟨more, front_eq⟩
    have started : path.isAbsolute := by
      apply isAbsolute_iff.mpr
      refine ⟨next, rest ++ more ++ [name], ?_⟩
      rw [segments_eq, ← front_eq, split]
      simp
    simp [relative] at started

theorem parent?_of_absolute (absolute : path.isAbsolute = true) :
    ∃ parent, path.parent? = some parent ∧ solid parent.segments = solid front ∧
      parent.isAbsolute = true := by
  rcases isAbsolute_iff.mp absolute with ⟨next, rest, split⟩
  rw [segments_eq] at split
  cases front with
  | nil => simp at split
  | cons first middle =>
      obtain rfl : first = "" := by
        simp only [List.cons_append, List.cons.injEq] at split
        exact split.1
      have trimmed : path.segments.tail.reverse.dropWhile isIdle = name :: middle.reverse := by
        simp [segments_eq, moves]
      have whole : ∀ segment ∈ "" :: orRoot (middle.reverse.dropWhile isIdle).reverse,
          '/' ∉ segment.toList := by
        intro segment segmentMem
        apply slash_not_mem_of_mem_front segments_eq
        rcases List.mem_cons.mp segmentMem with rfl | segmentMem
        · exact List.mem_cons_self
        rcases mem_orRoot segmentMem with rfl | segmentMem
        · exact List.mem_cons_self
        · have kept := List.dropWhile_subset isIdle (List.mem_reverse.mp segmentMem)
          exact List.mem_cons_of_mem _ (List.mem_reverse.mp kept)
      refine ⟨ofSegments ("" :: orRoot (middle.reverse.dropWhile isIdle).reverse), ?_, ?_, ?_⟩
      · simp [parent?, absolute, trimmed]
      · have same : solid (orRoot (middle.reverse.dropWhile isIdle).reverse) = solid middle := by
          rw [solid_orRoot, solid_reverse, solid_dropWhile_isIdle, ← solid_reverse,
            List.reverse_reverse]
        rw [solid_segments_ofSegments whole]
        exact same
      · apply isAbsolute_iff.mpr
        rw [segments_ofSegments (List.cons_ne_nil _ _) whole]
        rcases List.exists_cons_of_ne_nil (orRoot_ne_nil (middle.reverse.dropWhile isIdle).reverse)
          with ⟨next, rest, kept⟩
        exact ⟨next, rest, by rw [kept]⟩

/-- The path above a path that ends in a name. -/
theorem parent?_of_segments :
    ∃ parent, path.parent? = some parent ∧ solid parent.segments = solid front ∧
      parent.isAbsolute = path.isAbsolute := by
  cases absolute : path.isAbsolute with
  | false => exact parent?_of_relative segments_eq moves absolute
  | true => exact parent?_of_absolute segments_eq moves absolute

end Parent

end Coupling.Path
