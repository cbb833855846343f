import Coupling.Proofs.Report.Names
import Std.Data.String.ToNat

/-!
# Reading reports back

The text of a report gives back what it shows: the counts, the graph with its
isolated nodes, the cycles and the names that collide. A section consists of
lines that start with a blank, and the next section starts with an empty line, so
a section ends where its lines end. In a line, a name ends before the first mark
that no name has.

Two things are printed alike and need care. A list without names and the list of
one empty name are joined to the same text; a node without targets has no arrow,
and the path of a cycle repeats its first name, so only a colliding name without
classes could be mistaken.
-/

namespace Coupling.Report

section

variable {mark : Char} {first second rest other : List Char}

/-- A text that lacks a mark is cut off where the mark comes first. -/
theorem cut_inj (firstLacks : mark ∉ first) (secondLacks : mark ∉ second)
    (same : first ++ mark :: rest = second ++ mark :: other) :
    first = second ∧ rest = other := by
  induction first generalizing second with
  | nil =>
      cases second with
      | nil => simpa using same
      | cons char chars =>
          have heads : mark = char := (List.cons.inj same).1
          simp [heads] at secondLacks
  | cons char chars ih =>
      cases second with
      | nil =>
          have heads : char = mark := (List.cons.inj same).1
          simp [heads] at firstLacks
      | cons char' chars' =>
          simp only [List.cons_append, List.cons.injEq] at same
          simp only [List.mem_cons, not_or] at firstLacks secondLacks
          rcases ih firstLacks.2 secondLacks.2 same.2 with ⟨texts, rests⟩
          exact ⟨by rw [same.1, texts], rests⟩

theorem append_stop_ne_cut {stop : Char} (lacks : mark ∉ first) (different : mark ≠ stop) :
    first ++ [stop] ≠ second ++ mark :: rest := by
  intro same
  have found : mark ∈ first ++ [stop] := by simp [same]
  simp [lacks, different] at found

theorem cut_number_inj {number number' : Nat} (noDigit : mark.isDigit = false)
    (same : number.repr.toList ++ mark :: rest = number'.repr.toList ++ mark :: other) :
    number = number' ∧ rest = other := by
  rcases cut_inj (Lacks.repr noDigit number) (Lacks.repr noDigit number') same with
    ⟨digits, rests⟩
  exact ⟨Nat.repr_inj.mp (String.toList_inj.mp digits), rests⟩

theorem intercalate_inj {between : List Char} {names names' : List (List Char)}
    (namesLack : ∀ name ∈ names, mark ∉ name) (namesLack' : ∀ name ∈ names', mark ∉ name)
    (some_name : names ≠ []) (some_name' : names' ≠ [])
    (same : (mark :: between).intercalate names = (mark :: between).intercalate names') :
    names = names' := by
  induction names generalizing names' with
  | nil => exact absurd rfl some_name
  | cons name more ih =>
      cases names' with
      | nil => exact absurd rfl some_name'
      | cons name' more' =>
          rw [List.forall_mem_cons] at namesLack namesLack'
          cases more with
          | nil =>
              cases more' with
              | nil => simpa using same
              | cons next' later' =>
                  have found : mark ∈ name := by
                    rw [List.intercalate_singleton, List.intercalate_cons_cons] at same
                    simp [same]
                  exact absurd found namesLack.1
          | cons next later =>
              cases more' with
              | nil =>
                  have found : mark ∈ name' := by
                    rw [List.intercalate_singleton, List.intercalate_cons_cons] at same
                    simp [← same]
                  exact absurd found namesLack'.1
              | cons next' later' =>
                  simp only [List.intercalate_cons_cons, List.append_assoc,
                    List.cons_append] at same
                  rcases cut_inj namesLack.1 namesLack'.1 same with ⟨heads, tails⟩
                  have others := ih namesLack.2 namesLack'.2 (by simp) (by simp)
                    (List.append_cancel_left tails)
                  rw [heads, others]

end

theorem join_inj {between : String} (mark : Char) {tail : List Char} {names names' : List String}
    (spelled : between.toList = mark :: tail) (namesLack : ∀ name ∈ names, Lacks mark name)
    (namesLack' : ∀ name ∈ names', Lacks mark name) (some_name : names ≠ [])
    (some_name' : names' ≠ []) (same : between.intercalate names = between.intercalate names') :
    names = names' := by
  have chars := congrArg String.toList same
  rw [String.toList_intercalate, String.toList_intercalate, spelled] at chars
  rw [← List.map_inj_right fun _ _ => String.toList_inj.mp]
  apply intercalate_inj _ _ (by simpa using some_name) (by simpa using some_name') chars
  · simpa [Lacks] using namesLack
  · simpa [Lacks] using namesLack'

/-- The text starts with a blank and ends with the only line break in it. -/
def IsLine (line : String) : Prop :=
  ∃ content : String, Lacks '\n' content ∧ line = " " ++ content ++ "\n"

/-- Entries that are printed as lines are told from the lines, up to the empty line that follows. -/
theorem entries_inj {α : Type} {print : α → String} {entries entries' : List α}
    {rest rest' : List Char} (areLines : ∀ entry ∈ entries, IsLine (print entry))
    (areLines' : ∀ entry ∈ entries', IsLine (print entry))
    (injective : ∀ entry ∈ entries, ∀ entry' ∈ entries', print entry = print entry' →
      entry = entry')
    (same : (String.join (entries.map print)).toList ++ '\n' :: rest =
      (String.join (entries'.map print)).toList ++ '\n' :: rest') :
    entries = entries' ∧ rest = rest' := by
  induction entries generalizing entries' with
  | nil =>
      cases entries' with
      | nil => simpa using same
      | cons entry' more' =>
          rcases areLines' entry' List.mem_cons_self with ⟨content', -, printed'⟩
          simp [printed'] at same
  | cons entry more ih =>
      rw [List.forall_mem_cons] at areLines
      rcases areLines.1 with ⟨content, contentLacks, printed⟩
      cases entries' with
      | nil => simp [printed] at same
      | cons entry' more' =>
          rw [List.forall_mem_cons] at areLines'
          rcases areLines'.1 with ⟨content', contentLacks', printed'⟩
          simp only [List.map_cons, String.join_cons, printed, printed', String.toList_append,
            List.append_assoc] at same
          rcases cut_inj contentLacks contentLacks' (List.append_cancel_left same) with
            ⟨contents, rests⟩
          have firsts : entry = entry' := by
            apply injective entry List.mem_cons_self entry' List.mem_cons_self
            rw [printed, printed', String.toList_inj.mp contents]
          have others := ih areLines.2 areLines'.2 (fun other otherMem other' otherMem' =>
            injective other (List.mem_cons_of_mem entry otherMem) other'
              (List.mem_cons_of_mem entry' otherMem')) rests
          exact ⟨by rw [firsts, others.1], others.2⟩

theorem isLine_indented {content : String} (lacks : Lacks '\n' content) :
    IsLine ("  " ++ content ++ "\n") := by
  refine ⟨" " ++ content, by simpa +decide using lacks, ?_⟩
  rw [← String.append_assoc]
  rfl

/-- No mark that ends a name occurs in the name. A name without white space and commas is of this
kind. -/
def IsSolid (name : String) : Prop :=
  Lacks ' ' name ∧ Lacks '\n' name ∧ Lacks ',' name

instance : DecidablePred IsSolid := fun name =>
  inferInstanceAs (Decidable (Lacks ' ' name ∧ Lacks '\n' name ∧ Lacks ',' name))

section

variable {node node' : String} {targets targets' : List String}

theorem isLine_nodeLine (solid : ∀ name ∈ node :: targets, IsSolid name) :
    IsLine (nodeLine node targets) := by
  rw [List.forall_mem_cons] at solid
  rcases solid with ⟨⟨-, nodeLacks, -⟩, targetsSolid⟩
  have targetsLack : Lacks '\n' (", ".intercalate targets) :=
    Lacks.intercalate (by decide) fun target targetMem => (targetsSolid target targetMem).2.1
  unfold nodeLine
  split
  · exact isLine_indented nodeLacks
  · have content : Lacks '\n' (node ++ (" -> " ++ ", ".intercalate targets)) := by
      simpa +decide using ⟨nodeLacks, targetsLack⟩
    simpa only [String.append_assoc] using isLine_indented content

theorem toList_nodeLine_nil :
    (nodeLine node []).toList = "  ".toList ++ (node.toList ++ ['\n']) := by
  simp [nodeLine]

theorem toList_nodeLine_cons (target : String) :
    (nodeLine node (target :: targets)).toList = "  ".toList ++ (node.toList ++
      ' ' :: ("-> ".toList ++ ((", ".intercalate (target :: targets)).toList ++ ['\n']))) := by
  simp [nodeLine]

theorem nodeLine_inj (solid : ∀ name ∈ node :: targets, IsSolid name)
    (solid' : ∀ name ∈ node' :: targets', IsSolid name)
    (same : nodeLine node targets = nodeLine node' targets') :
    node = node' ∧ targets = targets' := by
  rw [List.forall_mem_cons] at solid solid'
  rcases solid with ⟨⟨nodeLacks, -, -⟩, targetsSolid⟩
  rcases solid' with ⟨⟨nodeLacks', -, -⟩, targetsSolid'⟩
  have chars := congrArg String.toList same
  cases targets with
  | nil =>
      rw [toList_nodeLine_nil] at chars
      cases targets' with
      | nil =>
          rw [toList_nodeLine_nil] at chars
          have nodes := List.append_cancel_right (List.append_cancel_left chars)
          exact ⟨String.toList_inj.mp nodes, rfl⟩
      | cons target' more' =>
          rw [toList_nodeLine_cons] at chars
          exact absurd (List.append_cancel_left chars) (append_stop_ne_cut nodeLacks (by decide))
  | cons target more =>
      rw [toList_nodeLine_cons] at chars
      cases targets' with
      | nil =>
          rw [toList_nodeLine_nil] at chars
          exact absurd (List.append_cancel_left chars).symm
            (append_stop_ne_cut nodeLacks' (by decide))
      | cons target' more' =>
          rw [toList_nodeLine_cons] at chars
          rcases cut_inj nodeLacks nodeLacks' (List.append_cancel_left chars) with ⟨nodes, rests⟩
          have joined := List.append_cancel_right (List.append_cancel_left rests)
          refine ⟨String.toList_inj.mp nodes, ?_⟩
          apply join_inj ',' rfl _ _ (by simp) (by simp) (String.toList_inj.mp joined)
          · exact fun name nameMem => (targetsSolid name nameMem).2.2
          · exact fun name nameMem => (targetsSolid' name nameMem).2.2

end

section

variable {simple simple' : SimpleName} {classes classes' : List ClassName}

theorem isLine_collisionLine (solid : ∀ name ∈ simple :: classes, IsSolid name) :
    IsLine (collisionLine simple classes) := by
  rw [List.forall_mem_cons] at solid
  rcases solid with ⟨⟨-, simpleLacks, -⟩, classesSolid⟩
  have classesLack : Lacks '\n' (", ".intercalate classes) :=
    Lacks.intercalate (by decide) fun name nameMem => (classesSolid name nameMem).2.1
  have content : Lacks '\n' (simple ++ (": " ++ ", ".intercalate classes)) := by
    simpa +decide using ⟨simpleLacks, classesLack⟩
  simpa only [collisionLine, String.append_assoc] using isLine_indented content

theorem collisionLine_inj (solid : ∀ name ∈ classes, IsSolid name)
    (solid' : ∀ name ∈ classes', IsSolid name) (simpleLacks : Lacks ':' simple)
    (simpleLacks' : Lacks ':' simple') (shared : classes ≠ []) (shared' : classes' ≠ [])
    (same : collisionLine simple classes = collisionLine simple' classes') :
    simple = simple' ∧ classes = classes' := by
  have spelled (name : SimpleName) (members : List ClassName) :
      (collisionLine name members).toList = "  ".toList ++ (name.toList ++
        ':' :: (" ".toList ++ ((", ".intercalate members).toList ++ ['\n']))) := by
    simp [collisionLine]
  have chars := congrArg String.toList same
  rw [spelled, spelled] at chars
  rcases cut_inj simpleLacks simpleLacks' (List.append_cancel_left chars) with ⟨names, rests⟩
  have joined := List.append_cancel_right (List.append_cancel_left rests)
  refine ⟨String.toList_inj.mp names, ?_⟩
  apply join_inj ',' rfl _ _ shared shared' (String.toList_inj.mp joined)
  · exact fun name nameMem => (solid name nameMem).2.2
  · exact fun name nameMem => (solid' name nameMem).2.2

end

theorem cyclePath_ne_empty {first : String} {more : List String} :
    cyclePath (first :: more) ≠ "" := by
  intro empty
  have chars := congrArg String.toList empty
  cases more <;> simp [cyclePath, String.toList_intercalate] at chars

theorem cyclePath_inj {cycle cycle' : List String} (lack : ∀ name ∈ cycle, Lacks ' ' name)
    (lack' : ∀ name ∈ cycle', Lacks ' ' name) (same : cyclePath cycle = cyclePath cycle') :
    cycle = cycle' := by
  cases cycle with
  | nil =>
      cases cycle' with
      | nil => rfl
      | cons first' more' => exact absurd same.symm cyclePath_ne_empty
  | cons first more =>
      cases cycle' with
      | nil => exact absurd same cyclePath_ne_empty
      | cons first' more' =>
          have closed := join_inj ' ' rfl
            (fun name visited => lack name (mem_of_mem_closed visited))
            (fun name visited => lack' name (mem_of_mem_closed visited)) (by simp) (by simp) same
          exact (List.append_inj' closed (by simp)).1

/-- A cycle with the number of its place. -/
def cycleLine (entry : List String × Nat) : String :=
  "  " ++ toString (entry.2 + 1) ++ ". " ++ cyclePath entry.1 ++ "\n"

theorem numbered_cyclePaths (found : List (List String)) :
    numbered (found.map cyclePath) = String.join (found.zipIdx.map cycleLine) := by
  rw [numbered, List.zipIdx_map, List.map_map]
  rfl

theorem isLine_cycleLine {entry : List String × Nat}
    (solid : ∀ name ∈ entry.1, IsSolid name) : IsLine (cycleLine entry) := by
  have pathLacks : Lacks '\n' (cyclePath entry.1) :=
    Lacks.intercalate (by decide) fun name visited => (solid name (mem_of_mem_closed visited)).2.1
  have content : Lacks '\n' (toString (entry.2 + 1) ++ (". " ++ cyclePath entry.1)) := by
    simpa +decide [Lacks.repr] using pathLacks
  simpa only [cycleLine, String.append_assoc] using isLine_indented content

theorem cycleLine_inj {entry entry' : List String × Nat} (solid : ∀ name ∈ entry.1, IsSolid name)
    (solid' : ∀ name ∈ entry'.1, IsSolid name) (same : cycleLine entry = cycleLine entry') :
    entry = entry' := by
  have spelled (entry : List String × Nat) : (cycleLine entry).toList = "  ".toList ++
      ((entry.2 + 1).repr.toList ++ '.' :: (" ".toList ++
        ((cyclePath entry.1).toList ++ ['\n']))) := by
    simp [cycleLine]
  have chars := congrArg String.toList same
  rw [spelled, spelled] at chars
  rcases cut_number_inj (by decide) (List.append_cancel_left chars) with ⟨numbers, rests⟩
  have paths := List.append_cancel_right (List.append_cancel_left rests)
  have members := cyclePath_inj (fun name nameMem => (solid name nameMem).1)
    (fun name nameMem => (solid' name nameMem).1) (String.toList_inj.mp paths)
  exact Prod.ext members (Nat.succ.inj numbers)

theorem render_append (first second : Report) :
    (first ++ second).render false = first.render false ++ second.render false := by
  simp [render]

theorem render_text (content : String) : (text content).render false = content := by
  simp [render, text, Span.render]

theorem render_styled (style : Style) (content : String) :
    (styled style content).render false = content := by
  simp [render, styled, Span.render]

theorem toList_render_graph (shown : Graph) :
    ((graph shown).render false).toList = '\n' :: 'D' :: ("ependencies\n".toList ++
      ((rule '-' 40).toList ++ ("\n".toList ++ (String.join (shown.adjacency.toList.map
        fun entry => nodeLine entry.1 entry.2.toList)).toList))) := by
  simp [graph, render_append, render_text, render_styled]

theorem graph_inj {shown shown' : Graph} {rest rest' : List Char}
    (solid : ∀ name ∈ shown.shownNames, IsSolid name)
    (solid' : ∀ name ∈ shown'.shownNames, IsSolid name)
    (same : ((graph shown).render false).toList ++ '\n' :: rest =
      ((graph shown').render false).toList ++ '\n' :: rest') :
    shown = shown' ∧ rest = rest' := by
  have entrySolid {shown : Graph} (solid : ∀ name ∈ shown.shownNames, IsSolid name)
      {entry : String × NameSet} (entryMem : entry ∈ shown.adjacency.toList) :
      ∀ name ∈ entry.1 :: entry.2.toList, IsSolid name := fun name nameMem =>
    solid name (List.mem_flatMap.mpr ⟨entry, entryMem, nameMem⟩)
  rw [toList_render_graph, toList_render_graph] at same
  simp only [List.cons_append, List.append_assoc, List.cons.injEq, true_and] at same
  have lines := List.append_cancel_left (List.append_cancel_left (List.append_cancel_left same))
  have recovered := entries_inj
    (fun entry entryMem => isLine_nodeLine (entrySolid solid entryMem))
    (fun entry entryMem => isLine_nodeLine (entrySolid solid' entryMem)) ?_ lines
  · exact ⟨congrArg Graph.mk (Std.ExtTreeMap.toList_inj.mp recovered.1), recovered.2⟩
  · intro entry entryMem entry' entryMem' printed
    rcases nodeLine_inj (entrySolid solid entryMem) (entrySolid solid' entryMem') printed with
      ⟨nodes, targets⟩
    exact Prod.ext nodes (Std.ExtTreeSet.toList_inj.mp targets)

theorem toList_render_cycles_nil :
    ((cycles []).render false).toList = '\n' :: "No cycles found!\n".toList := by
  simp [cycles, render_append, render_text, render_styled]

theorem toList_render_cycles_cons (cycle : List String) (more : List (List String)) :
    ((cycles (cycle :: more)).render false).toList = '\n' :: ("Cycles (".toList ++
      ((more.length + 1).repr.toList ++ ' ' :: ("found)\n".toList ++ ((rule '-' 40).toList ++
        ("\n".toList ++ (String.join ((cycle :: more).zipIdx.map cycleLine)).toList))))) := by
  rw [← numbered_cyclePaths]
  simp [cycles, render_append, render_text, render_styled]

theorem exists_render_cycles (found : List (List String)) :
    ∃ more, ((cycles found).render false).toList = '\n' :: more := by
  cases found with
  | nil => exact ⟨_, toList_render_cycles_nil⟩
  | cons cycle more => exact ⟨_, toList_render_cycles_cons cycle more⟩

theorem cycles_inj {found found' : List (List String)} {rest rest' : List Char}
    (solid : ∀ name ∈ found.flatten, IsSolid name)
    (solid' : ∀ name ∈ found'.flatten, IsSolid name)
    (same : ((cycles found).render false).toList ++ '\n' :: rest =
      ((cycles found').render false).toList ++ '\n' :: rest') :
    found = found' ∧ rest = rest' := by
  have entrySolid {found : List (List String)} (solid : ∀ name ∈ found.flatten, IsSolid name)
      {entry : List String × Nat} (entryMem : entry ∈ found.zipIdx) :
      ∀ name ∈ entry.1, IsSolid name := fun name nameMem =>
    solid name (List.mem_flatten.mpr ⟨entry.1, List.fst_mem_of_mem_zipIdx entryMem, nameMem⟩)
  cases found with
  | nil =>
      rw [toList_render_cycles_nil] at same
      cases found' with
      | nil =>
          rw [toList_render_cycles_nil] at same
          exact ⟨rfl, (List.cons.inj (List.append_cancel_left same)).2⟩
      | cons cycle' more' =>
          rw [toList_render_cycles_cons] at same
          simp at same
  | cons cycle more =>
      rw [toList_render_cycles_cons] at same
      cases found' with
      | nil =>
          rw [toList_render_cycles_nil] at same
          simp at same
      | cons cycle' more' =>
          rw [toList_render_cycles_cons] at same
          simp only [List.cons_append, List.append_assoc, List.cons.injEq, true_and] at same
          rcases cut_number_inj (by decide) (List.append_cancel_left same) with ⟨-, rests⟩
          have lines :=
            List.append_cancel_left (List.append_cancel_left (List.append_cancel_left rests))
          rcases entries_inj (fun entry entryMem => isLine_cycleLine (entrySolid solid entryMem))
            (fun entry entryMem => isLine_cycleLine (entrySolid solid' entryMem))
            (fun entry entryMem entry' entryMem' =>
              cycleLine_inj (entrySolid solid entryMem) (entrySolid solid' entryMem'))
            lines with ⟨entries, ends⟩
          have numberless := congrArg (List.map Prod.fst) entries
          rw [List.zipIdx_map_fst, List.zipIdx_map_fst] at numberless
          exact ⟨numberless, ends⟩

theorem graph_cycles_inj {shown shown' : Graph} {found found' : List (List String)}
    (solid : ∀ name ∈ shown.shownNames ++ found.flatten, IsSolid name)
    (solid' : ∀ name ∈ shown'.shownNames ++ found'.flatten, IsSolid name)
    (same :
      ((graph shown).render false).toList ++ (((cycles found).render false).toList ++ ['\n']) =
        ((graph shown').render false).toList ++ (((cycles found').render false).toList ++ ['\n'])) :
    shown = shown' ∧ found = found' := by
  rw [List.forall_mem_append] at solid solid'
  rcases exists_render_cycles found with ⟨section_, printed⟩
  rcases exists_render_cycles found' with ⟨section_', printed'⟩
  rw [printed, printed', List.cons_append, List.cons_append] at same
  rcases graph_inj solid.1 solid'.1 same with ⟨graphs, rests⟩
  have sections : ((cycles found).render false).toList ++ ['\n'] =
      ((cycles found').render false).toList ++ ['\n'] := by
    rw [printed, printed', List.cons_append, List.cons_append, rests]
  exact ⟨graphs, (cycles_inj solid.2 solid'.2 sections).1⟩

theorem toList_render_collisions_empty : ((collisions ∅).render false).toList = [] := by
  simp [collisions, render]

theorem toList_render_collisions {found : Std.ExtTreeMap SimpleName (List ClassName)}
    (collided : found.isEmpty = false) :
    ((collisions found).render false).toList = '\n' :: 'S' ::
      ("imple name collisions (merged into one node each)\n".toList ++
        (String.join (found.toList.map fun entry => collisionLine entry.1 entry.2)).toList) := by
  simp [collisions, collided, render_append, render_text, render_styled]

theorem collisions_inj {found found' : Std.ExtTreeMap SimpleName (List ClassName)}
    {shown shown' : Graph} {rest rest' : List Char}
    (solid : ∀ name ∈ found.toList.flatMap fun entry => entry.1 :: entry.2,
      IsSolid name ∧ Lacks ':' name)
    (solid' : ∀ name ∈ found'.toList.flatMap fun entry => entry.1 :: entry.2,
      IsSolid name ∧ Lacks ':' name)
    (shared : ∀ entry ∈ found.toList, entry.2 ≠ [])
    (shared' : ∀ entry ∈ found'.toList, entry.2 ≠ [])
    (same : ((collisions found).render false).toList ++
        (((graph shown).render false).toList ++ rest) =
      ((collisions found').render false).toList ++
        (((graph shown').render false).toList ++ rest')) :
    found = found' ∧ ((graph shown).render false).toList ++ rest =
      ((graph shown').render false).toList ++ rest' := by
  have entrySolid {found : Std.ExtTreeMap SimpleName (List ClassName)}
      (solid : ∀ name ∈ found.toList.flatMap fun entry => entry.1 :: entry.2,
        IsSolid name ∧ Lacks ':' name) {entry : SimpleName × List ClassName}
      (entryMem : entry ∈ found.toList) :
      ∀ name ∈ entry.1 :: entry.2, IsSolid name ∧ Lacks ':' name := fun name nameMem =>
    solid name (List.mem_flatMap.mpr ⟨entry, entryMem, nameMem⟩)
  cases empty : found.isEmpty with
  | true =>
      obtain rfl := Std.ExtTreeMap.isEmpty_iff.mp empty
      rw [toList_render_collisions_empty] at same
      cases empty' : found'.isEmpty with
      | true =>
          obtain rfl := Std.ExtTreeMap.isEmpty_iff.mp empty'
          exact ⟨rfl, by rwa [toList_render_collisions_empty] at same⟩
      | false =>
          rw [toList_render_collisions empty', toList_render_graph shown] at same
          simp at same
  | false =>
      rw [toList_render_collisions empty] at same
      cases empty' : found'.isEmpty with
      | true =>
          obtain rfl := Std.ExtTreeMap.isEmpty_iff.mp empty'
          rw [toList_render_collisions_empty, toList_render_graph shown'] at same
          simp at same
      | false =>
          rw [toList_render_collisions empty', toList_render_graph, toList_render_graph] at same
          simp only [List.cons_append, List.append_assoc, List.cons.injEq, true_and] at same
          have recovered := entries_inj
            (fun entry entryMem => isLine_collisionLine fun name nameMem =>
              (entrySolid solid entryMem name nameMem).1)
            (fun entry entryMem => isLine_collisionLine fun name nameMem =>
              (entrySolid solid' entryMem name nameMem).1) ?_ (List.append_cancel_left same)
          · refine ⟨Std.ExtTreeMap.toList_inj.mp recovered.1, ?_⟩
            rw [toList_render_graph, toList_render_graph]
            simpa using recovered.2
          · intro entry entryMem entry' entryMem' printed
            have names := entrySolid solid entryMem
            have names' := entrySolid solid' entryMem'
            rw [List.forall_mem_cons] at names names'
            rcases collisionLine_inj (fun name nameMem => (names.2 name nameMem).1)
              (fun name nameMem => (names'.2 name nameMem).1) names.1.2 names'.1.2
              (shared entry entryMem) (shared' entry' entryMem') printed with ⟨simples, members⟩
            exact Prod.ext simples members

/-- What stands in a report before its first number. -/
def summaryStart (title : String) : List Char :=
  ((header title).render false ++ "Summary: ").toList

theorem toList_render_packages (analysis : PackageAnalysis) :
    ((packages analysis).render false).toList =
      summaryStart "tangle - Package Dependencies" ++ (analysis.graph.nodeCount.repr.toList ++
        ' ' :: ("packages (".toList ++ (analysis.classCount.repr.toList ++
        ' ' :: ("classes), ".toList ++ (analysis.graph.edgeCount.repr.toList ++
        ' ' :: ("dependencies\n".toList ++ (((graph analysis.graph).render false).toList ++
          (((cycles analysis.cycles).render false).toList ++ ['\n'])))))))) := by
  simp [packages, render_append, render_text, render_styled, summaryStart]

theorem toList_render_classes (analysis : ClassAnalysis) :
    ((classes analysis).render false).toList =
      summaryStart "tangle - Class Dependencies" ++ (analysis.selectedCount.repr.toList ++
        ' ' :: ("classes selected, ".toList ++ (analysis.graph.nodeCount.repr.toList ++
        ' ' :: ("nodes, ".toList ++ (analysis.graph.edgeCount.repr.toList ++
        ' ' :: ("dependencies\n".toList ++
          (((collisions analysis.collisions).render false).toList ++
          (((graph analysis.graph).render false).toList ++
            (((cycles analysis.cycles).render false).toList ++ ['\n']))))))))) := by
  simp [classes, render_append, render_text, render_styled, summaryStart]

theorem packages_inj {analysis analysis' : PackageAnalysis}
    (solid : ∀ name ∈ analysis.shownNames, IsSolid name)
    (solid' : ∀ name ∈ analysis'.shownNames, IsSolid name)
    (same : (packages analysis).render false = (packages analysis').render false) :
    analysis.classCount = analysis'.classCount ∧ analysis.graph = analysis'.graph ∧
      analysis.cycles = analysis'.cycles := by
  have chars := congrArg String.toList same
  rw [toList_render_packages, toList_render_packages] at chars
  rcases cut_number_inj (by decide) (List.append_cancel_left chars) with ⟨-, afterNodes⟩
  rcases cut_number_inj (by decide) (List.append_cancel_left afterNodes) with
    ⟨counts, afterClasses⟩
  rcases cut_number_inj (by decide) (List.append_cancel_left afterClasses) with ⟨-, afterEdges⟩
  exact ⟨counts, graph_cycles_inj solid solid' (List.append_cancel_left afterEdges)⟩

theorem classes_inj {analysis analysis' : ClassAnalysis}
    (solid : ∀ name ∈ analysis.shownNames, IsSolid name ∧ Lacks ':' name)
    (solid' : ∀ name ∈ analysis'.shownNames, IsSolid name ∧ Lacks ':' name)
    (shared : ∀ entry ∈ analysis.collisions.toList, entry.2 ≠ [])
    (shared' : ∀ entry ∈ analysis'.collisions.toList, entry.2 ≠ [])
    (same : (classes analysis).render false = (classes analysis').render false) :
    analysis.selectedCount = analysis'.selectedCount ∧ analysis.graph = analysis'.graph ∧
      analysis.cycles = analysis'.cycles ∧ analysis.collisions = analysis'.collisions := by
  rw [ClassAnalysis.shownNames, List.forall_mem_append] at solid solid'
  have chars := congrArg String.toList same
  rw [toList_render_classes, toList_render_classes] at chars
  rcases cut_number_inj (by decide) (List.append_cancel_left chars) with ⟨counts, afterClasses⟩
  rcases cut_number_inj (by decide) (List.append_cancel_left afterClasses) with ⟨-, afterNodes⟩
  rcases cut_number_inj (by decide) (List.append_cancel_left afterNodes) with ⟨-, afterEdges⟩
  rcases collisions_inj solid.2 solid'.2 shared shared' (List.append_cancel_left afterEdges) with
    ⟨collided, rests⟩
  rcases graph_cycles_inj (fun name nameMem => (solid.1 name nameMem).1)
    (fun name nameMem => (solid'.1 name nameMem).1) rests with ⟨graphs, cycleLists⟩
  exact ⟨counts, graphs, cycleLists, collided⟩

/-- Equal reports show equal analyses: the counts, the graphs, the cycles and the collisions are
told from the text, as long as the names have no marks of the report and no name collides with
nothing.
-/
theorem reports_tell_analyses :
    (∀ analysis analysis' : PackageAnalysis,
      (∀ name ∈ analysis.shownNames ++ analysis'.shownNames, IsSolid name) →
      (packages analysis).render false = (packages analysis').render false →
      analysis.classCount = analysis'.classCount ∧ analysis.graph = analysis'.graph ∧
        analysis.cycles = analysis'.cycles) ∧
    (∀ analysis analysis' : ClassAnalysis,
      (∀ name ∈ analysis.shownNames ++ analysis'.shownNames, IsSolid name ∧ Lacks ':' name) →
      (∀ entry ∈ analysis.collisions.toList ++ analysis'.collisions.toList, entry.2 ≠ []) →
      (classes analysis).render false = (classes analysis').render false →
      analysis.selectedCount = analysis'.selectedCount ∧ analysis.graph = analysis'.graph ∧
        analysis.cycles = analysis'.cycles ∧ analysis.collisions = analysis'.collisions) := by
  constructor
  · intro analysis analysis' solid same
    rw [List.forall_mem_append] at solid
    exact packages_inj solid.1 solid.2 same
  · intro analysis analysis' solid shared same
    rw [List.forall_mem_append] at solid shared
    exact classes_inj solid.1 solid.2 shared.1 shared.2 same

/-- Packages whose names look like marks of the report, with the given edges. -/
def awkwardPackages (edges : List (String × String)) : PackageAnalysis :=
  ⟨[], 3, (Graph.ofEdges edges).addNode "", [["->", ""], [], [""]]⟩

/-- Classes that share the given simple names. -/
def awkwardClasses (shared : List (SimpleName × List ClassName)) : ClassAnalysis :=
  ⟨4, .addNode ∅ "->", [["->"]], .ofList shared⟩

theorem awkward_reports_told :
    (packages (awkwardPackages [("->", ""), ("-", "->")])).render false =
      (packages (awkwardPackages [("-", "->"), ("->", "")])).render false ∧
    (awkwardPackages [("->", ""), ("-", "->")]).graph =
      (awkwardPackages [("-", "->"), ("->", "")]).graph ∧
    (classes (awkwardClasses [("A", ["x.A", ""]), ("", [""])])).render false =
      (classes (awkwardClasses [("", [""]), ("A", ["x.A", ""])])).render false ∧
    (awkwardClasses [("A", ["x.A", ""]), ("", [""])]).collisions =
      (awkwardClasses [("", [""]), ("A", ["x.A", ""])]).collisions := by
  have packageTexts : (packages (awkwardPackages [("->", ""), ("-", "->")])).render false =
      (packages (awkwardPackages [("-", "->"), ("->", "")])).render false := by decide +kernel
  have classTexts : (classes (awkwardClasses [("A", ["x.A", ""]), ("", [""])])).render false =
      (classes (awkwardClasses [("", [""]), ("A", ["x.A", ""])])).render false := by decide +kernel
  exact ⟨packageTexts, (reports_tell_analyses.1 _ _ (by decide +kernel) packageTexts).2.1,
    classTexts,
    (reports_tell_analyses.2 _ _ (by decide +kernel) (by decide +kernel) classTexts).2.2.2⟩

end Coupling.Report
