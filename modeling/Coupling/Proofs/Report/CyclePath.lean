import Coupling.Proofs.Graph.Comparison
import Coupling.Report.Text

/-!
# The printed path of a cycle

A cycle is printed as a path that names each of its members once and then the
first again, with the arrow that stands for dependencies elsewhere in a report.
The members come as the search lists them, latest discovered first, and a
component of three or more names need not have an edge from one of them to the
next.

What a printed arrow promises is a walk: each member leads to the next one along
edges between members. Up to two members the walk can be taken to be one edge.
-/

namespace Coupling

/-- One name comes right before another in the path of a cycle, perhaps as the last member before
the first. -/
def Report.PrintsStep (cycle : List String) (source target : String) : Prop :=
  ∃ before after, before ++ source :: target :: after = cycle ++ cycle.take 1

namespace Graph

open Report (PrintsStep)

variable {graph : Graph} {cycle : List String} {source target : String}

/-- There is an edge between two members. -/
def EdgeAmong (graph : Graph) (members : List String) (source target : String) : Prop :=
  graph.Edge source target ∧ source ∈ members ∧ target ∈ members

theorem mem_of_printsStep (printed : PrintsStep cycle source target) :
    source ∈ cycle ∧ target ∈ cycle := by
  rcases printed with ⟨before, after, path⟩
  have visited : ∀ name ∈ before ++ source :: target :: after, name ∈ cycle := by
    intro name nameMem
    rw [path, List.mem_append] at nameMem
    exact nameMem.elim id List.mem_of_mem_take
  exact ⟨visited source (by simp), visited target (by simp)⟩

/-- A walk between two members of a component does not leave the component. -/
theorem transGen_edgeAmong (component : graph.IsComponent {node | node ∈ cycle})
    (sourceMem : source ∈ cycle) (targetMem : target ∈ cycle)
    (walk : Relation.TransGen graph.Edge source target) :
    Relation.TransGen (graph.EdgeAmong cycle) source target := by
  induction walk with
  | single edge => exact .single ⟨edge, sourceMem, targetMem⟩
  | @tail middle target walk edge ih =>
      have middleMem : middle ∈ graph.componentOf source :=
        ⟨walk.to_reflTransGen, .head edge (component.prop target targetMem source sourceMem)⟩
      rw [← component.eq_componentOf sourceMem] at middleMem
      exact .tail (ih middleMem) ⟨edge, middleMem, targetMem⟩

/-- Each member of a cycle leads to each member along at least one edge. -/
theorem exists_walk_among (reported : cycle ∈ graph.cycles) (sourceMem : source ∈ cycle)
    (targetMem : target ∈ cycle) :
    Relation.TransGen (graph.EdgeAmong cycle) source target := by
  have cyclic := graph.cycles_listsExactly.sound cycle reported
  have reaches : graph.Reaches source target := cyclic.1.prop source sourceMem target targetMem
  have closed : Relation.TransGen graph.Edge source source := by
    rw [← isCyclicComponent_componentOf_iff, ← cyclic.1.eq_componentOf sourceMem]
    exact cyclic
  exact transGen_edgeAmong cyclic.1 sourceMem targetMem (closed.trans_left reaches)

/-- A walk to another member starts in earnest with an edge to some other member. -/
theorem exists_edge_to_other {members : List String}
    (walk : Relation.TransGen (graph.EdgeAmong members) source target)
    (different : source ≠ target) :
    ∃ other ∈ members, other ≠ source ∧ graph.Edge source other := by
  induction walk using Relation.TransGen.head_induction_on with
  | single edge => exact ⟨target, edge.2.2, different.symm, edge.1⟩
  | @head first second edge walk ih =>
      by_cases stays : second = first
      · subst stays
        exact ih different
      · exact ⟨second, edge.2.2, stays, edge.1⟩

/-- The steps that are printed for up to two members. -/
theorem printsStep_cases (short : cycle.length ≤ 2) (printed : PrintsStep cycle source target) :
    (cycle = [source] ∧ target = source) ∨ cycle = [source, target] ∨ cycle = [target, source] := by
  rcases printed with ⟨before, after, path⟩
  match cycle, short with
  | [], _ => simp at path
  | [single], _ =>
      match before with
      | [] => simp_all
      | [_] => simp at path
      | _ :: _ :: _ => simp at path
  | [first, second], _ =>
      match before with
      | [] => simp_all
      | [_] => simp_all
      | [_, _] => simp at path
      | _ :: _ :: _ :: _ => simp at path

/-- In a cycle of up to two members there is an edge wherever one is printed. -/
theorem edge_of_printsStep (reported : cycle ∈ graph.cycles) (short : cycle.length ≤ 2)
    (printed : PrintsStep cycle source target) : graph.Edge source target := by
  rcases mem_of_printsStep printed with ⟨sourceMem, targetMem⟩
  have walk := exists_walk_among reported sourceMem targetMem
  have nodup := graph.cycles_listsExactly.nodup cycle reported
  rcases printsStep_cases short printed with ⟨rfl, rfl⟩ | pair
  · rcases Relation.TransGen.head'_iff.mp walk with ⟨next, ⟨edge, _, nextMem⟩, _⟩
    rwa [List.mem_singleton.mp nextMem] at edge
  · have different : source ≠ target := by
      rcases pair with rfl | rfl
      · simpa using nodup
      · simpa [eq_comm] using nodup
    rcases exists_edge_to_other walk different with ⟨other, otherMem, moved, edge⟩
    have isTarget : other = target := by
      rcases pair with rfl | rfl
      · simpa [moved] using otherMem
      · simpa [moved] using otherMem
    rwa [isTarget] at edge

/-- The path of a cycle names each member once and then the first again. -/
theorem cyclePath_of_reported (reported : cycle ∈ graph.cycles) :
    cycle.Nodup ∧ ∃ first rest, cycle = first :: rest ∧
      Report.cyclePath cycle = " -> ".intercalate (cycle ++ [first]) := by
  refine ⟨graph.cycles_listsExactly.nodup cycle reported, ?_⟩
  cases cycle with
  | nil =>
      rcases (graph.cycles_listsExactly.sound [] reported).1.nonempty with ⟨name, nameMem⟩
      exact absurd nameMem List.not_mem_nil
  | cons first rest => exact ⟨first, rest, rfl, rfl⟩

/-- Wherever an arrow is printed between two members of a cycle, the first depends on the second,
directly or through other members. In a cycle of up to two members it does so directly. The arrows
stand between the members, each named once, and before the first one at the end. -/
theorem printed_step_follows_dependencies (graph : Graph) {cycle : List String}
    (reported : cycle ∈ graph.cycles) {source target : String}
    (printed : PrintsStep cycle source target) :
    Relation.TransGen (graph.EdgeAmong cycle) source target ∧
      (cycle.length ≤ 2 → graph.Edge source target) ∧
      cycle.Nodup ∧ ∃ first rest, cycle = first :: rest ∧
        Report.cyclePath cycle = " -> ".intercalate (cycle ++ [first]) := by
  rcases mem_of_printsStep printed with ⟨sourceMem, targetMem⟩
  exact ⟨exists_walk_among reported sourceMem targetMem,
    fun short => edge_of_printsStep reported short printed, cyclePath_of_reported reported⟩

/-- A ring of three names and a pair of names. -/
def ringAndPair : Graph :=
  .ofEdges [("a", "b"), ("b", "c"), ("c", "a"), ("d", "e"), ("e", "d")]

/-- The arrows that are printed for the ring point against its edges. -/
theorem ring_path_against_edges :
    ["c", "b", "a"] ∈ ringAndPair.cycles ∧
    Report.cyclePath ["c", "b", "a"] = "c -> b -> a -> c" ∧
    PrintsStep ["c", "b", "a"] "c" "b" ∧ ¬ringAndPair.Edge "c" "b" := by
  refine ⟨by decide +kernel, by decide +kernel, ⟨[], ["a", "c"], rfl⟩, ?_⟩
  simp only [Edge]
  decide +kernel

theorem ring_and_pair_steps :
    ["c", "b", "a"] ∈ ringAndPair.cycles ∧ ["e", "d"] ∈ ringAndPair.cycles ∧
    PrintsStep ["c", "b", "a"] "c" "b" ∧ PrintsStep ["e", "d"] "d" "e" ∧
    Relation.TransGen (ringAndPair.EdgeAmong ["c", "b", "a"]) "c" "b" ∧
    ringAndPair.Edge "d" "e" := by
  have ring : ["c", "b", "a"] ∈ ringAndPair.cycles := by decide +kernel
  have pair : ["e", "d"] ∈ ringAndPair.cycles := by decide +kernel
  have inner : PrintsStep ["c", "b", "a"] "c" "b" := ⟨[], ["a", "c"], rfl⟩
  have closing : PrintsStep ["e", "d"] "d" "e" := ⟨["e"], [], rfl⟩
  exact ⟨ring, pair, inner, closing, (printed_step_follows_dependencies _ ring inner).1,
    (printed_step_follows_dependencies _ pair closing).2.1 (by decide)⟩

end Graph

end Coupling
