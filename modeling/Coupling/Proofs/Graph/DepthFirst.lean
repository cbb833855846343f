import Mathlib.Data.List.Nodup
import Coupling.Proofs.Graph.SearchStep

/-!
# Depth-first search by recursion

The plain search visits the successors of a name right after the name itself, by
recursion, and keeps nothing but the list of names that it has discovered. It
ends because each call either looks at one name less or takes the successors of
an undiscovered node out of what is left to look at.

The cycle search keeps its suspended visits in frames, and beside them indices,
low links and a stack. What its frames still have to look at is what the calls
of the recursion would look at on their return, so both discover the same names
in the same order. The stack and the closed components hold names in the
opposite order.
-/

namespace Coupling.Graph

variable {graph : Graph} {seen found names rest order : List String} {name node : String}

/-- The most names that are left to look at: the given ones, and the successors of each node that
was not seen. -/
def namesLeft (graph : Graph) (seen names : List String) : Nat :=
  names.length +
    (graph.nodes.map fun node => if node ∈ seen then 0 else graph.visitCost node).sum

theorem namesLeft_le_of_subset (included : seen ⊆ found) :
    graph.namesLeft found names ≤ graph.namesLeft seen names := by
  apply Nat.add_le_add_left
  apply List.sum_le_sum
  intro node _
  exact graph.visitCost_le_of_known (fun _ nodeSeen => included nodeSeen) node

theorem namesLeft_enter (fresh : name ∉ seen) :
    graph.namesLeft (seen ++ [name]) (graph.successors name).toList ≤ graph.namesLeft seen [] := by
  have known : ∀ node, node ∈ seen → node ∈ seen ++ [name] :=
    fun _ nodeSeen => List.mem_append_left [name] nodeSeen
  have entered := graph.sum_visitCost_enter known fresh (by simp)
  simp only [namesLeft, List.length_nil]
  omega

theorem namesLeft_rest : graph.namesLeft seen rest < graph.namesLeft seen (name :: rest) :=
  Nat.add_lt_add_right (Nat.lt_succ_self _) _

/-- Searches from the given names one after another. A name that was not seen is put at the end of
the list, and then the search goes on from its successors. -/
def exploring (graph : Graph) (seen : List String) (names : List String) :
    {found : List String // seen <+: found} :=
  match names with
  | [] => ⟨seen, List.prefix_refl seen⟩
  | name :: rest =>
    if _ : name ∉ seen then
      let inner := exploring graph (seen ++ [name]) (graph.successors name).toList
      let all := exploring graph inner.val rest
      ⟨all.val, (List.prefix_append seen [name]).trans (inner.property.trans all.property)⟩
    else
      exploring graph seen rest
termination_by graph.namesLeft seen names
decreasing_by
  · exact (namesLeft_enter ‹name ∉ seen›).trans_lt (Nat.add_lt_add_right (Nat.succ_pos _) _)
  · have included := ((List.prefix_append seen [name]).trans inner.property).subset
    exact (namesLeft_le_of_subset included).trans_lt namesLeft_rest
  · exact namesLeft_rest

/-- The names that the recursive search has discovered at the end, in the order of discovery. -/
def explore (graph : Graph) (seen names : List String) : List String :=
  (graph.exploring seen names).val

theorem explore_nil : graph.explore seen [] = seen := by
  rw [explore, exploring]

theorem explore_of_seen (nameSeen : name ∈ seen) :
    graph.explore seen (name :: rest) = graph.explore seen rest := by
  rw [explore, exploring, dif_neg (not_not_intro nameSeen), explore]

theorem explore_of_fresh (fresh : name ∉ seen) :
    graph.explore seen (name :: rest) =
      graph.explore (graph.explore (seen ++ [name]) (graph.successors name).toList) rest := by
  rw [explore, exploring, dif_pos fresh]
  rfl

theorem explore_cons :
    graph.explore seen (name :: rest) = graph.explore (graph.explore seen [name]) rest := by
  by_cases nameSeen : name ∈ seen
  · rw [explore_of_seen nameSeen, explore_of_seen nameSeen, explore_nil]
  · rw [explore_of_fresh nameSeen, explore_of_fresh nameSeen, explore_nil]

/-- The names that depth-first search discovers from the roots that are nodes, in the order of
discovery. -/
def preorder (graph : Graph) (roots : List String) : List String :=
  graph.explore [] (roots.filter graph.contains)

namespace Search

variable {search : Search}

/-- The list has every discovered node once. The open nodes and the members of each closed component
stand in it from the last to the first. -/
structure HasOrder (search : Search) (order : List String) : Prop where
  nodup : order.Nodup
  mem_iff : ∀ node, node ∈ order ↔ node ∈ search.index
  stack_sublist : search.stack.reverse.Sublist order
  component_sublist : ∀ component ∈ search.components, component.reverse.Sublist order

theorem append_popThrough (root : String) (stack : List String) :
    (popThrough root stack).1 ++ (popThrough root stack).2 = stack := by
  have halves := List.takeWhile_append_dropWhile (p := (· != root)) (l := stack)
  unfold popThrough
  split
  · simp
  · rename_i top below shape
    rw [shape] at halves
    simpa using halves

namespace HasOrder

theorem not_mem (holds : search.HasOrder order) (fresh : node ∉ search.index) : node ∉ order :=
  fun listed => fresh ((holds.mem_iff node).mp listed)

theorem start : Search.start.HasOrder [] where
  nodup := List.nodup_nil
  mem_iff := by simp [Search.start]
  stack_sublist := List.Sublist.refl []
  component_sublist := by simp [Search.start]

theorem discover (holds : search.HasOrder order) (fresh : node ∉ search.index) :
    (search.discover node).HasOrder (order ++ [node]) := by
  have extended : order.Sublist (order ++ [node]) := List.sublist_append_left order [node]
  constructor
  case nodup =>
      apply List.Nodup.append holds.nodup (List.nodup_singleton node)
      simpa using holds.not_mem fresh
  case mem_iff =>
      intro other
      rw [mem_index_discover, List.mem_append, List.mem_singleton, holds.mem_iff, or_comm]
  case stack_sublist =>
      have reversed : (search.discover node).stack.reverse = search.stack.reverse ++ [node] :=
        List.reverse_cons
      rw [reversed]
      exact holds.stack_sublist.append_right [node]
  case component_sublist =>
      intro component componentMem
      exact (holds.component_sublist component componentMem).trans extended

theorem lower (holds : search.HasOrder order) (node : String) (candidate : Nat) :
    (search.lower node candidate).HasOrder order := by
  rcases @lower_eq search node candidate with ⟨lowLink, same⟩
  rw [same]
  exact ⟨holds.nodup, holds.mem_iff, holds.stack_sublist, holds.component_sublist⟩

theorem passLow (holds : search.HasOrder order) (node : String) (outer : List Frame) :
    (search.passLow node outer).HasOrder order := by
  cases outer with
  | nil => exact holds
  | cons parent rest => exact holds.lower parent.node _

theorem close (holds : search.HasOrder order) (root : String) :
    (search.close root).HasOrder order := by
  -- What is popped and what stays make up the stack, whether or not the root is found on it.
  have halves := append_popThrough root search.stack
  have stackSublist := holds.stack_sublist
  rw [← halves, List.reverse_append] at stackSublist
  constructor
  case nodup => exact holds.nodup
  case mem_iff => exact holds.mem_iff
  case stack_sublist => exact (List.sublist_append_left _ _).trans stackSublist
  case component_sublist =>
      intro component componentMem
      rcases List.mem_cons.mp componentMem with rfl | closedBefore
      · exact (List.sublist_append_right _ _).trans stackSublist
      · exact holds.component_sublist component closedBefore

end HasOrder

/-- What the recursive search has discovered when its calls for the suspended visits have returned,
the innermost first. -/
def resume (graph : Graph) (order : List String) (frames : List Frame) : List String :=
  frames.foldl (fun order frame => graph.explore order frame.pending) order

/-- A step of the cycle search is a step of the recursive one: what the latter discovers in the end
stays the same. -/
theorem HasOrder.step (holds : search.HasOrder order) (frame : Frame) (outer : List Frame) :
    ∃ next, (Search.step graph (search, frame :: outer)).1.HasOrder next ∧
      resume graph next (Search.step graph (search, frame :: outer)).2 =
        resume graph order (frame :: outer) := by
  apply step_cases (motive := fun state => ∃ next, state.1.HasOrder next ∧
    resume graph next state.2 = resume graph order (frame :: outer))
  case discover =>
      intro successor pending shape fresh
      -- The new frame stands for the inner call, and the old one for what follows its return.
      refine ⟨order ++ [successor], holds.discover fresh, ?_⟩
      simp only [resume, List.foldl_cons, Frame.opening, shape, explore_of_fresh (holds.not_mem fresh)]
  case lookBack =>
      intro successor pending shape known _
      refine ⟨order, holds.lower _ _, ?_⟩
      simp only [resume, List.foldl_cons, shape, explore_of_seen ((holds.mem_iff _).mpr known)]
  case lookPast =>
      intro successor pending shape known _
      refine ⟨order, holds, ?_⟩
      simp only [resume, List.foldl_cons, shape, explore_of_seen ((holds.mem_iff _).mpr known)]
  case close =>
      intro shape _
      refine ⟨order, (holds.passLow _ _).close _, ?_⟩
      simp only [resume, List.foldl_cons, shape, explore_nil]
  case leave =>
      intro shape _
      refine ⟨order, holds.passLow _ _, ?_⟩
      simp only [resume, List.foldl_cons, shape, explore_nil]

theorem HasOrder.run (holds : search.HasOrder order) {fuel : Nat} {frames : List Frame}
    (enough : graph.stepsLeft (search, frames) ≤ fuel) :
    (Search.run graph fuel (search, frames)).HasOrder (resume graph order frames) := by
  have ended : ∃ last, (Search.run graph fuel (search, frames)).HasOrder last ∧
      resume graph last [] = resume graph order frames := by
    apply run_induction (motive := fun state => ∃ current, state.1.HasOrder current ∧
      resume graph current state.2 = resume graph order frames) _ fuel _ enough ⟨order, holds, rfl⟩
    rintro reached frame outer ⟨current, currentHolds, same⟩
    rw [← same]
    exact currentHolds.step frame outer
  rcases ended with ⟨last, lastHolds, same⟩
  rw [← same]
  exact lastHolds

theorem HasOrder.visit (holds : search.HasOrder order) (graph : Graph) (root : String) :
    (search.visit graph root).HasOrder
      (if graph.contains root then graph.explore order [root] else order) := by
  unfold Search.visit
  split
  · rename_i visited
    rw [Bool.and_eq_true, Bool.not_eq_true', ← Bool.not_eq_true,
      Std.ExtTreeMap.contains_iff_mem] at visited
    rcases visited with ⟨isNode, fresh⟩
    rw [if_pos isNode, explore_of_fresh (holds.not_mem fresh), explore_nil]
    exact (holds.discover fresh).run (stepsLeft_le_searchBound fresh)
  · rename_i skipped
    split
    · rename_i isNode
      have known : root ∈ search.index := by simpa [isNode] using skipped
      rwa [explore_of_seen ((holds.mem_iff root).mpr known), explore_nil]
    · exact holds

theorem HasOrder.visit_all (holds : search.HasOrder order) (graph : Graph) (roots : List String) :
    (roots.foldl (Search.visit graph) search).HasOrder
      (graph.explore order (roots.filter graph.contains)) := by
  induction roots generalizing search order with
  | nil => rwa [List.filter_nil, explore_nil]
  | cons root rest ih =>
      have visited := ih (holds.visit graph root)
      by_cases isNode : graph.contains root = true
      · rw [if_pos isNode] at visited
        rwa [List.filter_cons_of_pos isNode, explore_cons]
      · rw [if_neg isNode] at visited
        rwa [List.filter_cons_of_neg isNode]

end Search

end Coupling.Graph
