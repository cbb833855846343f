import Mathlib.Algebra.BigOperators.Group.List.Basic
import Mathlib.Algebra.Order.BigOperators.Group.List
import Mathlib.Algebra.Order.Ring.Nat
import Coupling.Proofs.Graph.Reachability

/-!
# Steps of the cycle search

What each operation of the search does to its tables, what one step does in
each of its cases, and why the steps come to an end: a step uses up a part of
a quantity that starts below the bound on the number of steps.
-/

namespace Coupling.Graph

namespace Search

variable {search : Search} {node other : String} {candidate : Nat}

/-- The index at which a node was discovered. -/
def rank (search : Search) (node : String) : Nat :=
  search.index.getD node 0

/-- The low link of a node. -/
def low (search : Search) (node : String) : Nat :=
  search.lowLink.getD node 0

theorem index_eq_some_rank (discovered : node ∈ search.index) :
    search.index[node]? = some (search.rank node) :=
  Std.ExtTreeMap.getElem?_eq_some_getD discovered

theorem mem_index_of_eq_some {rank : Nat} (found : search.index[node]? = some rank) :
    node ∈ search.index := by
  rw [Std.ExtTreeMap.mem_iff_isSome_getElem?, found]
  rfl

theorem mem_index_discover :
    other ∈ (search.discover node).index ↔ other = node ∨ other ∈ search.index := by
  simp only [discover, Std.ExtTreeMap.mem_insert, Std.compare_eq_iff_eq, eq_comm (a := node)]

theorem rank_discover_self : (search.discover node).rank node = search.counter := by
  simp [rank, discover]

theorem rank_discover_of_ne (different : other ≠ node) :
    (search.discover node).rank other = search.rank other := by
  simp [rank, discover, Std.ExtTreeMap.getD_insert, different.symm]

theorem low_discover_self : (search.discover node).low node = search.counter := by
  simp [low, discover]

theorem low_discover_of_ne (different : other ≠ node) :
    (search.discover node).low other = search.low other := by
  simp [low, discover, Std.ExtTreeMap.getD_insert, different.symm]

/-- Lowering a low link changes nothing else. -/
theorem lower_eq : ∃ lowLink, search.lower node candidate = { search with lowLink } := by
  unfold lower
  split
  · exact ⟨_, rfl⟩
  · exact ⟨search.lowLink, rfl⟩

@[simp]
theorem lower_counter : (search.lower node candidate).counter = search.counter := by
  rcases @lower_eq search node candidate with ⟨lowLink, same⟩
  rw [same]

@[simp]
theorem lower_index : (search.lower node candidate).index = search.index := by
  rcases @lower_eq search node candidate with ⟨lowLink, same⟩
  rw [same]

@[simp]
theorem lower_stack : (search.lower node candidate).stack = search.stack := by
  rcases @lower_eq search node candidate with ⟨lowLink, same⟩
  rw [same]

@[simp]
theorem lower_onStack : (search.lower node candidate).onStack = search.onStack := by
  rcases @lower_eq search node candidate with ⟨lowLink, same⟩
  rw [same]

@[simp]
theorem lower_components : (search.lower node candidate).components = search.components := by
  rcases @lower_eq search node candidate with ⟨lowLink, same⟩
  rw [same]

@[simp]
theorem lower_rank : (search.lower node candidate).rank = search.rank := by
  funext other
  rw [rank, lower_index, rank]

theorem mem_lowLink_lower :
    other ∈ (search.lower node candidate).lowLink ↔ other ∈ search.lowLink := by
  unfold lower
  split
  · rename_i low found
    have present : node ∈ search.lowLink := by
      rw [Std.ExtTreeMap.mem_iff_isSome_getElem?, found]
      rfl
    simp only [Std.ExtTreeMap.mem_insert, Std.compare_eq_iff_eq]
    constructor
    · rintro (rfl | mem)
      · exact present
      · exact mem
    · exact Or.inr
  · rfl

theorem low_lower_self (present : node ∈ search.lowLink) :
    (search.lower node candidate).low node = min (search.low node) candidate := by
  have found : search.lowLink[node]? = some (search.low node) :=
    Std.ExtTreeMap.getElem?_eq_some_getD present
  simp [lower, found, low]

theorem low_lower_of_ne (different : other ≠ node) :
    (search.lower node candidate).low other = search.low other := by
  unfold lower
  split
  · simp [low, Std.ExtTreeMap.getD_insert, different.symm]
  · rfl

theorem low_lower_le : (search.lower node candidate).low other ≤ search.low other := by
  by_cases same : other = node
  · subst same
    by_cases present : other ∈ search.lowLink
    · rw [low_lower_self present]
      exact Nat.min_le_left _ _
    · have absent : search.lowLink[other]? = none := Std.ExtTreeMap.getElem?_eq_none present
      simp [lower, absent]
  · rw [low_lower_of_ne same]

/-- What is above the first occurrence of a name is popped with it. -/
theorem popThrough_append {above below : List String} (first : node ∉ above) :
    popThrough node (above ++ node :: below) = (above ++ [node], below) := by
  have different : ∀ other ∈ above, (other != node) = true := by
    intro other otherMem
    simp only [bne_iff_ne, ne_eq]
    rintro rfl
    exact first otherMem
  have dropped : (above ++ node :: below).dropWhile (· != node) = node :: below := by
    rw [List.dropWhile_append_of_pos different]
    simp
  have taken : (above ++ node :: below).takeWhile (· != node) = above := by
    rw [List.takeWhile_append_of_pos different]
    simp
  simp [popThrough, dropped, taken]

theorem mem_foldl_erase {members : NameSet} {names : List String} :
    other ∈ names.foldl (fun members name => members.erase name) members ↔
      other ∈ members ∧ other ∉ names := by
  induction names generalizing members with
  | nil => simp
  | cons name rest ih =>
      rw [List.foldl_cons, ih, Std.ExtTreeSet.mem_erase, List.mem_cons, not_or, ne_eq,
        Std.compare_eq_iff_eq]
      constructor
      · rintro ⟨⟨different, mem⟩, notRest⟩
        exact ⟨mem, Ne.symm different, notRest⟩
      · rintro ⟨mem, different, notRest⟩
        exact ⟨⟨Ne.symm different, mem⟩, notRest⟩

/-- Passes the low link of a node whose visit ends on to the visit around it. -/
def passLow (search : Search) (node : String) : List Frame → Search
  | parent :: _ => search.lower parent.node (search.low node)
  | [] => search

@[simp]
theorem passLow_index {outer : List Frame} :
    (search.passLow node outer).index = search.index := by
  cases outer with
  | nil => rfl
  | cons parent rest => exact lower_index

@[simp]
theorem passLow_rank {outer : List Frame} : (search.passLow node outer).rank = search.rank := by
  funext other
  rw [rank, passLow_index, rank]

@[simp]
theorem close_index : (search.close node).index = search.index := rfl

/-- What one step leads to, case by case: the next successor is new, open or closed, or there is
none and the visited node is or is not the first of its component. -/
theorem step_cases {graph : Graph} {motive : Search × List Frame → Prop} {frame : Frame}
    {outer : List Frame}
    (discover : ∀ successor pending, frame.pending = successor :: pending →
      successor ∉ search.index →
      motive (search.discover successor,
        Frame.opening graph successor :: ⟨frame.node, pending⟩ :: outer))
    (lookBack : ∀ successor pending, frame.pending = successor :: pending →
      successor ∈ search.index → successor ∈ search.onStack →
      motive (search.lower frame.node (search.rank successor), ⟨frame.node, pending⟩ :: outer))
    (lookPast : ∀ successor pending, frame.pending = successor :: pending →
      successor ∈ search.index → successor ∉ search.onStack →
      motive (search, ⟨frame.node, pending⟩ :: outer))
    (close : frame.pending = [] → search.index[frame.node]? = some (search.low frame.node) →
      motive ((search.passLow frame.node outer).close frame.node, outer))
    (leave : frame.pending = [] → search.index[frame.node]? ≠ some (search.low frame.node) →
      motive (search.passLow frame.node outer, outer)) :
    motive (step graph (search, frame :: outer)) := by
  rcases frame with ⟨node, pending⟩
  cases pending with
  | nil =>
      simp only [step]
      split
      · rename_i root
        exact close rfl root
      · rename_i inner
        exact leave rfl inner
  | cons successor pending =>
      simp only [step]
      split
      · rename_i absent
        apply discover successor pending rfl
        rw [Std.ExtTreeMap.mem_iff_isSome_getElem?, absent]
        simp
      · rename_i rank found
        have known : successor ∈ search.index := mem_index_of_eq_some found
        have same : search.rank successor = rank := by
          rw [index_eq_some_rank known] at found
          exact Option.some.inj found
        subst same
        split
        · rename_i isOpen
          exact lookBack successor pending rfl known (by simpa using isOpen)
        · rename_i isClosed
          exact lookPast successor pending rfl known (by simpa using isClosed)

end Search

/-- The most steps that the visit of a node and of the edges from it can take. -/
def visitCost (graph : Graph) (node : String) : Nat :=
  2 * (graph.successors node).toList.length + 1

/-- The most steps that are left: those of the suspended visits, and those of the nodes that are
not discovered. -/
def stepsLeft (graph : Graph) (state : Search × List Frame) : Nat :=
  (state.2.map fun frame => 2 * frame.pending.length + 1).sum +
    (graph.nodes.map fun node => if node ∈ state.1.index then 0 else graph.visitCost node).sum

theorem sum_visitCost (graph : Graph) :
    (graph.nodes.map graph.visitCost).sum = graph.nodeCount + 2 * graph.edgeCount := by
  have costs : ∀ entry ∈ graph.adjacency.toList,
      graph.visitCost entry.1 = 2 * entry.2.size + 1 := by
    rintro ⟨node, targets⟩ entryMem
    rw [Std.ExtTreeMap.mem_toList_iff_getElem?_eq_some] at entryMem
    simp [visitCost, successors, successors?, entryMem]
  rw [nodes, ← Std.ExtTreeMap.map_fst_toList_eq_keys, List.map_map, nodeCount, edgeCount,
    ← Std.ExtTreeMap.length_toList]
  generalize graph.adjacency.toList = entries at costs ⊢
  induction entries with
  | nil => rfl
  | cons entry rest ih =>
      have first := costs entry List.mem_cons_self
      have others := ih fun other otherMem => costs other (List.mem_cons_of_mem _ otherMem)
      simp only [List.map_cons, List.sum_cons, List.foldr_cons, List.length_cons,
        Function.comp_apply] at others ⊢
      omega

/-- A sum falls by at least as much as one of its terms does, if none rises. -/
theorem sum_map_add_le {names : List String} {before after : String → Nat} {name : String}
    (drop : Nat) (falling : ∀ other, after other ≤ before other) (nameMem : name ∈ names)
    (dropped : after name + drop ≤ before name) :
    (names.map after).sum + drop ≤ (names.map before).sum := by
  induction names with
  | nil => simp at nameMem
  | cons first rest ih =>
      simp only [List.map_cons, List.sum_cons]
      rcases List.mem_cons.mp nameMem with rfl | restMem
      · have others : (rest.map after).sum ≤ (rest.map before).sum :=
          List.sum_le_sum fun other _ => falling other
        omega
      · have := ih restMem
        have := falling first
        omega

section Entering

variable (graph : Graph) {before after : String → Prop} [DecidablePred before]
  [DecidablePred after]

theorem visitCost_le_of_known (known : ∀ node, before node → after node) (node : String) :
    (if after node then 0 else graph.visitCost node) ≤
      if before node then 0 else graph.visitCost node := by
  by_cases knownBefore : before node
  · simp [knownBefore, known node knownBefore]
  · rw [if_neg knownBefore]
    split
    · exact Nat.zero_le _
    · exact le_rfl

/-- Entering a node takes its successors from what the unknown nodes lead to; a name that is no node
has none. -/
theorem sum_visitCost_enter {node : String} (known : ∀ node, before node → after node)
    (fresh : ¬before node) (entered : after node) :
    2 * (graph.successors node).toList.length +
        (graph.nodes.map fun node => if after node then 0 else graph.visitCost node).sum ≤
      (graph.nodes.map fun node => if before node then 0 else graph.visitCost node).sum := by
  by_cases isNode : node ∈ graph.nodes
  · have dropped := sum_map_add_le (graph.visitCost node) (graph.visitCost_le_of_known known) isNode
      (by simp [fresh, entered])
    unfold visitCost at dropped ⊢
    omega
  · have leaf : graph.successors node = ∅ :=
      successors_of_not_contains (by simpa [mem_nodes] using isNode)
    have others := List.sum_le_sum fun other (_ : other ∈ graph.nodes) =>
      graph.visitCost_le_of_known known other
    simpa [leaf] using others

end Entering

/-- Discovering a node takes no more steps than are left, but for the end of its visit. -/
theorem stepsLeft_discover (graph : Graph) {search : Search} {node : String} (frames : List Frame)
    (fresh : node ∉ search.index) :
    graph.stepsLeft (search.discover node, Frame.opening graph node :: frames) ≤
      graph.stepsLeft (search, frames) + 1 := by
  have known : ∀ other, other ∈ search.index → other ∈ (search.discover node).index :=
    fun _ otherMem => Search.mem_index_discover.mpr (Or.inr otherMem)
  have entered := graph.sum_visitCost_enter known fresh (Search.mem_index_discover.mpr (Or.inl rfl))
  simp only [stepsLeft, List.map_cons, List.sum_cons, Frame.opening]
  omega

/-- Every step takes from the steps that are left. -/
theorem stepsLeft_step (graph : Graph) (search : Search) (frame : Frame) (outer : List Frame) :
    graph.stepsLeft (Search.step graph (search, frame :: outer)) <
      graph.stepsLeft (search, frame :: outer) := by
  apply Search.step_cases (motive := fun state =>
    graph.stepsLeft state < graph.stepsLeft (search, frame :: outer))
  case discover =>
      intro successor pending shape fresh
      have discovered := stepsLeft_discover graph (⟨frame.node, pending⟩ :: outer) fresh
      have looked : graph.stepsLeft (search, ⟨frame.node, pending⟩ :: outer) + 2 =
          graph.stepsLeft (search, frame :: outer) := by
        simp only [stepsLeft, List.map_cons, List.sum_cons, shape, List.length_cons]
        omega
      omega
  case lookBack =>
      intro successor pending shape _ _
      simp only [stepsLeft, Search.lower_index, List.map_cons, List.sum_cons, shape,
        List.length_cons]
      omega
  case lookPast =>
      intro successor pending shape _ _
      simp only [stepsLeft, List.map_cons, List.sum_cons, shape, List.length_cons]
      omega
  case close =>
      intro _ _
      simp only [stepsLeft, Search.close_index, Search.passLow_index, List.map_cons,
        List.sum_cons]
      omega
  case leave =>
      intro _ _
      simp only [stepsLeft, Search.passLow_index, List.map_cons, List.sum_cons]
      omega

/-- At the start of a visit there are no more steps to come than the search allows. -/
theorem stepsLeft_le_searchBound {graph : Graph} {search : Search} {root : String}
    (fresh : root ∉ search.index) :
    graph.stepsLeft (search.discover root, [Frame.opening graph root]) ≤ searchBound graph := by
  have discovered := stepsLeft_discover graph [] fresh
  have undiscovered :
      (graph.nodes.map fun node =>
        if node ∈ search.index then 0 else graph.visitCost node).sum ≤
          (graph.nodes.map graph.visitCost).sum := by
    apply List.sum_le_sum
    intro node _
    split
    · exact Nat.zero_le _
    · exact le_rfl
  have total := sum_visitCost graph
  simp only [stepsLeft, List.map_nil, List.sum_nil] at discovered ⊢
  unfold searchBound
  omega

/-- What every step keeps holds when the steps have come to an end. -/
theorem Search.run_induction {graph : Graph} {motive : Search × List Frame → Prop}
    (kept : ∀ search frame outer, motive (search, frame :: outer) →
      motive (step graph (search, frame :: outer)))
    (fuel : Nat) (state : Search × List Frame) (enough : graph.stepsLeft state ≤ fuel)
    (start : motive state) : motive (run graph fuel state, []) := by
  induction fuel generalizing state with
  | zero =>
      rcases state with ⟨search, frames⟩
      cases frames with
      | nil => exact start
      | cons frame outer => simp [stepsLeft] at enough
  | succ fuel ih =>
      rcases state with ⟨search, frames⟩
      cases frames with
      | nil => exact start
      | cons frame outer =>
          have less := stepsLeft_step graph search frame outer
          exact ih _ (by omega) (kept search frame outer start)

end Coupling.Graph
