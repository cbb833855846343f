import Mathlib.Data.List.Chain
import Mathlib.Data.List.Nodup
import Coupling.Proofs.Graph.SearchStep

/-!
# Invariants of the cycle search

Four groups of facts hold before and after every step of the search.

* The tables agree: the stack and the closed components together hold every
  discovered node once, and the ranks fall from the top of the stack down.
* The suspended visits lie on the stack along a path of edges, and what they
  still have to look at is all that discovered nodes may lead to beyond the
  discovered nodes.
* Low links are sound: the low link of an open node is the rank of an open node
  that it reaches, below its own rank once its visit has ended. They are also
  complete: an edge that was looked at and leads down the stack is known to a
  visit at or above the innermost visit below its source.
* The closed components are connected, and their edges lead into themselves or
  into components that were closed before.

The last group gains a component when a visit ends at a node whose low link is
its own rank. Then all that lies above the node is reachable from it, and
follows its low links back to it; and by completeness no edge leads from there
to what lies below.
-/

namespace Coupling.Graph

variable {graph : Graph} {search : Search} {frames outer : List Frame}
  {node source target successor : String}

/-- The nodes of suspended visits, innermost first. -/
def trail (frames : List Frame) : List String :=
  frames.map Frame.node

theorem mem_trail_opening :
    node ∈ trail (Frame.opening graph successor :: frames) ↔
      node = successor ∨ node ∈ trail frames :=
  List.mem_cons

/-- The visit of the first name still has to look at its edge to the second. -/
def Awaits (frames : List Frame) (source target : String) : Prop :=
  ∃ frame ∈ frames, frame.node = source ∧ target ∈ frame.pending

/-- Every edge of a component leads into it or into one that stands after it. -/
def LeadsBack (graph : Graph) : List (List String) → Prop
  | [] => True
  | component :: earlier =>
      (∀ source ∈ component, ∀ target, graph.Edge source target →
        target ∈ component ++ earlier.flatten) ∧
      LeadsBack graph earlier

theorem LeadsBack.closed {components : List (List String)} (leads : LeadsBack graph components)
    (sourceMem : source ∈ components.flatten) (edge : graph.Edge source target) :
    target ∈ components.flatten := by
  induction components with
  | nil => simp at sourceMem
  | cons component earlier ih =>
      rw [List.flatten_cons] at sourceMem ⊢
      rcases List.mem_append.mp sourceMem with inFirst | inEarlier
      · exact leads.1 source inFirst target edge
      · exact List.mem_append_right _ (ih leads.2 inEarlier)

theorem LeadsBack.closed_reaches {components : List (List String)}
    (leads : LeadsBack graph components) (sourceMem : source ∈ components.flatten)
    (reaches : graph.Reaches source target) : target ∈ components.flatten :=
  reaches.closed (fun name => name ∈ components.flatten)
    (fun _ _ nameMem edge => leads.closed nameMem edge) sourceMem

namespace Search

/-- The tables of the search agree with each other. -/
structure Tables (search : Search) : Prop where
  onStack_iff : ∀ node, node ∈ search.onStack ↔ node ∈ search.stack
  discovered_iff : ∀ node, node ∈ search.index ↔ node ∈ search.stack ++ search.components.flatten
  placed_nodup : (search.stack ++ search.components.flatten).Nodup
  lowLink_iff : ∀ node, node ∈ search.lowLink ↔ node ∈ search.index
  rank_lt : ∀ node ∈ search.index, search.rank node < search.counter
  counter_eq : search.counter = search.index.size
  descending : search.stack.Pairwise fun later earlier => search.rank earlier < search.rank later

/-- The suspended visits fit the stack and the graph. -/
structure Visits (graph : Graph) (search : Search) (frames : List Frame) : Prop where
  trail_sublist : (trail frames).Sublist search.stack
  trail_path : (trail frames).IsChain fun inner outer => graph.Edge outer inner
  pending_edge : ∀ frame ∈ frames, ∀ target ∈ frame.pending, graph.Edge frame.node target
  looked : ∀ source ∈ search.index, ∀ target, graph.Edge source target →
    target ∈ search.index ∨ Awaits frames source target
  covered : ∀ node ∈ search.stack, ∃ visited ∈ trail frames,
    search.rank visited ≤ search.rank node

/-- The low links tell which open nodes reach further down the stack. -/
structure Links (graph : Graph) (search : Search) (frames : List Frame) : Prop where
  low_le : ∀ node ∈ search.stack, search.low node ≤ search.rank node
  low_reached : ∀ node ∈ search.stack, ∃ lowest ∈ search.stack,
    graph.Reaches node lowest ∧ search.rank lowest = search.low node
  low_lt : ∀ node ∈ search.stack, node ∉ trail frames → search.low node < search.rank node
  visit_reaches : ∀ visited ∈ trail frames, ∀ node ∈ search.stack,
    search.rank visited ≤ search.rank node → graph.Reaches visited node
  edge_known : ∀ source ∈ search.stack, ∀ target ∈ search.stack, graph.Edge source target →
    ¬Awaits frames source target → ∀ visited ∈ trail frames,
      search.rank visited ≤ search.rank source →
        ∃ inner ∈ trail frames, search.rank visited ≤ search.rank inner ∧
          search.low inner ≤ search.rank target

/-- What holds before and after every step. -/
structure Invariant (graph : Graph) (search : Search) (frames : List Frame) : Prop where
  tables : Tables search
  visits : Visits graph search frames
  links : Links graph search frames
  connected : ∀ component ∈ search.components,
    component ≠ [] ∧ graph.Connected {node | node ∈ component}
  leadsBack : LeadsBack graph search.components

theorem invariant_start (graph : Graph) : Invariant graph start [] where
  tables := by constructor <;> simp [start]
  visits := by constructor <;> simp [start, trail]
  links := by constructor <;> simp [start, trail]
  connected := by simp [start]
  leadsBack := trivial

namespace Tables

theorem mem_index_of_mem_stack (tables : Tables search) (nodeMem : node ∈ search.stack) :
    node ∈ search.index :=
  (tables.discovered_iff node).mpr (List.mem_append_left _ nodeMem)

theorem ne_of_fresh (tables : Tables search) (fresh : node ∉ search.index)
    (otherMem : source ∈ search.stack) : source ≠ node := by
  rintro rfl
  exact fresh (tables.mem_index_of_mem_stack otherMem)

theorem stack_nodup (tables : Tables search) : search.stack.Nodup :=
  tables.placed_nodup.of_append_left

/-- An open node lies in no closed component. -/
theorem not_mem_components (tables : Tables search) (nodeMem : node ∈ search.stack) :
    node ∉ search.components.flatten := by
  intro closedMem
  exact List.disjoint_of_nodup_append tables.placed_nodup nodeMem closedMem

/-- What stands above an open node was discovered after it, and what stands below before it. -/
theorem mem_above_iff (tables : Tables search) {above below : List String}
    (split : search.stack = above ++ node :: below) :
    source ∈ above ++ [node] ↔ source ∈ search.stack ∧ search.rank node ≤ search.rank source := by
  have descending := tables.descending
  rw [split, List.pairwise_append, List.pairwise_cons] at descending
  rcases descending with ⟨_, ⟨below_lt, _⟩, above_lt⟩
  rw [split]
  constructor
  · intro sourceMem
    rcases List.mem_append.mp sourceMem with inAbove | isNode
    · exact ⟨by simp [inAbove], (above_lt source inAbove node List.mem_cons_self).le⟩
    · rw [List.mem_singleton] at isNode
      simp [isNode]
  · rintro ⟨sourceMem, rank_le⟩
    rcases List.mem_append.mp sourceMem with inAbove | atMost
    · exact List.mem_append_left _ inAbove
    · rcases List.mem_cons.mp atMost with rfl | inBelow
      · simp
      · have := below_lt source inBelow
        omega

theorem rank_lt_of_mem_below (tables : Tables search) {above below : List String}
    (split : search.stack = above ++ node :: below) (sourceMem : source ∈ below) :
    search.rank source < search.rank node := by
  have descending := tables.descending
  rw [split, List.pairwise_append, List.pairwise_cons] at descending
  exact descending.2.1.1 source sourceMem

theorem mem_below_of_rank_lt (tables : Tables search) {above below : List String}
    (split : search.stack = above ++ node :: below) (otherOpen : other ∈ search.stack)
    (rank_lt : search.rank other < search.rank node) : other ∈ below := by
  rw [split, List.append_cons] at otherOpen
  refine (List.mem_append.mp otherOpen).resolve_left fun inAbove => ?_
  have := ((tables.mem_above_iff split).mp inAbove).2
  omega

protected theorem lower (tables : Tables search) (node : String) (candidate : Nat) :
    Tables (search.lower node candidate) where
  onStack_iff := by simpa using tables.onStack_iff
  discovered_iff := by simpa using tables.discovered_iff
  placed_nodup := by simpa using tables.placed_nodup
  lowLink_iff := by simpa [mem_lowLink_lower] using tables.lowLink_iff
  rank_lt := by simpa using tables.rank_lt
  counter_eq := by simpa using tables.counter_eq
  descending := by simpa using tables.descending

protected theorem discover (tables : Tables search) (fresh : node ∉ search.index) :
    Tables (search.discover node) := by
  have unplaced : node ∉ search.stack ++ search.components.flatten :=
    fun placed => fresh ((tables.discovered_iff node).mpr placed)
  have older : ∀ other ∈ search.stack, other ≠ node :=
    fun other otherMem => tables.ne_of_fresh fresh otherMem
  constructor
  case onStack_iff =>
      intro other
      have old := tables.onStack_iff other
      simp only [discover, Std.ExtTreeSet.mem_insert, Std.compare_eq_iff_eq, List.mem_cons, old,
        eq_comm (a := node)]
  case discovered_iff =>
      intro other
      rw [mem_index_discover, tables.discovered_iff]
      simp [discover]
  case placed_nodup =>
      exact List.nodup_cons.mpr ⟨unplaced, tables.placed_nodup⟩
  case lowLink_iff =>
      intro other
      have old := tables.lowLink_iff other
      simp only [discover, Std.ExtTreeMap.mem_insert, old]
  case rank_lt =>
      intro other otherMem
      rw [mem_index_discover] at otherMem
      by_cases same : other = node
      · subst same
        rw [rank_discover_self]
        exact Nat.lt_succ_self _
      · rw [rank_discover_of_ne same]
        exact Nat.lt_succ_of_lt (tables.rank_lt other (otherMem.resolve_left same))
  case counter_eq =>
      simp [discover, Std.ExtTreeMap.size_insert, fresh, tables.counter_eq]
  case descending =>
      refine List.pairwise_cons.mpr ⟨?_, ?_⟩
      · intro other otherMem
        rw [rank_discover_self, rank_discover_of_ne (older other otherMem)]
        exact tables.rank_lt other (tables.mem_index_of_mem_stack otherMem)
      · apply tables.descending.imp_of_mem
        intro later earlier laterMem earlierMem lt
        rwa [rank_discover_of_ne (older later laterMem),
          rank_discover_of_ne (older earlier earlierMem)]

theorem not_mem_above (tables : Tables search) {above below : List String}
    (split : search.stack = above ++ node :: below) : node ∉ above := by
  have nodup := tables.stack_nodup
  rw [split, List.nodup_append] at nodup
  intro nodeMem
  exact nodup.2.2 node nodeMem node List.mem_cons_self rfl

/-- Closing a component takes it and what lies above it off the stack. -/
theorem close_eq (tables : Tables search) {above below : List String}
    (split : search.stack = above ++ node :: below) :
    (search.close node).stack = below ∧
      (search.close node).components = (above ++ [node]) :: search.components ∧
      ∀ other, other ∈ (search.close node).onStack ↔
        other ∈ search.onStack ∧ other ∉ above ++ [node] := by
  have popped : popThrough node search.stack = (above ++ [node], below) := by
    rw [split, popThrough_append (tables.not_mem_above split)]
  simp only [close, popped]
  exact ⟨trivial, trivial, fun other => mem_foldl_erase⟩

protected theorem close (tables : Tables search) {above below : List String}
    (split : search.stack = above ++ node :: below) : Tables (search.close node) := by
  rcases tables.close_eq split with ⟨stackEq, componentsEq, onStackIff⟩
  -- Closing moves names from the stack to the components and changes no other table.
  have moved : (search.stack ++ search.components.flatten).Perm
      ((search.close node).stack ++ (search.close node).components.flatten) := by
    rw [stackEq, componentsEq, split, List.flatten_cons, ← List.append_assoc,
      List.append_cons above node below]
    exact List.perm_append_comm.append_right _
  constructor
  case onStack_iff =>
      intro other
      have nodup := tables.stack_nodup
      rw [split, List.append_cons, List.nodup_append] at nodup
      rw [onStackIff, tables.onStack_iff, stackEq, split, List.append_cons, List.mem_append]
      constructor
      · rintro ⟨inAbove | inBelow, notAbove⟩
        · exact absurd inAbove notAbove
        · exact inBelow
      · intro inBelow
        exact ⟨Or.inr inBelow, fun inAbove => nodup.2.2 other inAbove other inBelow rfl⟩
  case discovered_iff =>
      intro other
      rw [close_index, tables.discovered_iff]
      exact moved.mem_iff
  case placed_nodup => exact moved.nodup_iff.mp tables.placed_nodup
  case lowLink_iff => exact tables.lowLink_iff
  case rank_lt => exact tables.rank_lt
  case counter_eq => exact tables.counter_eq
  case descending =>
      have descending := tables.descending
      rw [split, List.append_cons] at descending
      rw [stackEq]
      exact (List.pairwise_append.mp descending).2.1

end Tables

namespace Visits

theorem mem_stack_of_mem_trail (visits : Visits graph search frames)
    (nodeMem : node ∈ trail frames) : node ∈ search.stack :=
  visits.trail_sublist.subset nodeMem

/-- The ranks of the visited nodes fall from the innermost visit outwards. -/
theorem rank_lt_head (visits : Visits graph search frames) (tables : Tables search)
    {inner : List String} (shape : trail frames = node :: inner) (sourceMem : source ∈ inner) :
    search.rank source < search.rank node := by
  have descending := tables.descending.sublist visits.trail_sublist
  rw [shape] at descending
  exact (List.pairwise_cons.mp descending).1 source sourceMem

theorem rank_le_head (visits : Visits graph search frames) (tables : Tables search)
    {inner : List String} (shape : trail frames = node :: inner)
    (sourceMem : source ∈ trail frames) : search.rank source ≤ search.rank node := by
  rw [shape] at sourceMem
  rcases List.mem_cons.mp sourceMem with rfl | inInner
  · exact le_rfl
  · exact (visits.rank_lt_head tables shape inInner).le

end Visits

theorem awaits_opening_iff (old : source ≠ successor) :
    Awaits (Frame.opening graph successor :: frames) source target ↔
      Awaits frames source target := by
  simp [Awaits, Frame.opening, old.symm]

/-- A new node may be visited if there is an edge to it from the innermost visited node. -/
protected theorem Visits.discover (visits : Visits graph search frames) (tables : Tables search)
    (fresh : successor ∉ search.index)
    (entered : ∀ visited ∈ (trail frames).head?, graph.Edge visited successor) :
    Visits graph (search.discover successor) (Frame.opening graph successor :: frames) := by
  constructor
  case trail_sublist => exact visits.trail_sublist.cons_cons successor
  case trail_path => exact List.isChain_cons.mpr ⟨entered, visits.trail_path⟩
  case pending_edge =>
      intro frame frameMem target targetMem
      rcases List.mem_cons.mp frameMem with rfl | oldFrame
      · exact mem_toList_successors.mp targetMem
      · exact visits.pending_edge frame oldFrame target targetMem
  case looked =>
      intro source sourceMem target edge
      rw [mem_index_discover] at sourceMem ⊢
      by_cases same : source = successor
      · subst same
        exact Or.inr ⟨_, List.mem_cons_self, rfl, mem_toList_successors.mpr edge⟩
      · rcases visits.looked source (sourceMem.resolve_left same) target edge with known | awaits
        · exact Or.inl (Or.inr known)
        · exact Or.inr ((awaits_opening_iff same).mpr awaits)
  case covered =>
      intro node nodeMem
      rcases List.mem_cons.mp nodeMem with rfl | oldNode
      · exact ⟨node, List.mem_cons_self, le_rfl⟩
      · rcases visits.covered node oldNode with ⟨visited, visitedMem, rank_le⟩
        have oldVisited := visits.mem_stack_of_mem_trail visitedMem
        refine ⟨visited, List.mem_cons_of_mem _ visitedMem, ?_⟩
        rwa [rank_discover_of_ne (tables.ne_of_fresh fresh oldVisited),
          rank_discover_of_ne (tables.ne_of_fresh fresh oldNode)]

protected theorem Links.discover (links : Links graph search frames)
    (visits : Visits graph search frames) (tables : Tables search)
    (fresh : successor ∉ search.index)
    (entered : ∀ visited ∈ (trail frames).head?, graph.Edge visited successor) :
    Links graph (search.discover successor) (Frame.opening graph successor :: frames) := by
  have rankOld : ∀ other ∈ search.stack, (search.discover successor).rank other =
      search.rank other := fun other old => rank_discover_of_ne (tables.ne_of_fresh fresh old)
  have lowOld : ∀ other ∈ search.stack, (search.discover successor).low other =
      search.low other := fun other old => low_discover_of_ne (tables.ne_of_fresh fresh old)
  have rank_lt : ∀ other ∈ search.stack, search.rank other < search.counter :=
    fun other old => tables.rank_lt other (tables.mem_index_of_mem_stack old)
  constructor
  case low_le =>
      intro node nodeMem
      rcases List.mem_cons.mp nodeMem with rfl | oldNode
      · rw [low_discover_self, rank_discover_self]
      · rw [lowOld node oldNode, rankOld node oldNode]
        exact links.low_le node oldNode
  case low_reached =>
      intro node nodeMem
      rcases List.mem_cons.mp nodeMem with rfl | oldNode
      · refine ⟨node, List.mem_cons_self, .refl node, ?_⟩
        rw [low_discover_self, rank_discover_self]
      · rcases links.low_reached node oldNode with ⟨lowest, lowestMem, reaches, rankEq⟩
        refine ⟨lowest, List.mem_cons_of_mem _ lowestMem, reaches, ?_⟩
        rwa [rankOld lowest lowestMem, lowOld node oldNode]
  case low_lt =>
      intro node nodeMem notVisited
      rcases List.mem_cons.mp nodeMem with rfl | oldNode
      · exact absurd List.mem_cons_self notVisited
      · rw [lowOld node oldNode, rankOld node oldNode]
        exact links.low_lt node oldNode fun visited => notVisited (List.mem_cons_of_mem _ visited)
  case visit_reaches =>
      intro visited visitedMem node nodeMem rank_le
      rcases mem_trail_opening.mp visitedMem with rfl | oldVisited
      · rcases List.mem_cons.mp nodeMem with rfl | oldNode
        · exact .refl _
        · have := rank_lt node oldNode
          rw [rankOld node oldNode, rank_discover_self] at rank_le
          omega
      · have visitedOpen := visits.mem_stack_of_mem_trail oldVisited
        rcases List.mem_cons.mp nodeMem with rfl | oldNode
        · -- The innermost visited node lies above the visited one and has an edge to the new one.
          cases shape : trail frames with
          | nil =>
              rw [shape] at oldVisited
              simp at oldVisited
          | cons innermost rest =>
              have innermostMem : innermost ∈ trail frames := by simp [shape]
              have reaches := links.visit_reaches visited oldVisited innermost
                (visits.mem_stack_of_mem_trail innermostMem)
                (visits.rank_le_head tables shape oldVisited)
              exact reaches.trans (.ofEdge (entered innermost (by simp [shape])))
        · rw [rankOld visited visitedOpen, rankOld node oldNode] at rank_le
          exact links.visit_reaches visited oldVisited node oldNode rank_le
  case edge_known =>
      intro source sourceMem target targetMem edge notAwaits visited visitedMem rank_le
      rcases List.mem_cons.mp sourceMem with rfl | oldSource
      · -- The new node has looked at none of its edges.
        exact absurd ⟨_, List.mem_cons_self, rfl, mem_toList_successors.mpr edge⟩ notAwaits
      rw [rankOld source oldSource] at rank_le
      have := rank_lt source oldSource
      rcases mem_trail_opening.mp visitedMem with rfl | oldVisited
      · rw [rank_discover_self] at rank_le
        omega
      have visitedOpen := visits.mem_stack_of_mem_trail oldVisited
      rw [rankOld visited visitedOpen] at rank_le
      rcases List.mem_cons.mp targetMem with rfl | oldTarget
      · refine ⟨visited, List.mem_cons_of_mem _ oldVisited, le_rfl, ?_⟩
        have low_le := links.low_le visited visitedOpen
        rw [lowOld visited visitedOpen, rank_discover_self]
        omega
      · rw [awaits_opening_iff (tables.ne_of_fresh fresh oldSource)] at notAwaits
        rcases links.edge_known source oldSource target oldTarget edge notAwaits visited
          oldVisited rank_le with ⟨inner, innerMem, innerRank, innerLow⟩
        have innerOpen := visits.mem_stack_of_mem_trail innerMem
        refine ⟨inner, List.mem_cons_of_mem _ innerMem, ?_, ?_⟩
        · rwa [rankOld visited visitedOpen, rankOld inner innerOpen]
        · rwa [lowOld inner innerOpen, rankOld target oldTarget]

theorem awaits_of_settled {inner : List Frame} {pending : List String}
    (awaits : Awaits (inner ++ ⟨node, successor :: pending⟩ :: outer) source target) :
    (source = node ∧ target = successor) ∨
      Awaits (inner ++ ⟨node, pending⟩ :: outer) source target := by
  rcases awaits with ⟨frame, frameMem, rfl, targetMem⟩
  rcases List.mem_append.mp frameMem with inInner | rest
  · exact Or.inr ⟨frame, by simp [inInner], rfl, targetMem⟩
  · rcases List.mem_cons.mp rest with rfl | inOuter
    · rcases List.mem_cons.mp targetMem with isNext | later
      · exact Or.inl ⟨rfl, isNext⟩
      · exact Or.inr ⟨⟨node, pending⟩, by simp, rfl, later⟩
    · exact Or.inr ⟨frame, by simp [inOuter], rfl, targetMem⟩

namespace Invariant

protected theorem discover (invariant : Invariant graph search frames)
    (fresh : successor ∉ search.index)
    (entered : ∀ visited ∈ (trail frames).head?, graph.Edge visited successor) :
    Invariant graph (search.discover successor) (Frame.opening graph successor :: frames) where
  tables := invariant.tables.discover fresh
  visits := invariant.visits.discover invariant.tables fresh entered
  links := invariant.links.discover invariant.visits invariant.tables fresh entered
  connected := invariant.connected
  leadsBack := invariant.leadsBack

/-- The low link of an open node may fall to the rank of an open node that it reaches. -/
protected theorem lower (invariant : Invariant graph search frames)
    (nodeMem : node ∈ search.stack) (targetMem : target ∈ search.stack)
    (reaches : graph.Reaches node target) :
    Invariant graph (search.lower node (search.rank target)) frames := by
  rcases invariant with ⟨tables, visits, links, connected, leadsBack⟩
  have present : node ∈ search.lowLink :=
    (tables.lowLink_iff node).mpr (tables.mem_index_of_mem_stack nodeMem)
  refine ⟨tables.lower _ _, ?_, ?_, by simpa using connected, by simpa using leadsBack⟩
  · constructor
    case trail_sublist => simpa using visits.trail_sublist
    case trail_path => exact visits.trail_path
    case pending_edge => exact visits.pending_edge
    case looked => simpa using visits.looked
    case covered => simpa using visits.covered
  · constructor <;> simp only [lower_stack, lower_rank]
    case low_le =>
        intro other otherMem
        exact low_lower_le.trans (links.low_le other otherMem)
    case low_reached =>
        intro other otherMem
        by_cases unchanged : (search.lower node (search.rank target)).low other = search.low other
        · rw [unchanged]
          exact links.low_reached other otherMem
        · have same : other = node := by
            by_contra different
            exact unchanged (low_lower_of_ne different)
          subst same
          rw [low_lower_self present] at unchanged ⊢
          exact ⟨target, targetMem, reaches, by omega⟩
    case low_lt =>
        intro other otherMem notVisited
        exact low_lower_le.trans_lt (links.low_lt other otherMem notVisited)
    case visit_reaches => exact links.visit_reaches
    case edge_known =>
        intro source sourceMem other otherMem edge notAwaits visited visitedMem rank_le
        rcases links.edge_known source sourceMem other otherMem edge notAwaits visited visitedMem
          rank_le with ⟨inner, innerMem, innerRank, innerLow⟩
        exact ⟨inner, innerMem, innerRank, low_lower_le.trans innerLow⟩

/-- A visit may go on past a discovered successor once the edge to it is known. -/
theorem settle (inner : List Frame) {pending : List String}
    (invariant : Invariant graph search (inner ++ ⟨node, successor :: pending⟩ :: outer))
    (known : successor ∈ search.index)
    (edgeKnown : successor ∈ search.stack →
      ∀ visited ∈ trail (inner ++ ⟨node, pending⟩ :: outer),
        search.rank visited ≤ search.rank node →
          ∃ lower ∈ trail (inner ++ ⟨node, pending⟩ :: outer),
            search.rank visited ≤ search.rank lower ∧
              search.low lower ≤ search.rank successor) :
    Invariant graph search (inner ++ ⟨node, pending⟩ :: outer) := by
  rcases invariant with ⟨tables, visits, links, connected, leadsBack⟩
  have trailEq : trail (inner ++ ⟨node, successor :: pending⟩ :: outer) =
      trail (inner ++ ⟨node, pending⟩ :: outer) := by
    simp [trail]
  refine ⟨tables, ?_, ?_, connected, leadsBack⟩
  · constructor
    case trail_sublist => exact trailEq ▸ visits.trail_sublist
    case trail_path => exact trailEq ▸ visits.trail_path
    case pending_edge =>
        intro frame frameMem target targetMem
        rcases List.mem_append.mp frameMem with inInner | rest
        · exact visits.pending_edge frame (by simp [inInner]) target targetMem
        · rcases List.mem_cons.mp rest with rfl | inOuter
          · exact visits.pending_edge ⟨node, successor :: pending⟩ (by simp) target
              (List.mem_cons_of_mem _ targetMem)
          · exact visits.pending_edge frame (by simp [inOuter]) target targetMem
    case looked =>
        intro source sourceMem target edge
        rcases visits.looked source sourceMem target edge with discovered | awaits
        · exact Or.inl discovered
        · rcases awaits_of_settled awaits with ⟨_, rfl⟩ | stillAwaits
          · exact Or.inl known
          · exact Or.inr stillAwaits
    case covered => exact trailEq ▸ visits.covered
  · constructor
    case low_le => exact links.low_le
    case low_reached => exact links.low_reached
    case low_lt => exact trailEq ▸ links.low_lt
    case visit_reaches => exact trailEq ▸ links.visit_reaches
    case edge_known =>
        intro source sourceMem target targetMem edge notAwaits visited visitedMem rank_le
        by_cases awaited : Awaits (inner ++ ⟨node, successor :: pending⟩ :: outer) source target
        · rcases awaits_of_settled awaited with ⟨rfl, rfl⟩ | stillAwaits
          · exact edgeKnown targetMem visited visitedMem rank_le
          · exact absurd stillAwaits notAwaits
        · rw [← trailEq] at visitedMem ⊢
          exact links.edge_known source sourceMem target targetMem edge awaited visited visitedMem
            rank_le

end Invariant

theorem sublist_of_cons_sublist {above below rest : List String} (first : node ∉ above)
    (sublist : (node :: rest).Sublist (above ++ node :: below)) : rest.Sublist below := by
  induction above with
  | nil => exact List.cons_sublist_cons.mp sublist
  | cons top above ih =>
      rw [List.mem_cons, not_or] at first
      exact ih first.2 (sublist.of_cons_of_ne first.1)

theorem awaits_of_ended (awaits : Awaits (⟨node, []⟩ :: outer) source target) :
    Awaits outer source target := by
  rcases awaits with ⟨frame, frameMem, rfl, targetMem⟩
  rcases List.mem_cons.mp frameMem with rfl | inOuter
  · simp at targetMem
  · exact ⟨frame, inOuter, rfl, targetMem⟩

section Close

variable {above below : List String} (tables : Tables search)
  (split : search.stack = above ++ node :: below)

include tables split

protected theorem Visits.close (visits : Visits graph search (⟨node, []⟩ :: outer)) :
    Visits graph (search.close node) outer := by
  rcases tables.close_eq split with ⟨stackEq, _, _⟩
  constructor
  case trail_sublist =>
      rw [stackEq]
      apply sublist_of_cons_sublist (tables.not_mem_above split)
      exact split ▸ visits.trail_sublist
  case trail_path => exact (List.isChain_cons.mp visits.trail_path).2
  case pending_edge =>
      intro frame frameMem
      exact visits.pending_edge frame (List.mem_cons_of_mem _ frameMem)
  case looked =>
      intro source sourceMem target edge
      exact (visits.looked source sourceMem target edge).imp_right awaits_of_ended
  case covered =>
      rw [stackEq]
      intro other otherMem
      have otherOpen : other ∈ search.stack := by simp [split, otherMem]
      have rank_lt := tables.rank_lt_of_mem_below split otherMem
      rcases visits.covered other otherOpen with ⟨visited, visitedMem, rank_le⟩
      rcases List.mem_cons.mp visitedMem with rfl | inOuter
      · exact absurd rank_le (Nat.not_le.mpr rank_lt)
      · exact ⟨visited, inOuter, rank_le⟩

protected theorem Links.close (links : Links graph search (⟨node, []⟩ :: outer))
    (root : search.low node = search.rank node) : Links graph (search.close node) outer := by
  rcases tables.close_eq split with ⟨stackEq, _, _⟩
  have openBelow : ∀ other ∈ below, other ∈ search.stack := by
    intro other otherMem
    simp [split, otherMem]
  have rank_lt : ∀ other ∈ below, search.rank other < search.rank node :=
    fun other otherMem => tables.rank_lt_of_mem_below split otherMem
  constructor <;> rw [stackEq]
  case low_le => exact fun other otherMem => links.low_le other (openBelow other otherMem)
  case low_reached =>
      intro other otherMem
      have otherOpen := openBelow other otherMem
      rcases links.low_reached other otherOpen with ⟨lowest, lowestOpen, reaches, rankEq⟩
      have := links.low_le other otherOpen
      have := rank_lt other otherMem
      have lowestMem := tables.mem_below_of_rank_lt split lowestOpen (by omega)
      exact ⟨lowest, lowestMem, reaches, rankEq⟩
  case low_lt =>
      intro other otherMem notVisited
      apply links.low_lt other (openBelow other otherMem)
      intro visitedMem
      rcases List.mem_cons.mp visitedMem with rfl | inOuter
      · exact lt_irrefl _ (rank_lt other otherMem)
      · exact notVisited inOuter
  case visit_reaches =>
      intro visited visitedMem other otherMem
      exact links.visit_reaches visited (List.mem_cons_of_mem _ visitedMem) other
        (openBelow other otherMem)
  case edge_known =>
      intro source sourceMem target targetMem edge notAwaits visited visitedMem rank_le
      rcases links.edge_known source (openBelow source sourceMem) target (openBelow target
        targetMem) edge (fun awaits => notAwaits (awaits_of_ended awaits)) visited
        (List.mem_cons_of_mem _ visitedMem) rank_le with ⟨inner, innerMem, innerRank, innerLow⟩
      rcases List.mem_cons.mp innerMem with rfl | inOuter
      · have := rank_lt target targetMem
        change search.low inner = search.rank inner at root
        change search.low inner ≤ search.rank target at innerLow
        omega
      · exact ⟨inner, inOuter, innerRank, innerLow⟩

end Close

namespace Invariant

/-- The outermost visit ends at the bottom of the stack, so nothing lies below its low link. -/
theorem low_eq_rank_of_outermost (invariant : Invariant graph search [⟨node, []⟩]) :
    search.low node = search.rank node := by
  have nodeMem : node ∈ search.stack :=
    invariant.visits.mem_stack_of_mem_trail (by simp [trail])
  rcases invariant.links.low_reached node nodeMem with ⟨lowest, lowestMem, _, rankEq⟩
  rcases invariant.visits.covered lowest lowestMem with ⟨visited, visitedMem, rank_le⟩
  have same : visited = node := by simpa [trail] using visitedMem
  have low_le := invariant.links.low_le node nodeMem
  rw [same] at rank_le
  omega

/-- The visit around one that ends learns its low link. -/
theorem passLow (invariant : Invariant graph search (⟨node, []⟩ :: outer)) :
    Invariant graph (search.passLow node outer) (⟨node, []⟩ :: outer) ∧
      (search.passLow node outer).low node = search.low node ∧
      ∀ parent ∈ (trail outer).head?, (search.passLow node outer).low parent ≤ search.low node := by
  cases outer with
  | nil => exact ⟨invariant, rfl, by simp [trail]⟩
  | cons parent rest =>
      have nodeMem : node ∈ search.stack :=
        invariant.visits.mem_stack_of_mem_trail List.mem_cons_self
      have parentMem : parent.node ∈ search.stack :=
        invariant.visits.mem_stack_of_mem_trail (by simp [trail])
      have parentEdge : graph.Edge parent.node node :=
        (List.isChain_cons.mp invariant.visits.trail_path).1 parent.node (by simp)
      have parentRank : search.rank parent.node < search.rank node :=
        invariant.visits.rank_lt_head invariant.tables rfl (by simp)
      rcases invariant.links.low_reached node nodeMem with ⟨lowest, lowestMem, reaches, rankEq⟩
      have different : node ≠ parent.node := by
        intro same
        rw [← same] at parentRank
        exact lt_irrefl _ parentRank
      have present : parent.node ∈ search.lowLink :=
        (invariant.tables.lowLink_iff _).mpr (invariant.tables.mem_index_of_mem_stack parentMem)
      refine ⟨?_, low_lower_of_ne different, ?_⟩
      · simp only [Search.passLow, ← rankEq]
        exact invariant.lower parentMem lowestMem ((Reaches.ofEdge parentEdge).trans reaches)
      · intro visited isParent
        have same : visited = parent.node := by simpa [trail, eq_comm] using isParent
        rw [same, Search.passLow, low_lower_self present]
        exact Nat.min_le_right _ _

/-- A visit may end if its node lies above its low link and the visit around it knows that. -/
theorem leave (invariant : Invariant graph search (⟨node, []⟩ :: outer))
    (low_lt : search.low node < search.rank node)
    (told : ∃ parent ∈ (trail outer).head?, search.low parent ≤ search.low node) :
    Invariant graph search outer := by
  rcases invariant with ⟨tables, visits, links, connected, leadsBack⟩
  rcases told with ⟨parent, isParent, parentLow⟩
  have : ∃ rest, trail outer = parent :: rest := by
    cases shape : trail outer with
    | nil => simp [shape] at isParent
    | cons first rest =>
        rw [shape] at isParent
        exact ⟨rest, by simpa using isParent⟩
  rcases this with ⟨rest, outerShape⟩
  have parentMem : parent ∈ trail outer := by simp [outerShape]
  have parentRank : search.rank parent < search.rank node :=
    visits.rank_lt_head tables rfl parentMem
  have rank_le_parent : ∀ visited ∈ trail outer, search.rank visited ≤ search.rank parent := by
    intro visited visitedMem
    have descending := tables.descending.sublist visits.trail_sublist
    have outerDescending := (List.pairwise_cons.mp descending).2
    change (trail outer).Pairwise _ at outerDescending
    rw [outerShape] at outerDescending visitedMem
    rcases List.mem_cons.mp visitedMem with rfl | inRest
    · exact le_rfl
    · exact ((List.pairwise_cons.mp outerDescending).1 visited inRest).le
  refine ⟨tables, ?_, ?_, connected, leadsBack⟩
  · constructor
    case trail_sublist => exact (List.sublist_cons_self _ _).trans visits.trail_sublist
    case trail_path => exact (List.isChain_cons.mp visits.trail_path).2
    case pending_edge =>
        intro frame frameMem
        exact visits.pending_edge frame (List.mem_cons_of_mem _ frameMem)
    case looked =>
        intro source sourceMem target edge
        exact (visits.looked source sourceMem target edge).imp_right awaits_of_ended
    case covered =>
        intro other otherMem
        rcases visits.covered other otherMem with ⟨visited, visitedMem, rank_le⟩
        rcases List.mem_cons.mp visitedMem with rfl | inOuter
        · exact ⟨parent, parentMem, parentRank.le.trans rank_le⟩
        · exact ⟨visited, inOuter, rank_le⟩
  · constructor
    case low_le => exact links.low_le
    case low_reached => exact links.low_reached
    case low_lt =>
        intro other otherMem notVisited
        by_cases same : other = node
        · exact same ▸ low_lt
        · apply links.low_lt other otherMem
          intro visitedMem
          exact notVisited ((List.mem_cons.mp visitedMem).resolve_left same)
    case visit_reaches =>
        intro visited visitedMem
        exact links.visit_reaches visited (List.mem_cons_of_mem _ visitedMem)
    case edge_known =>
        intro source sourceMem target targetMem edge notAwaits visited visitedMem rank_le
        rcases links.edge_known source sourceMem target targetMem edge (fun awaits => notAwaits
          (awaits_of_ended awaits)) visited (List.mem_cons_of_mem _ visitedMem) rank_le with
            ⟨inner, innerMem, innerRank, innerLow⟩
        rcases List.mem_cons.mp innerMem with rfl | inOuter
        · exact ⟨parent, parentMem, rank_le_parent visited visitedMem, parentLow.trans innerLow⟩
        · exact ⟨inner, inOuter, innerRank, innerLow⟩

section Closing

variable {above below : List String}

/-- No edge leads from what lies above a node on its own low link to what lies below. -/
theorem popped_leadsBack (invariant : Invariant graph search (⟨node, []⟩ :: outer))
    (root : search.low node = search.rank node) (split : search.stack = above ++ node :: below)
    (sourceMem : source ∈ above ++ [node]) (edge : graph.Edge source target) :
    target ∈ (above ++ [node]) ++ search.components.flatten := by
  rcases invariant with ⟨tables, visits, links, _, _⟩
  rcases (tables.mem_above_iff split).mp sourceMem with ⟨sourceOpen, rank_le⟩
  have rank_lt_node : ∀ visited ∈ trail outer, search.rank visited < search.rank node :=
    fun visited visitedMem => visits.rank_lt_head tables rfl visitedMem
  have notAwaits : ¬Awaits (⟨node, []⟩ :: outer) source target := by
    intro awaits
    rcases awaits_of_ended awaits with ⟨frame, frameMem, rfl, _⟩
    have := rank_lt_node frame.node (List.mem_map_of_mem frameMem)
    omega
  have discovered : target ∈ search.index :=
    (visits.looked source (tables.mem_index_of_mem_stack sourceOpen) target edge).resolve_right
      notAwaits
  rcases List.mem_append.mp ((tables.discovered_iff target).mp discovered) with isOpen | isClosed
  · apply List.mem_append_left
    rw [tables.mem_above_iff split]
    refine ⟨isOpen, ?_⟩
    rcases links.edge_known source sourceOpen target isOpen edge notAwaits node List.mem_cons_self
      rank_le with ⟨inner, innerMem, innerRank, innerLow⟩
    rcases List.mem_cons.mp innerMem with rfl | inOuter
    · exact root ▸ innerLow
    · have := rank_lt_node inner inOuter
      omega
  · exact List.mem_append_right _ isClosed

/-- What lies above a node on its own low link is reachable from it and reaches it. -/
theorem popped_connected (invariant : Invariant graph search (⟨node, []⟩ :: outer))
    (root : search.low node = search.rank node) (split : search.stack = above ++ node :: below) :
    graph.Connected {other | other ∈ above ++ [node]} := by
  have reached : ∀ other ∈ above ++ [node], graph.Reaches node other := by
    intro other otherMem
    rcases (invariant.tables.mem_above_iff split).mp otherMem with ⟨otherOpen, rank_le⟩
    exact invariant.links.visit_reaches node List.mem_cons_self other otherOpen rank_le
  have staysAbove : ∀ {first last}, graph.Reaches first last → first ∈ above ++ [node] →
      last ∈ (above ++ [node]) ++ search.components.flatten := by
    intro first last reaches firstMem
    apply reaches.closed fun name => name ∈ (above ++ [node]) ++ search.components.flatten
    · intro source target sourceMem edge
      rcases List.mem_append.mp sourceMem with inAbove | isClosed
      · exact invariant.popped_leadsBack root split inAbove edge
      · exact List.mem_append_right _ (invariant.leadsBack.closed isClosed edge)
    · exact List.mem_append_left _ firstMem
  -- Low links lead down the stack, but not below the node: induct on the rank.
  have reaching : ∀ rank other, other ∈ above ++ [node] → search.rank other = rank →
      graph.Reaches other node := by
    intro rank
    induction rank using Nat.strong_induction_on with
    | _ rank ih =>
        intro other otherMem rankEq
        rcases (invariant.tables.mem_above_iff split).mp otherMem with ⟨otherOpen, rank_le⟩
        by_cases same : other = node
        · exact same ▸ .refl other
        have notVisited : other ∉ trail (⟨node, []⟩ :: outer) := by
          intro visitedMem
          rcases List.mem_cons.mp visitedMem with isNode | inOuter
          · exact same isNode
          · have below : search.rank other < search.rank node :=
              invariant.visits.rank_lt_head invariant.tables rfl inOuter
            omega
        have low_lt := invariant.links.low_lt other otherOpen notVisited
        rcases invariant.links.low_reached other otherOpen with
          ⟨lowest, lowestOpen, reaches, lowestRank⟩
        have lowestMem : lowest ∈ above ++ [node] :=
          (List.mem_append.mp (staysAbove reaches otherMem)).resolve_right
            (invariant.tables.not_mem_components lowestOpen)
        exact reaches.trans (ih _ (by omega) lowest lowestMem rfl)
  intro source sourceMem target targetMem
  exact (reaching _ source sourceMem rfl).trans (reached target targetMem)

/-- A visit that ends at a node on its own low link closes a component. -/
protected theorem close (invariant : Invariant graph search (⟨node, []⟩ :: outer))
    (root : search.low node = search.rank node) : Invariant graph (search.close node) outer := by
  have nodeOpen : node ∈ search.stack :=
    invariant.visits.mem_stack_of_mem_trail List.mem_cons_self
  rcases List.append_of_mem nodeOpen with ⟨above, below, split⟩
  have leads : ∀ source ∈ above ++ [node], ∀ target, graph.Edge source target →
      target ∈ (above ++ [node]) ++ search.components.flatten :=
    fun source sourceMem target edge => invariant.popped_leadsBack root split sourceMem edge
  have popped := invariant.popped_connected root split
  rcases invariant with ⟨tables, visits, links, connected, leadsBack⟩
  rcases tables.close_eq split with ⟨_, componentsEq, _⟩
  refine ⟨tables.close split, visits.close tables split, links.close tables split root, ?_, ?_⟩
  · rw [componentsEq]
    intro component componentMem
    rcases List.mem_cons.mp componentMem with rfl | old
    · exact ⟨by simp, popped⟩
    · exact connected component old
  · rw [componentsEq]
    exact ⟨leads, leadsBack⟩

end Closing

/-- Every step of the search keeps the invariant. -/
protected theorem step {frame : Frame}
    (invariant : Invariant graph search (frame :: outer)) :
    Invariant graph (Search.step graph (search, frame :: outer)).1
      (Search.step graph (search, frame :: outer)).2 := by
  rcases frame with ⟨node, pending⟩
  have nodeOpen : node ∈ search.stack :=
    invariant.visits.mem_stack_of_mem_trail List.mem_cons_self
  have nodeKnown : node ∈ search.index := invariant.tables.mem_index_of_mem_stack nodeOpen
  have pendingEdge : ∀ target ∈ pending, graph.Edge node target :=
    invariant.visits.pending_edge _ List.mem_cons_self
  apply step_cases (motive := fun state => Invariant graph state.1 state.2)
  case discover =>
      rintro successor rest rfl fresh
      have edge : graph.Edge node successor := pendingEdge successor List.mem_cons_self
      have discovered := invariant.discover fresh (by
        intro visited isHead
        have same : visited = node := by simpa [trail, eq_comm] using isHead
        exact same ▸ edge)
      have nodeBelow : (search.discover successor).rank node <
          (search.discover successor).rank successor :=
        discovered.visits.rank_lt_head discovered.tables rfl List.mem_cons_self
      apply settle [Frame.opening graph successor] discovered
      · exact mem_index_discover.mpr (Or.inl rfl)
      · intro _ visited visitedMem rank_le
        have low_le := discovered.links.low_le visited
          (discovered.visits.mem_stack_of_mem_trail visitedMem)
        exact ⟨visited, visitedMem, le_rfl, by omega⟩
  case lookBack =>
      rintro successor rest rfl known isOpen
      rw [invariant.tables.onStack_iff] at isOpen
      have edge : graph.Edge node successor := pendingEdge successor List.mem_cons_self
      have lowered := invariant.lower nodeOpen isOpen (.ofEdge edge)
      apply settle [] lowered
      · simpa using known
      · intro _ visited visitedMem rank_le
        refine ⟨node, List.mem_cons_self, rank_le, ?_⟩
        rw [low_lower_self ((invariant.tables.lowLink_iff node).mpr nodeKnown), lower_rank]
        exact Nat.min_le_right _ _
  case lookPast =>
      rintro successor rest rfl known isClosed
      rw [invariant.tables.onStack_iff] at isClosed
      exact settle [] invariant known fun isOpen => absurd isOpen isClosed
  case close =>
      rintro rfl root
      rcases invariant.passLow with ⟨passed, lowEq, _⟩
      rw [index_eq_some_rank nodeKnown, Option.some.injEq] at root
      exact passed.close (by rw [lowEq, passLow_rank, root])
  case leave =>
      rintro rfl notRoot
      rcases invariant.passLow with ⟨passed, lowEq, told⟩
      have different : search.low node ≠ search.rank node := by
        intro same
        apply notRoot
        rw [index_eq_some_rank nodeKnown]
        exact congrArg some same.symm
      have low_lt : search.low node < search.rank node :=
        lt_of_le_of_ne (invariant.links.low_le node nodeOpen) different
      cases outer with
      | nil => exact absurd invariant.low_eq_rank_of_outermost different
      | cons parent rest =>
          apply passed.leave
          · rw [lowEq, passLow_rank]
            exact low_lt
          · rw [lowEq]
            exact ⟨parent.node, rfl, told parent.node rfl⟩

end Invariant

end Search

end Coupling.Graph
