import Coupling.Proofs.Graph.SearchInvariant

/-!
# The reported cycles

A search from a list of roots discovers exactly what the known roots reach, and
the components that it closes are exactly the components of the graph among
them. The cycles that are reported are the cyclic ones.
-/

namespace Coupling.Graph

variable {graph : Graph} {search : Search} {roots : List String} {root node other : String}

/-- Some root that is a node of the graph reaches the name. -/
def ReachedFrom (graph : Graph) (roots : List String) (node : String) : Prop :=
  ∃ root ∈ roots, graph.contains root = true ∧ graph.Reaches root node

namespace Search

theorem mem_index_step_of_mem {frame : Frame} {outer : List Frame} (nodeMem : node ∈ search.index) :
    node ∈ (step graph (search, frame :: outer)).1.index := by
  apply step_cases (motive := fun state => node ∈ state.1.index)
  case discover =>
      intro successor _ _ _
      exact mem_index_discover.mpr (Or.inr nodeMem)
  case lookBack =>
      intro _ _ _ _ _
      simpa using nodeMem
  case lookPast =>
      intro _ _ _ _ _
      exact nodeMem
  case close =>
      intro _ _
      simpa using nodeMem
  case leave =>
      intro _ _
      simpa using nodeMem

/-- A step discovers nothing but a successor of a discovered node. -/
theorem mem_index_of_mem_step {frame : Frame} {outer : List Frame}
    (invariant : Invariant graph search (frame :: outer))
    (nodeMem : node ∈ (step graph (search, frame :: outer)).1.index) :
    node ∈ search.index ∨ ∃ source ∈ search.index, graph.Edge source node := by
  revert nodeMem
  apply step_cases (motive := fun state => node ∈ state.1.index →
    node ∈ search.index ∨ ∃ source ∈ search.index, graph.Edge source node)
  case discover =>
      intro successor pending shape _ nodeMem
      rcases mem_index_discover.mp nodeMem with rfl | known
      · have visited : frame.node ∈ search.stack :=
          invariant.visits.mem_stack_of_mem_trail List.mem_cons_self
        exact Or.inr ⟨frame.node, invariant.tables.mem_index_of_mem_stack visited,
          invariant.visits.pending_edge frame List.mem_cons_self node (by simp [shape])⟩
      · exact Or.inl known
  case lookBack =>
      intro _ _ _ _ _ nodeMem
      exact Or.inl (by simpa using nodeMem)
  case lookPast =>
      intro _ _ _ _ _ nodeMem
      exact Or.inl nodeMem
  case close =>
      intro _ _ nodeMem
      exact Or.inl (by simpa using nodeMem)
  case leave =>
      intro _ _ nodeMem
      exact Or.inl (by simpa using nodeMem)

namespace Invariant

/-- Between visits the discovered nodes lead to discovered nodes only. -/
theorem index_closed (invariant : Invariant graph search []) (nodeMem : node ∈ search.index)
    (edge : graph.Edge node other) : other ∈ search.index := by
  rcases invariant.visits.looked node nodeMem other edge with known | ⟨frame, frameMem, _⟩
  · exact known
  · simp at frameMem

/-- Between visits no component is open. -/
theorem stack_eq_nil (invariant : Invariant graph search []) : search.stack = [] := by
  rw [List.eq_nil_iff_forall_not_mem]
  intro node nodeMem
  rcases invariant.visits.covered node nodeMem with ⟨visited, visitedMem, _⟩
  simp [trail] at visitedMem

theorem mem_index_iff_mem_components (invariant : Invariant graph search []) :
    node ∈ search.index ↔ node ∈ search.components.flatten := by
  rw [invariant.tables.discovered_iff, invariant.stack_eq_nil, List.nil_append]

/-- A run from a new root keeps what was discovered and adds the root and what it reaches. -/
theorem run_from_root (invariant : Invariant graph search []) (fresh : root ∉ search.index)
    {found : Search} (run : found =
      Search.run graph (searchBound graph) (search.discover root, [Frame.opening graph root])) :
    Invariant graph found [] ∧ (∀ node ∈ search.index, node ∈ found.index) ∧
      root ∈ found.index ∧ ∀ node ∈ found.index, node ∈ search.index ∨ graph.Reaches root node := by
  subst run
  refine run_induction (motive := fun state => Invariant graph state.1 state.2 ∧
    (∀ node ∈ search.index, node ∈ state.1.index) ∧ root ∈ state.1.index ∧
    ∀ node ∈ state.1.index, node ∈ search.index ∨ graph.Reaches root node)
    ?_ (searchBound graph) _ (stepsLeft_le_searchBound fresh) ?_
  · rintro current frame outer ⟨holds, kept, rootKnown, origin⟩
    refine ⟨holds.step, ?_, mem_index_step_of_mem rootKnown, ?_⟩
    · intro node nodeMem
      exact mem_index_step_of_mem (kept node nodeMem)
    · intro node nodeMem
      rcases mem_index_of_mem_step holds nodeMem with known | ⟨source, known, edge⟩
      · exact origin node known
      · rcases origin source known with earlier | reaches
        · exact Or.inl (invariant.index_closed earlier edge)
        · exact Or.inr (reaches.trans (.ofEdge edge))
  · refine ⟨invariant.discover fresh (by simp [trail]), ?_, mem_index_discover.mpr (Or.inl rfl), ?_⟩
    · intro node nodeMem
      exact mem_index_discover.mpr (Or.inr nodeMem)
    · intro node nodeMem
      rcases mem_index_discover.mp nodeMem with rfl | earlier
      · exact Or.inr (.refl node)
      · exact Or.inl earlier

theorem mem_index_of_reaches (invariant : Invariant graph search []) (rootMem : root ∈ search.index)
    (reaches : graph.Reaches root node) : node ∈ search.index :=
  reaches.closed (fun name => name ∈ search.index)
    (fun _ _ sourceMem edge => invariant.index_closed sourceMem edge) rootMem

/-- A visit discovers what its root reaches, and nothing else. -/
theorem visit (invariant : Invariant graph search []) (root : String) :
    Invariant graph (search.visit graph root) [] ∧
      ∀ node, node ∈ (search.visit graph root).index ↔
        node ∈ search.index ∨ graph.contains root = true ∧ graph.Reaches root node := by
  unfold Search.visit
  split
  · rename_i visited
    rw [Bool.and_eq_true, Bool.not_eq_true', ← Bool.not_eq_true,
      Std.ExtTreeMap.contains_iff_mem] at visited
    rcases visited with ⟨isNode, fresh⟩
    rcases invariant.run_from_root fresh rfl with ⟨holds, kept, rootKnown, origin⟩
    refine ⟨holds, fun node => ⟨?_, ?_⟩⟩
    · intro nodeMem
      exact (origin node nodeMem).imp_right fun reaches => ⟨isNode, reaches⟩
    · rintro (earlier | ⟨_, reaches⟩)
      · exact kept node earlier
      · exact holds.mem_index_of_reaches rootKnown reaches
  · rename_i skipped
    refine ⟨invariant, fun node => ⟨Or.inl, ?_⟩⟩
    rintro (earlier | ⟨isNode, reaches⟩)
    · exact earlier
    · have rootKnown : root ∈ search.index := by simpa [isNode] using skipped
      exact invariant.mem_index_of_reaches rootKnown reaches

/-- A search discovers what the known roots reach, and nothing else. -/
theorem visit_all (earlier : List String) (invariant : Invariant graph search [])
    (discovered : ∀ node, node ∈ search.index ↔ graph.ReachedFrom earlier node)
    (roots : List String) :
    Invariant graph (roots.foldl (Search.visit graph) search) [] ∧
      ∀ node, node ∈ (roots.foldl (Search.visit graph) search).index ↔
        graph.ReachedFrom (earlier ++ roots) node := by
  induction roots generalizing search earlier with
  | nil => simpa using ⟨invariant, discovered⟩
  | cons root rest ih =>
      rcases invariant.visit root with ⟨holds, visited⟩
      have next : ∀ node, node ∈ (search.visit graph root).index ↔
          graph.ReachedFrom (earlier ++ [root]) node := by
        intro node
        rw [visited, discovered]
        simp only [ReachedFrom, List.mem_append, List.mem_singleton]
        constructor
        · rintro (⟨known, knownMem, reaches⟩ | reaches)
          · exact ⟨known, Or.inl knownMem, reaches⟩
          · exact ⟨root, Or.inr rfl, reaches⟩
        · rintro ⟨known, knownMem | rfl, reaches⟩
          · exact Or.inl ⟨known, knownMem, reaches⟩
          · exact Or.inr reaches
      rw [List.append_cons]
      exact ih _ holds next

end Invariant

end Search

/-- A name that reaches a component and is reached from it lies in it. -/
theorem LeadsBack.mem_of_mutual {components : List (List String)} {component : List String}
    (leads : LeadsBack graph components) (nodup : components.flatten.Nodup)
    (componentMem : component ∈ components) (nodeMem : node ∈ component)
    (forth : graph.Reaches node other) (back : graph.Reaches other node) : other ∈ component := by
  induction components with
  | nil => simp at componentMem
  | cons first earlier ih =>
      rw [List.flatten_cons, List.nodup_append] at nodup
      rcases List.mem_cons.mp componentMem with rfl | inEarlier
      · -- An earlier component never leads back to a later one.
        have inAll : other ∈ (component :: earlier).flatten :=
          leads.closed_reaches (by simp [nodeMem]) forth
        rw [List.flatten_cons] at inAll
        refine (List.mem_append.mp inAll).resolve_right fun otherEarlier => ?_
        have nodeEarlier : node ∈ earlier.flatten := leads.2.closed_reaches otherEarlier back
        exact nodup.2.2 node nodeMem node nodeEarlier rfl
      · exact ih leads.2 nodup.2.1 inEarlier

/-- Every closed component is a component of the graph. -/
theorem Search.Invariant.isComponent {frames : List Frame} {component : List String}
    (invariant : Search.Invariant graph search frames)
    (componentMem : component ∈ search.components) :
    graph.IsComponent {node | node ∈ component} := by
  rcases invariant.connected component componentMem with ⟨nonempty, connected⟩
  rcases List.exists_mem_of_ne_nil component nonempty with ⟨node, nodeMem⟩
  have nodup : search.components.flatten.Nodup := invariant.tables.placed_nodup.of_append_right
  rw [isComponent_iff]
  refine ⟨node, Set.Subset.antisymm (connected.subset_componentOf nodeMem) ?_⟩
  rintro other ⟨forth, back⟩
  exact invariant.leadsBack.mem_of_mutual nodup componentMem nodeMem forth back

/-- A component is cyclic iff the search takes it for a cycle. -/
theorem isCyclic_iff {component : List String} (nodup : component.Nodup)
    (isComponent : graph.IsComponent {node | node ∈ component}) :
    graph.isCyclic component = true ↔ graph.IsCyclicComponent {node | node ∈ component} := by
  match component with
  | [] =>
      rcases isComponent.nonempty with ⟨node, nodeMem⟩
      simp at nodeMem
  | [single] =>
      have singleton : {node | node ∈ [single]} = {single} := by
        ext node
        simp
      rw [singleton] at isComponent ⊢
      simp [isCyclic, IsCyclicComponent, isComponent, Edge]
  | first :: second :: rest =>
      have different : first ≠ second := by
        intro same
        simp [same] at nodup
      have several : Set.Nontrivial {node | node ∈ first :: second :: rest} :=
        ⟨first, by simp, second, by simp, different⟩
      exact iff_of_true rfl ⟨isComponent, Or.inl several⟩

/-- The lists name exactly the wanted sets, each once and without repetitions. -/
structure ListsExactly (cycles : List (List String)) (wanted : Set String → Prop) : Prop where
  nodup : ∀ cycle ∈ cycles, cycle.Nodup
  sound : ∀ cycle ∈ cycles, wanted {node | node ∈ cycle}
  complete : ∀ members, wanted members → ∃ cycle ∈ cycles, {node | node ∈ cycle} = members
  distinct : cycles.Pairwise fun first second => {node | node ∈ first} ≠ {node | node ∈ second}

/-- A finished search keeps the invariant and has discovered what the known roots reach. -/
theorem Search.invariant_finished (graph : Graph) (roots : List String) :
    Search.Invariant graph (roots.foldl (Search.visit graph) Search.start) [] ∧
      ∀ node, node ∈ (roots.foldl (Search.visit graph) Search.start).index ↔
        graph.ReachedFrom roots node :=
  (Search.invariant_start graph).visit_all [] (by simp [Search.start, ReachedFrom]) roots

/-- The closed components of a finished search are the components that the known roots reach. -/
theorem componentsFrom_listsExactly (graph : Graph) (roots : List String) :
    ListsExactly (graph.componentsFrom roots) fun members =>
      graph.IsComponent members ∧ ∃ node ∈ members, graph.ReachedFrom roots node := by
  rcases Search.invariant_finished graph roots with ⟨invariant, discovered⟩
  unfold componentsFrom
  generalize roots.foldl (Search.visit graph) Search.start = search at invariant discovered
  have nodup := invariant.tables.placed_nodup.of_append_right
  rw [List.nodup_flatten] at nodup
  constructor
  case nodup =>
      intro component componentMem
      exact nodup.1 component (List.mem_reverse.mp componentMem)
  case sound =>
      intro component componentMem
      rw [List.mem_reverse] at componentMem
      rcases invariant.connected component componentMem with ⟨nonempty, _⟩
      rcases List.exists_mem_of_ne_nil component nonempty with ⟨node, nodeMem⟩
      refine ⟨invariant.isComponent componentMem, node, nodeMem, ?_⟩
      rw [← discovered, invariant.mem_index_iff_mem_components]
      exact List.mem_flatten_of_mem componentMem nodeMem
  case complete =>
      rintro members ⟨isComponent, node, nodeMem, reached⟩
      rw [← discovered, invariant.mem_index_iff_mem_components, List.mem_flatten] at reached
      rcases reached with ⟨component, componentMem, inComponent⟩
      refine ⟨component, List.mem_reverse.mpr componentMem, ?_⟩
      rw [isComponent.eq_componentOf nodeMem]
      exact (invariant.isComponent componentMem).eq_componentOf inComponent
  case distinct =>
      rw [List.pairwise_reverse]
      apply nodup.2.imp_of_mem
      intro first second firstMem _ disjoint same
      rcases List.exists_mem_of_ne_nil first (invariant.connected first firstMem).1 with
        ⟨node, nodeMem⟩
      have inSecond : node ∈ second := (Set.ext_iff.mp same node).mpr nodeMem
      exact disjoint nodeMem inSecond

/-- The cycles found from some roots are the cyclic components that a known root reaches. -/
theorem cyclesFrom_listsExactly (graph : Graph) (roots : List String) :
    ListsExactly (graph.cyclesFrom roots) fun members =>
      graph.IsCyclicComponent members ∧ ∃ node ∈ members, graph.ReachedFrom roots node := by
  rcases graph.componentsFrom_listsExactly roots with ⟨nodup, sound, complete, distinct⟩
  constructor
  case nodup =>
      intro cycle cycleMem
      exact nodup cycle (List.mem_of_mem_filter cycleMem)
  case sound =>
      intro cycle cycleMem
      rw [cyclesFrom, List.mem_filter] at cycleMem
      rcases sound cycle cycleMem.1 with ⟨isComponent, reached⟩
      exact ⟨(isCyclic_iff (nodup cycle cycleMem.1) isComponent).mp cycleMem.2, reached⟩
  case complete =>
      rintro members ⟨cyclic, reached⟩
      rcases complete members ⟨cyclic.1, reached⟩ with ⟨component, componentMem, rfl⟩
      refine ⟨component, List.mem_filter.mpr ⟨componentMem, ?_⟩, rfl⟩
      exact (isCyclic_iff (nodup component componentMem) cyclic.1).mpr cyclic
  case distinct => exact distinct.filter _

theorem reachedFrom_nodes (isNode : graph.contains node = true) :
    graph.ReachedFrom graph.nodes node :=
  ⟨node, mem_nodes.mpr isNode, isNode, .refl node⟩

theorem cycles_listsExactly (graph : Graph) :
    ListsExactly graph.cycles graph.IsCyclicComponent := by
  rcases graph.cyclesFrom_listsExactly graph.nodes with ⟨nodup, sound, complete, distinct⟩
  refine ⟨nodup, fun cycle cycleMem => (sound cycle cycleMem).1, ?_, distinct⟩
  intro members cyclic
  -- A cyclic component is not empty, and each of its members is a root.
  rcases isComponent_iff.mp cyclic.1 with ⟨node, rfl⟩
  have isNode : graph.contains node = true := cyclic.contains mem_componentOf_self
  exact complete _ ⟨cyclic, node, mem_componentOf_self, reachedFrom_nodes isNode⟩

/-- No name has an edge to itself. -/
def Loopless (graph : Graph) : Prop :=
  ∀ node, ¬graph.Edge node node

/-- Without loops every cycle has at least two names. -/
theorem Loopless.two_le_length (loopless : graph.Loopless) {cycle : List String}
    (cycleMem : cycle ∈ graph.cyclesFrom roots) : 2 ≤ cycle.length := by
  have cyclic := ((graph.cyclesFrom_listsExactly roots).sound cycle cycleMem).1
  rcases cyclic.2 with ⟨first, firstMem, second, secondMem, different⟩ | ⟨single, _, loop⟩
  · have nodup : [first, second].Nodup := by simpa using different
    have bothListed : [first, second] ⊆ cycle := by
      simpa using ⟨firstMem, secondMem⟩
    exact nodup.length_le_of_subset bothListed
  · exact absurd loop (loopless single)

/-- Two different names that reach each other share a cycle, whichever of them is reached. -/
theorem exists_cycle_of_mutual (forth : graph.Reaches node other) (back : graph.Reaches other node)
    (different : node ≠ other) (reached : graph.ReachedFrom roots node) :
    ∃ cycle ∈ graph.cyclesFrom roots, node ∈ cycle ∧ other ∈ cycle := by
  rcases (graph.cyclesFrom_listsExactly roots).complete (graph.componentOf node)
    ⟨isCyclicComponent_of_ne forth back different, node, mem_componentOf_self, reached⟩ with
      ⟨cycle, cycleMem, members⟩
  rw [Set.ext_iff] at members
  exact ⟨cycle, cycleMem, (members node).mpr mem_componentOf_self,
    (members other).mpr ⟨forth, back⟩⟩

/-- Two different names share a cycle of the graph iff they reach each other. -/
theorem exists_cycle_iff_mutual (different : node ≠ other) :
    (∃ cycle ∈ graph.cycles, node ∈ cycle ∧ other ∈ cycle) ↔
      graph.Reaches node other ∧ graph.Reaches other node := by
  constructor
  · rintro ⟨cycle, cycleMem, nodeMem, otherMem⟩
    have connected := (graph.cycles_listsExactly.sound cycle cycleMem).1.prop
    exact ⟨connected node nodeMem other otherMem, connected other otherMem node nodeMem⟩
  · rintro ⟨forth, back⟩
    have isNode : graph.contains node = true :=
      (isCyclicComponent_of_ne forth back different).contains mem_componentOf_self
    exact exists_cycle_of_mutual forth back different (reachedFrom_nodes isNode)

/-- The cycles found from some roots are exactly the cyclic components that a known root reaches,
each reported once and without repetitions, and all their members are nodes. The cycles of the whole
graph are all its cyclic components. -/
theorem reported_cycles_exact (graph : Graph) :
    (∀ roots,
      ListsExactly (graph.cyclesFrom roots) (fun members =>
        graph.IsCyclicComponent members ∧ ∃ node ∈ members, graph.ReachedFrom roots node) ∧
      ∀ cycle ∈ graph.cyclesFrom roots, ∀ node ∈ cycle, graph.contains node = true) ∧
    ListsExactly graph.cycles graph.IsCyclicComponent := by
  refine ⟨fun roots => ⟨graph.cyclesFrom_listsExactly roots, ?_⟩, graph.cycles_listsExactly⟩
  intro cycle cycleMem node nodeMem
  have cyclic := ((graph.cyclesFrom_listsExactly roots).sound cycle cycleMem).1
  exact cyclic.contains nodeMem

end Coupling.Graph
