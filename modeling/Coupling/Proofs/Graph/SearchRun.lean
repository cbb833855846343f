import Mathlib.Logic.ExistsUnique
import Mathlib.Logic.Function.Iterate
import Coupling.Proofs.Graph.Cycles

/-!
# Runs of the cycle search

A search visits its roots one after another, and each visit steps until no
visit is suspended. Here the states between the steps are looked at one by one.
The invariant holds in all of them, from the first visit to the last, and gives
what the search relies on: its stack, its tables and its suspended visits fit
together, and what it looks up is there.

Look-ups are made visible by a step that fails where a key is absent. The steps
of a search never fail.
-/

namespace Coupling.Graph

variable {graph : Graph} {search : Search} {roots : List String} {root node : String}
  {frames : List Frame}

/-- The name lies in one of the lists and in no other. -/
def InOneComponent (components : List (List String)) (node : String) : Prop :=
  ∃! place : Nat, ∃ component, components[place]? = some component ∧ node ∈ component

theorem inOneComponent_of_nodup {components : List (List String)}
    (nodup : components.flatten.Nodup) (nodeMem : node ∈ components.flatten) :
    InOneComponent components node := by
  rcases List.mem_flatten.mp nodeMem with ⟨component, componentMem, inComponent⟩
  rcases List.mem_iff_getElem?.mp componentMem with ⟨place, found⟩
  have disjoint := (List.nodup_flatten.mp nodup).2
  refine ⟨place, ⟨component, found, inComponent⟩, ?_⟩
  rintro other ⟨another, otherFound, inAnother⟩
  rcases List.getElem?_eq_some_iff.mp found with ⟨bound, rfl⟩
  rcases List.getElem?_eq_some_iff.mp otherFound with ⟨otherBound, rfl⟩
  rw [List.pairwise_iff_getElem] at disjoint
  rcases Nat.lt_trichotomy other place with before | same | after
  · exact absurd inComponent (disjoint other place otherBound bound before inAnother)
  · exact same
  · exact absurd inAnother (disjoint place other bound otherBound after inComponent)

namespace Search

/-- Lowers the low link of a node, which must be there. -/
def lower? (search : Search) (node : String) (candidate : Nat) : Option Search := do
  let low ← search.lowLink[node]?
  return { search with lowLink := search.lowLink.insert node (min low candidate) }

/-- Passes a low link on to the visit around the one that ends. -/
def passLow? (search : Search) (low : Nat) : List Frame → Option Search
  | parent :: _ => search.lower? parent.node low
  | [] => some search

/-- One step of the search that fails at a look-up of an absent key. -/
def step? (graph : Graph) : Search × List Frame → Option (Search × List Frame)
  | (search, []) => some (search, [])
  | (search, ⟨node, successor :: pending⟩ :: outer) =>
    if !search.index.contains successor then
      some (search.discover successor, Frame.opening graph successor :: ⟨node, pending⟩ :: outer)
    else if search.onStack.contains successor then do
      let successorIndex ← search.index[successor]?
      let lowered ← search.lower? node successorIndex
      return (lowered, ⟨node, pending⟩ :: outer)
    else
      some (search, ⟨node, pending⟩ :: outer)
  | (search, ⟨node, []⟩ :: outer) => do
    let low ← search.lowLink[node]?
    let lowered ← search.passLow? low outer
    let index ← lowered.index[node]?
    return if low = index then (lowered.close node, outer) else (lowered, outer)

theorem lower?_eq_some (present : node ∈ search.lowLink) (candidate : Nat) :
    search.lower? node candidate = some (search.lower node candidate) := by
  have found : search.lowLink[node]? = some (search.low node) :=
    Std.ExtTreeMap.getElem?_eq_some_getD present
  simp [lower?, lower, found]

namespace Invariant

theorem mem_lowLink_of_mem_trail (invariant : Invariant graph search frames)
    (nodeMem : node ∈ trail frames) : node ∈ search.lowLink := by
  apply (invariant.tables.lowLink_iff node).mpr
  exact invariant.tables.mem_index_of_mem_stack (invariant.visits.mem_stack_of_mem_trail nodeMem)

theorem passLow?_eq_some {outer : List Frame} {pending : List String}
    (invariant : Invariant graph search (⟨node, pending⟩ :: outer)) :
    search.passLow? (search.low node) outer = some (search.passLow node outer) := by
  cases outer with
  | nil => rfl
  | cons parent rest =>
      apply lower?_eq_some
      exact invariant.mem_lowLink_of_mem_trail (by simp [trail])

/-- A step looks up nothing that is absent. -/
theorem step?_eq_some (invariant : Invariant graph search frames) :
    step? graph (search, frames) = some (step graph (search, frames)) := by
  match frames with
  | [] => rfl
  | ⟨node, successor :: pending⟩ :: outer =>
      have nodeLow : node ∈ search.lowLink :=
        invariant.mem_lowLink_of_mem_trail List.mem_cons_self
      by_cases known : successor ∈ search.index
      · by_cases isOpen : successor ∈ search.onStack
        · simp [step?, step, known, isOpen, lower?_eq_some nodeLow]
        · simp [step?, step, known, isOpen]
      · simp [step?, step, known]
  | ⟨node, []⟩ :: outer =>
      have nodeLow : node ∈ search.lowLink :=
        invariant.mem_lowLink_of_mem_trail List.mem_cons_self
      have lowFound : search.lowLink[node]? = some (search.low node) :=
        Std.ExtTreeMap.getElem?_eq_some_getD nodeLow
      have rankFound := index_eq_some_rank ((invariant.tables.lowLink_iff node).mp nodeLow)
      have stepped : step graph (search, ⟨node, []⟩ :: outer) =
          if search.index[node]? = some (search.low node) then
            ((search.passLow node outer).close node, outer)
          else (search.passLow node outer, outer) := by
        cases outer <;> rfl
      simp [step?, stepped, lowFound, invariant.passLow?_eq_some, rankFound, eq_comm]

end Invariant

/-- The search from the roots comes to visit the root after what it has found. -/
def Enters (graph : Graph) (roots : List String) (search : Search) (root : String) : Prop :=
  ∃ before after, roots = before ++ root :: after ∧
    search = before.foldl (Search.visit graph) Search.start ∧
    graph.contains root = true ∧ root ∉ search.index

/-- The state of the visit of a root after a number of steps. -/
def stateAfter (graph : Graph) (search : Search) (root : String) (steps : Nat) :
    Search × List Frame :=
  (step graph)^[steps] (search.discover root, [Frame.opening graph root])

/-- What the search relies on in a state. -/
structure Sound (graph : Graph) (search : Search) (frames : List Frame) : Prop where
  stack_nodup : search.stack.Nodup
  onStack_iff : ∀ node, node ∈ search.onStack ↔ node ∈ search.stack
  -- The stack is kept with its top first.
  ascending : search.stack.reverse.Pairwise fun earlier later =>
    ∃ rank ∈ search.index[earlier]?, ∃ laterRank ∈ search.index[later]?, rank < laterRank
  counter_eq : search.counter = search.index.size
  trail_path : (trail frames).reverse.IsChain graph.Edge
  trail_open : ∀ node ∈ trail frames, node ∈ search.stack
  placed : ∀ node ∈ search.index,
    (node ∈ search.stack ∧ node ∉ search.components.flatten) ∨
      (node ∉ search.stack ∧ InOneComponent search.components node)
  lookups : step? graph (search, frames) = some (step graph (search, frames))

namespace Invariant

theorem sound (invariant : Invariant graph search frames) : Sound graph search frames := by
  have tables := invariant.tables
  constructor
  case stack_nodup => exact tables.stack_nodup
  case onStack_iff => exact tables.onStack_iff
  case ascending =>
      rw [List.pairwise_reverse]
      apply tables.descending.imp_of_mem
      intro later earlier laterMem earlierMem rank_lt
      have laterFound := index_eq_some_rank (tables.mem_index_of_mem_stack laterMem)
      have earlierFound := index_eq_some_rank (tables.mem_index_of_mem_stack earlierMem)
      exact ⟨_, earlierFound, _, laterFound, rank_lt⟩
  case counter_eq => exact tables.counter_eq
  case trail_path => exact List.isChain_reverse.mpr invariant.visits.trail_path
  case trail_open => exact fun _ nodeMem => invariant.visits.mem_stack_of_mem_trail nodeMem
  case placed =>
      intro node known
      by_cases isOpen : node ∈ search.stack
      · exact Or.inl ⟨isOpen, tables.not_mem_components isOpen⟩
      · have isClosed : node ∈ search.components.flatten :=
          (List.mem_append.mp ((tables.discovered_iff node).mp known)).resolve_left isOpen
        exact Or.inr ⟨isOpen, inOneComponent_of_nodup tables.placed_nodup.of_append_right isClosed⟩
  case lookups => exact invariant.step?_eq_some

theorem iterate (invariant : Invariant graph search frames) (steps : Nat) :
    Invariant graph ((Search.step graph)^[steps] (search, frames)).1
      ((Search.step graph)^[steps] (search, frames)).2 := by
  induction steps generalizing search frames with
  | zero => exact invariant
  | succ steps ih =>
      cases frames with
      | nil => exact ih invariant
      | cons frame outer => exact ih invariant.step

end Invariant

/-- The steps of a run come to an end, and the run gives the search at their end. -/
theorem run_ends {fuel : Nat} {state : Search × List Frame}
    (enough : graph.stepsLeft state ≤ fuel) :
    ∃ steps ≤ fuel, (∀ fewer < steps, ((step graph)^[fewer] state).2 ≠ []) ∧
      (step graph)^[steps] state = (run graph fuel state, []) := by
  induction fuel generalizing state with
  | zero =>
      rcases state with ⟨search, _ | ⟨frame, outer⟩⟩
      · exact ⟨0, Nat.le_refl 0, by simp, rfl⟩
      · simp [stepsLeft] at enough
  | succ fuel ih =>
      rcases state with ⟨search, _ | ⟨frame, outer⟩⟩
      · exact ⟨0, Nat.zero_le _, by simp, rfl⟩
      · have less := stepsLeft_step graph search frame outer
        rcases ih (show graph.stepsLeft (step graph (search, frame :: outer)) ≤ fuel by omega) with
          ⟨steps, atMost, suspended, ended⟩
        refine ⟨steps + 1, by omega, ?_, ended⟩
        intro fewer fewer_lt
        cases fewer with
        | zero => simp
        | succ fewer => exact suspended fewer (by omega)

theorem visit_eq_run (isNode : graph.contains root = true) (fresh : root ∉ search.index) :
    search.visit graph root =
      run graph (searchBound graph) (search.discover root, [Frame.opening graph root]) := by
  simp [visit, isNode, fresh]

/-- Every visit of a root ends. At each of its steps the state of the search is sound. At its end
nothing is open, and all that the root reaches lies in one component each. -/
theorem sound_at_every_step (graph : Graph) (roots : List String) (search : Search) (root : String)
    (enters : Enters graph roots search root) :
    (∃ steps ≤ searchBound graph,
      (∀ fewer < steps, (stateAfter graph search root fewer).2 ≠ []) ∧
      stateAfter graph search root steps = (search.visit graph root, [])) ∧
    (∀ steps, Sound graph (stateAfter graph search root steps).1
      (stateAfter graph search root steps).2) ∧
    (search.visit graph root).stack = [] ∧ (search.visit graph root).onStack = ∅ ∧
    ∀ node, graph.Reaches root node →
      InOneComponent (search.visit graph root).components node := by
  rcases enters with ⟨before, after, _, search_eq, isNode, fresh⟩
  have start : Invariant graph search [] := search_eq ▸ (invariant_finished graph before).1
  rcases start.visit root with ⟨finished, discovered⟩
  have emptied := finished.stack_eq_nil
  refine ⟨?_, ?_, emptied, ?_, ?_⟩
  · rw [visit_eq_run isNode fresh]
    exact run_ends (stepsLeft_le_searchBound fresh)
  · intro steps
    exact ((start.discover fresh (by simp [trail])).iterate steps).sound
  · apply Std.ExtTreeSet.ext_mem
    intro node
    simp [finished.tables.onStack_iff, emptied]
  · intro node reaches
    apply inOneComponent_of_nodup finished.tables.placed_nodup.of_append_right
    rw [← finished.mem_index_iff_mem_components, discovered]
    exact Or.inr ⟨isNode, reaches⟩

/-- Two classes that use each other, below a class that uses one of them and an unknown class. -/
def pairBelow : Graph :=
  Graph.ofEdges [("app.A", "app.B"), ("app.B", "app.A"), ("app.C", "app.B"), ("app.C", "lib.D")]

theorem sound_above_pair :
    Enters pairBelow ["app.A", "lib.D", "app.C"] (start.visit pairBelow "app.A") "app.C" ∧
      Sound pairBelow (stateAfter pairBelow (start.visit pairBelow "app.A") "app.C" 2).1
        (stateAfter pairBelow (start.visit pairBelow "app.A") "app.C" 2).2 ∧
      ((start.visit pairBelow "app.A").visit pairBelow "app.C").stack = [] ∧
      InOneComponent ((start.visit pairBelow "app.A").visit pairBelow "app.C").components
        "lib.D" := by
  have enters : Enters pairBelow ["app.A", "lib.D", "app.C"] (start.visit pairBelow "app.A")
      "app.C" := by
    have skipped : pairBelow.contains "lib.D" = false := by decide +kernel
    refine ⟨["app.A", "lib.D"], [], rfl, ?_, by decide +kernel, by decide +kernel⟩
    simp [visit, skipped]
  have edge : pairBelow.Edge "app.C" "lib.D" := by
    unfold Edge
    decide +kernel
  rcases sound_at_every_step _ _ _ _ enters with ⟨_, sound, emptied, _, placed⟩
  exact ⟨enters, sound 2, emptied, placed _ (.ofEdge edge)⟩

end Search

end Coupling.Graph
