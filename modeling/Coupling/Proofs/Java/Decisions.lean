import Coupling.Java.Metrics
import Mathlib.Data.Set.Card

/-!
# Counting decisions

The trees that are still to be counted are kept on a stack, the last child on top.
What is counted in the end does not depend on that order: it is the sum that a
recursion over the tree adds up, and each place where a decision is taken counts
once.

A place is told by the numbers of the named children that lead to it. The way
there may go through nodes of any kind, so the places in lambdas and in local and
anonymous classes belong to the method around them.
-/

namespace Coupling.Java.Tree

/-- The kinds of nodes that take a decision in any case. -/
def decisionKinds : List Kind :=
  [.ifStatement, .forStatement, .whileStatement, .doStatement, .switchLabel, .ternaryExpression]

/-- The tree takes a decision by itself. -/
def IsDecision (tree : Tree) : Prop :=
  (∃ kind ∈ decisionKinds, tree.kind? = some kind) ∨
    tree.kind? = some .binaryExpression ∧
      (tree.child? .operator).map text ∈ [some "&&", some "||"]

instance : DecidablePred IsDecision := fun tree =>
  inferInstanceAs (Decidable ((∃ kind ∈ decisionKinds, tree.kind? = some kind) ∨ _ ∧ _))

mutual

/-- The decisions of a tree and of its named descendants. -/
def decisionSum : Tree → Nat
  | .node role kind children =>
    (if (Tree.node role kind children).IsDecision then 1 else 0) + childSum children
  | .mark _ _ | .word _ _ | .comment _ _ => 0
termination_by structural tree => tree

/-- The decisions of the named trees of a list and of their named descendants. -/
def childSum : List Tree → Nat
  | [] => 0
  | child :: rest => (if child.isNamed then child.decisionSum else 0) + childSum rest
termination_by structural children => children

end

theorem kindDecisions_eq (kind : Kind) :
    kindDecisions kind = if kind ∈ decisionKinds then 1 else 0 := by
  cases kind <;> rfl

theorem isShortCircuit_iff {tree : Tree} :
    tree.isShortCircuit = true ↔ (tree.child? .operator).map text ∈ [some "&&", some "||"] := by
  cases found : tree.child? .operator with
  | none => simp [isShortCircuit, found]
  | some operator => simp [isShortCircuit, found, Operator.isShortCircuit]

theorem isDecision_node_iff {role : Role} {kind : Kind} {children : List Tree} :
    (Tree.node role kind children).IsDecision ↔
      kind ∈ decisionKinds ∨
        kind = .binaryExpression ∧ (Tree.node role kind children).isShortCircuit = true := by
  simp [IsDecision, kind?, isShortCircuit_iff]

theorem not_isDecision_of_leaf {tree : Tree} (leaf : tree.kind? = none) : ¬tree.IsDecision := by
  simp [IsDecision, leaf]

theorem ownDecisions_eq (tree : Tree) :
    tree.ownDecisions = if tree.IsDecision then 1 else 0 := by
  unfold ownDecisions
  split
  · next role children =>
      have isDecision : (Tree.node role .binaryExpression children).IsDecision ↔
          (Tree.node role .binaryExpression children).isShortCircuit = true := by
        simp [isDecision_node_iff, decisionKinds]
      simp only [isDecision]
  · next role kind children other =>
      have isDecision : (Tree.node role kind children).IsDecision ↔ kind ∈ decisionKinds := by
        rw [isDecision_node_iff]
        exact or_iff_left fun binary => other binary.1
      simp only [isDecision, kindDecisions_eq]
  · next leaf =>
      rw [if_neg]
      apply not_isDecision_of_leaf
      cases tree with
      | node role kind children => exact absurd rfl (leaf role kind children)
      | mark | word | comment => rfl

theorem decisionSum_eq (tree : Tree) :
    tree.decisionSum = (if tree.IsDecision then 1 else 0) + childSum tree.children := by
  cases tree with
  | node role kind inner => rw [decisionSum, children]
  | mark | word | comment =>
      rw [if_neg (not_isDecision_of_leaf rfl)]
      rfl

/-- The decisions of all trees on a stack. -/
def pendingSum : List Tree → Nat
  | [] => 0
  | tree :: rest => tree.decisionSum + pendingSum rest

theorem pendingSum_pushNamed (children pending : List Tree) :
    pendingSum (pushNamed children pending) = childSum children + pendingSum pending := by
  induction children generalizing pending with
  | nil => simp [pushNamed, childSum]
  | cons child rest ih =>
      have pushed : pushNamed (child :: rest) pending =
          pushNamed rest (if child.isNamed then child :: pending else pending) := rfl
      rw [pushed, ih, childSum]
      by_cases named : child.isNamed
      · simp only [named, if_true, pendingSum]
        omega
      · simp [named]

/-- What has been counted and what is pending add up to the same number at every turn. -/
theorem countPending_eq (total : Nat) (pending : List Tree) :
    countPending total pending = total + pendingSum pending := by
  fun_induction countPending total pending with
  | case1 total => rfl
  | case2 total tree rest ih =>
      rw [ih, pendingSum_pushNamed, pendingSum, decisionSum_eq, ownDecisions_eq]
      omega

theorem decisions_eq_decisionSum (tree : Tree) : tree.decisions = tree.decisionSum := by
  rw [decisions, countPending_eq, pendingSum, pendingSum]
  omega

/-- The tree that the numbers of named children lead to. -/
def descendant? (tree : Tree) : List Nat → Option Tree
  | [] => some tree
  | number :: rest => tree.namedChildren[number]?.bind fun child => child.descendant? rest

/-- The places in a tree where a decision is taken. -/
def decisionPlaces (tree : Tree) : Set (List Nat) :=
  {place | ∃ inner, tree.descendant? place = some inner ∧ inner.IsDecision}

mutual

/-- The places where a decision is taken, one after the other. -/
def listedPlaces : Tree → List (List Nat)
  | .node role kind children =>
    (if (Tree.node role kind children).IsDecision then [[]] else []) ++ childPlaces 0 children
  | .mark _ _ | .word _ _ | .comment _ _ => []
termination_by structural tree => tree

/-- The places below the named trees of a list, which are numbered from the given number on. -/
def childPlaces (number : Nat) : List Tree → List (List Nat)
  | [] => []
  | child :: rest =>
    if child.isNamed then child.listedPlaces.map (number :: ·) ++ childPlaces (number + 1) rest
    else childPlaces number rest
termination_by structural children => children

end

mutual

theorem length_listedPlaces (tree : Tree) : tree.listedPlaces.length = tree.decisionSum := by
  cases tree with
  | node role kind children =>
      rw [listedPlaces, decisionSum, List.length_append, length_childPlaces children 0]
      split <;> rfl
  | mark | word | comment => rfl
termination_by structural tree

theorem length_childPlaces (children : List Tree) (number : Nat) :
    (childPlaces number children).length = childSum children := by
  cases children with
  | nil => rfl
  | cons child rest =>
      rw [childPlaces, childSum]
      split
      · rw [List.length_append, List.length_map, length_listedPlaces child,
          length_childPlaces rest (number + 1)]
      · rw [length_childPlaces rest number, Nat.zero_add]
termination_by structural children

end

theorem nil_mem_decisionPlaces {tree : Tree} : [] ∈ tree.decisionPlaces ↔ tree.IsDecision := by
  simp [decisionPlaces, descendant?]

theorem cons_mem_decisionPlaces {tree : Tree} {number : Nat} {rest : List Nat} :
    number :: rest ∈ tree.decisionPlaces ↔
      ∃ child, tree.namedChildren[number]? = some child ∧ rest ∈ child.decisionPlaces := by
  simp only [decisionPlaces, descendant?, Set.mem_ofPred_eq, Option.bind_eq_some_iff]
  constructor
  · rintro ⟨inner, ⟨child, found, reached⟩, isDecision⟩
    exact ⟨child, found, inner, reached, isDecision⟩
  · rintro ⟨child, found, inner, reached, isDecision⟩
    exact ⟨inner, ⟨child, found, reached⟩, isDecision⟩

theorem decisionPlaces_of_leaf {tree : Tree} (leaf : tree.kind? = none)
    (childless : tree.children = []) : tree.decisionPlaces = ∅ := by
  ext place
  cases place with
  | nil => simp [nil_mem_decisionPlaces, not_isDecision_of_leaf leaf]
  | cons number rest => simp [cons_mem_decisionPlaces, namedChildren, childless]

-- Only named children are numbered, and a list of them may be the rest of a longer one. Its places
-- are therefore told by their offset from the number that the list starts with.
mutual

theorem mem_listedPlaces (tree : Tree) (place : List Nat) :
    place ∈ tree.listedPlaces ↔ place ∈ tree.decisionPlaces := by
  cases tree with
  | node role kind children =>
      rw [listedPlaces, List.mem_append, mem_childPlaces children 0 place]
      cases place with
      | nil =>
          rw [nil_mem_decisionPlaces]
          split <;> simp_all
      | cons number rest =>
          rw [cons_mem_decisionPlaces, namedChildren]
          split <;> simp [Tree.children]
  | mark | word | comment =>
      rw [decisionPlaces_of_leaf rfl rfl]
      simp [listedPlaces]
termination_by structural tree

theorem mem_childPlaces (children : List Tree) (number : Nat) (place : List Nat) :
    place ∈ childPlaces number children ↔
      ∃ offset rest, place = (number + offset) :: rest ∧
        ∃ child, (children.filter isNamed)[offset]? = some child ∧
          rest ∈ child.decisionPlaces := by
  cases children with
  | nil => simp [childPlaces]
  | cons child others =>
      rw [childPlaces]
      by_cases named : child.isNamed
      · have shift (offset : Nat) : number + 1 + offset = number + (offset + 1) := by omega
        rw [if_pos named, List.mem_append, mem_childPlaces others (number + 1) place,
          List.filter_cons_of_pos named]
        constructor
        · rintro (first | ⟨offset, rest, rfl, later⟩)
          · rcases List.mem_map.mp first with ⟨rest, restMem, rfl⟩
            exact ⟨0, rest, rfl, child, rfl, (mem_listedPlaces child rest).mp restMem⟩
          · exact ⟨offset + 1, rest, by rw [shift], later⟩
        · rintro ⟨offset, rest, rfl, inner, found, restMem⟩
          cases offset with
          | zero =>
              cases found
              exact Or.inl (List.mem_map.mpr ⟨rest, (mem_listedPlaces child rest).mpr restMem, rfl⟩)
          | succ offset =>
              exact Or.inr ⟨offset, rest, by rw [shift], inner, found, restMem⟩
      · rw [if_neg named, mem_childPlaces others number place, List.filter_cons_of_neg named]
termination_by structural children

end

mutual

theorem nodup_listedPlaces (tree : Tree) : tree.listedPlaces.Nodup := by
  cases tree with
  | node role kind children =>
      rw [listedPlaces, List.nodup_append]
      refine ⟨by split <;> simp, nodup_childPlaces children 0, ?_⟩
      intro own ownMem place placeMem same
      rcases (mem_childPlaces children 0 place).mp placeMem with ⟨offset, rest, rfl, _⟩
      split at ownMem <;> simp_all
  | mark | word | comment => exact List.nodup_nil
termination_by structural tree

theorem nodup_childPlaces (children : List Tree) (number : Nat) :
    (childPlaces number children).Nodup := by
  cases children with
  | nil => exact List.nodup_nil
  | cons child rest =>
      rw [childPlaces]
      split
      · rw [List.nodup_append]
        refine ⟨(nodup_listedPlaces child).map fun _ _ same => (List.cons.inj same).2,
          nodup_childPlaces rest (number + 1), ?_⟩
        intro first firstMem later laterMem same
        rcases List.mem_map.mp firstMem with ⟨_, _, rfl⟩
        rcases (mem_childPlaces rest (number + 1) later).mp laterMem with ⟨offset, _, rfl, _⟩
        have heads := (List.cons.inj same).1
        omega
      · exact nodup_childPlaces rest number
termination_by structural children

end

theorem encard_decisionPlaces (tree : Tree) : tree.decisionPlaces.encard = tree.decisionSum := by
  have listed : tree.decisionPlaces = (tree.listedPlaces.toFinset : Set (List Nat)) := by
    ext place
    simp [mem_listedPlaces]
  rw [listed, Set.encard_coe_eq_coe_finsetCard,
    List.toFinset_card_of_nodup tree.nodup_listedPlaces, length_listedPlaces]

/-- The stack counts what the recursion adds up, which is each place where a decision is taken once,
and the complexity of a method is one more than that number for its body. -/
theorem decisions_counted_once (tree : Tree) :
    tree.decisions = tree.decisionSum ∧ tree.decisionPlaces.encard = tree.decisionSum ∧
    tree.methodMetrics.complexity = 1 + ((tree.child? .body).map decisionSum).getD 0 := by
  refine ⟨tree.decisions_eq_decisionSum, tree.encard_decisionPlaces, ?_⟩
  rw [methodMetrics, funext decisions_eq_decisionSum]

end Coupling.Java.Tree
