import Coupling.Proofs.Java.Decisions

/-!
# Grouping chains of operators

A chain of operators is grouped by their levels. However it is grouped, each
operator makes one node and each operand stands in it once. So the decisions of a
chain are those of its operands and those of its operators, and no level counts.

The invariant is that closing an operator moves its decisions, and those of the
operand before it, from the stack of open operators to the operand that is being
read.
-/

namespace Coupling.Java

namespace Tree

theorem childSum_append (children others : List Tree) :
    childSum (children ++ others) = childSum children + childSum others := by
  induction children with
  | nil => simp [childSum]
  | cons child rest ih =>
      rw [List.cons_append, childSum, childSum, ih]
      omega

end Tree

namespace Link

open Coupling.Java.Tree

/-- No tree among the pieces is an operator. -/
def IsOperand (pieces : Pieces) : Prop :=
  ∀ tree ∈ pieces, tree.role ≠ .operator

/-- The decisions that an operator adds to those of its operands. -/
def cost (kind : Kind) (operator : Pieces) : Nat :=
  (if (Tree.node .plain kind operator).IsDecision then 1 else 0) + childSum operator

/-- The decisions of open operators and of the operands before them. -/
def pendingCost : List Pending → Nat
  | [] => 0
  | pending :: rest =>
    childSum pending.left + cost pending.kind pending.operator + pendingCost rest

/-- The decisions of the operators of a chain and of the operands after them. -/
def linkCost : List Link → Nat
  | [] => 0
  | link :: rest => cost link.kind link.operator + childSum link.operand + linkCost rest

theorem find?_operator_of_isOperand {pieces : Pieces} (isOperand : IsOperand pieces) :
    pieces.find? (fun tree => tree.role == .operator) = none := by
  simpa [IsOperand] using isOperand

/-- Only the operator says whether a node takes a decision, not the operands around it. -/
theorem isDecision_between {kind : Kind} {left operator right : Pieces}
    (left_isOperand : IsOperand left) (right_isOperand : IsOperand right) :
    (Tree.node .plain kind (left ++ operator ++ right)).IsDecision ↔
      (Tree.node .plain kind operator).IsDecision := by
  have same : (Tree.node .plain kind (left ++ operator ++ right)).child? .operator =
      (Tree.node .plain kind operator).child? .operator := by
    simp [child?, children, List.find?_append, find?_operator_of_isOperand left_isOperand,
      find?_operator_of_isOperand right_isOperand]
  simp only [IsDecision, same, kind?]

theorem isOperand_close (pending : Pending) (right : Pieces) : IsOperand (pending.close right) := by
  simp [IsOperand, Pending.close, role]

theorem childSum_close {pending : Pending} {right : Pieces}
    (left_isOperand : IsOperand pending.left) (right_isOperand : IsOperand right) :
    childSum (pending.close right) =
      childSum right + (childSum pending.left + cost pending.kind pending.operator) := by
  have closed : childSum (pending.close right) =
      (Tree.node .plain pending.kind (pending.left ++ pending.operator ++ right)).decisionSum := by
    simp [Pending.close, childSum, isNamed]
  simp only [closed, decisionSum, isDecision_between left_isOperand right_isOperand,
    childSum_append, cost]
  omega

/-- Closing operators moves their decisions from what is pending to the operand. -/
theorem closeFrom_spec (level : Nat) {right : Pieces} {pending : List Pending}
    (right_isOperand : IsOperand right)
    (left_isOperand : ∀ operator ∈ pending, IsOperand operator.left) :
    IsOperand (closeFrom level right pending).1 ∧
      (∀ operator ∈ (closeFrom level right pending).2, IsOperand operator.left) ∧
      childSum (closeFrom level right pending).1 + pendingCost (closeFrom level right pending).2 =
        childSum right + pendingCost pending := by
  induction pending generalizing right with
  | nil => exact ⟨right_isOperand, left_isOperand, rfl⟩
  | cons first rest ih =>
      rw [closeFrom]
      split
      -- the node that is closed is the right operand of the operator before it
      · have closed := ih (isOperand_close first right)
          fun operator member => left_isOperand operator (List.mem_cons_of_mem first member)
        rw [childSum_close (left_isOperand first List.mem_cons_self) right_isOperand] at closed
        refine ⟨closed.1, closed.2.1, ?_⟩
        rw [closed.2.2, pendingCost]
        omega
      · exact ⟨right_isOperand, left_isOperand, rfl⟩

theorem closeFrom_zero (right : Pieces) (pending : List Pending) :
    (closeFrom 0 right pending).2 = [] := by
  induction pending generalizing right with
  | nil => rfl
  | cons first rest ih => simp [closeFrom, ih]

theorem childSum_groupFrom {links : List Link} {pending : List Pending} {current : Pieces}
    (links_isOperand : ∀ link ∈ links, IsOperand link.operand)
    (current_isOperand : IsOperand current)
    (left_isOperand : ∀ operator ∈ pending, IsOperand operator.left) :
    childSum (groupFrom pending current links) =
      childSum current + pendingCost pending + linkCost links := by
  induction links generalizing pending current with
  | nil =>
      have closed := (closeFrom_spec 0 current_isOperand left_isOperand).2.2
      rw [closeFrom_zero, pendingCost] at closed
      simpa [groupFrom, linkCost] using closed
  | cons link rest ih =>
      rcases closeFrom_spec link.level current_isOperand left_isOperand with
        ⟨closed_isOperand, outer_isOperand, closed⟩
      rw [groupFrom]
      rw [ih (fun other member => links_isOperand other (List.mem_cons_of_mem link member))
        (links_isOperand link List.mem_cons_self)
        (List.forall_mem_cons.mpr ⟨closed_isOperand, outer_isOperand⟩)]
      rw [pendingCost, linkCost]
      dsimp only
      omega

/-- A chain takes the decisions of its operands and operators, whatever the levels are. -/
theorem childSum_group {first : Pieces} {links : List Link} (first_isOperand : IsOperand first)
    (links_isOperand : ∀ link ∈ links, IsOperand link.operand) :
    childSum (group first links) = childSum first + linkCost links := by
  rw [group, childSum_groupFrom links_isOperand first_isOperand (by simp), pendingCost]
  rfl

end Link

end Coupling.Java
