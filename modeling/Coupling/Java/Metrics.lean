import Coupling.Analysis
import Coupling.Disk
import Coupling.Java.Parser

/-!
# Metrics of Java sources

The class of a source file is the first class, enum or record that it declares at its top level.
Each method that stands directly in the body of the class is measured: how many parameters and
statements it has, and how many decisions its body takes.

A decision is taken by each `if`, `while`, `do` and counting `for`, by each label of a switch, each
choice between two expressions, and each operator that may leave out its right operand. Decisions in
lambdas and in local and anonymous classes count for the method around them.

Only well-formed sources are measured. A source with a syntax error is treated as one that declares
no class, since it has no tree.
-/

namespace Coupling.Java

namespace Tree

/-- The number of decisions that a kind of node takes by itself. -/
def kindDecisions : Kind → Nat
  | .ifStatement | .forStatement | .whileStatement | .doStatement | .switchLabel
  | .ternaryExpression => 1
  | _ => 0

/-- The operator of the node may leave out its right operand. -/
def isShortCircuit (tree : Tree) : Bool :=
  (tree.child? .operator).any fun operator => Operator.isShortCircuit operator.text

/-- The number of decisions that a tree takes apart from what it holds. -/
def ownDecisions (tree : Tree) : Nat :=
  match tree with
  | .node _ .binaryExpression _ => if tree.isShortCircuit then 1 else 0
  | .node _ kind _ => kindDecisions kind
  | _ => 0

mutual

/-- The number of nodes and leaves of a tree. -/
def size : Tree → Nat
  | .node _ _ children => 1 + sizes children
  | .mark _ _ | .word _ _ | .comment _ _ => 1
termination_by structural tree => tree

/-- The number of nodes and leaves of some trees. -/
def sizes : List Tree → Nat
  | [] => 0
  | tree :: rest => tree.size + sizes rest
termination_by structural trees => trees

end

/-- Puts the named trees of a list on a stack, so that the last comes first. -/
def pushNamed (children pending : List Tree) : List Tree :=
  children.foldl (fun stack child => if child.isNamed then child :: stack else stack) pending

theorem sizes_pushNamed_le (children pending : List Tree) :
    sizes (pushNamed children pending) ≤ sizes children + sizes pending := by
  unfold pushNamed
  induction children generalizing pending with
  | nil => simp [sizes]
  | cons child rest ih =>
    rw [List.foldl_cons]
    split
    · refine Nat.le_trans (ih _) ?_
      simp only [sizes]
      omega
    · refine Nat.le_trans (ih _) ?_
      simp only [sizes]
      omega

theorem sizes_children_lt (tree : Tree) : sizes tree.children < tree.size := by
  cases tree <;> simp only [children, size, sizes] <;> omega

/-- The decisions in all pending trees, on top of those counted so far. -/
def countPending (total : Nat) : (pending : List Tree) → Nat
  | [] => total
  | tree :: rest => countPending (total + tree.ownDecisions) (pushNamed tree.children rest)
termination_by pending => sizes pending
decreasing_by
  have pushed := sizes_pushNamed_le tree.children rest
  have smaller := sizes_children_lt tree
  simp only [sizes]
  omega

/-- The decisions in a tree and everything that it holds. Long chains of operators are nested
thousands deep, so the trees still to be counted are kept on a stack. -/
def decisions (tree : Tree) : Nat :=
  countPending 0 [tree]

/-- The number of parameters in a parameter list. -/
def parameterCount (parameters : Tree) : Nat :=
  (parameters.namedChildren.filter fun parameter =>
    parameter.isKind .formalParameter || parameter.isKind .spreadParameter).length

/-- The number of statements that stand directly in a block. A block in it counts as one. -/
def statementCount (block : Tree) : Nat :=
  (block.namedChildren.filter fun statement => !statement.isComment).length

/-- The measures of a method. A method without a body takes no decisions. -/
def methodMetrics (method : Tree) : MethodMetrics where
  name := ((method.child? .name).map text).getD ""
  parameterCount := ((method.child? .parameters).map parameterCount).getD 0
  statementCount := ((method.child? .body).map statementCount).getD 0
  complexity := 1 + ((method.child? .body).map decisions).getD 0

/-- The methods among the children of a node. -/
def methodsIn (tree : Tree) : List Tree :=
  tree.namedChildren.filter (isKind .methodDeclaration)

/-- The methods that stand directly in the body of a class. In an enum, they come after the
constants. -/
def memberMethods (classTree : Tree) : List Tree :=
  match classTree.child? .body with
  | none => []
  | some body =>
    body.namedChildren.flatMap fun member =>
      if member.isKind .methodDeclaration then [member]
      else if member.isKind .enumBodyDeclarations then member.methodsIn
      else []

/-- The tree declares a class, an enum or a record. -/
def isClass (tree : Tree) : Bool :=
  tree.isKind .classDeclaration || tree.isKind .enumDeclaration || tree.isKind .recordDeclaration

/-- The first class that a source file declares. -/
def firstClass? (program : Tree) : Option Tree :=
  program.namedChildren.find? isClass

/-- The package that a source file declares, as it is written. -/
def packageName? (program : Tree) : Option String :=
  program.children.findSome? fun child =>
    if child.isKind .packageDeclaration then (child.child? .name).map text else none

/-- The measures of the class of a source file. -/
def classMetrics? (program : Tree) : Option ClassMetrics := do
  let classTree ← program.firstClass?
  let name ← classTree.child? .name
  let className :=
    match program.packageName? with
    | some package => package ++ "." ++ name.text
    | none => name.text
  return ⟨className, classTree.memberMethods.map methodMetrics⟩

end Tree

/-- The measures of the class that a source text declares. -/
def measure? (source : String) : Option ClassMetrics :=
  (Tree.parse? source).bind Tree.classMetrics?

/-- A source file that cannot be read. -/
structure SourceError where
  /-- The path of the file. -/
  path : Path
  /-- The reason. -/
  fault : Fault
deriving DecidableEq, Repr

/-- What failed, in words. -/
def SourceError.message (error : SourceError) : String :=
  s!"failed to read {error.path.text}"

/-- What failed and why, in words. -/
def SourceError.explanation (error : SourceError) : String :=
  error.message ++ ": " ++ error.fault.message

/-- The measures of the class that a source file declares. A file that is not there declares none.
-/
def measureFile (disk : Disk) (path : Path) : Except SourceError (Option ClassMetrics) :=
  match disk.readText path with
  | .ok source => .ok (measure? source)
  | .error .notFound => .ok none
  | .error fault => .error ⟨path, fault⟩

end Coupling.Java
