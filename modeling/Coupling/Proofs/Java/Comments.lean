import Coupling.Proofs.Java.Decisions
import Mathlib.Logic.Relation

/-!
# Comments do not count

A comment may stand among the children of every inner node, where it is one of
the named children that the measures go through. Each measure passes it over in
its own way: a class, a method or a parameter is looked for by its kind, a name
or an operator by its part, and a statement is whatever is no comment.

A tree without its comments is what the measures have in common. Putting in a
comment does not change that tree, and each measure of a tree is the measure of
the tree without comments. The name of a package is one leaf, which keeps what
is written between its parts, so no comment is put there.
-/

namespace Coupling.Java.Tree

/-- One comment is put among the children of an inner node, be it the tree itself or one that it
holds. -/
inductive InsertsComment : Tree → Tree → Prop
  | beside (role : Role) (kind : Kind) (before after : List Tree) (style : CommentStyle)
      (text : String) :
      InsertsComment (.node role kind (before ++ after))
        (.node role kind (before ++ .comment style text :: after))
  | within (role : Role) (kind : Kind) (before after : List Tree) {child commented : Tree}
      (inserts : InsertsComment child commented) :
      InsertsComment (.node role kind (before ++ child :: after))
        (.node role kind (before ++ commented :: after))

mutual

/-- The tree without the comments that it holds. -/
def withoutComments : Tree → Tree
  | .node role kind children => .node role kind (codeAmong children)
  | .mark role text => .mark role text
  | .word role text => .word role text
  | .comment style text => .comment style text
termination_by structural tree => tree

/-- The trees of a list that are no comments, without the comments that they hold. -/
def codeAmong : List Tree → List Tree
  | [] => []
  | tree :: rest =>
    if tree.isComment then codeAmong rest else tree.withoutComments :: codeAmong rest
termination_by structural trees => trees

end

/-- The children that are no comments. -/
def codeChildren (tree : Tree) : List Tree :=
  tree.children.filter fun child => !child.isComment

theorem codeAmong_comment (style : CommentStyle) (text : String) (rest : List Tree) :
    codeAmong (.comment style text :: rest) = codeAmong rest := rfl

theorem codeAmong_code {tree : Tree} (code : tree.isComment = false) (rest : List Tree) :
    codeAmong (tree :: rest) = tree.withoutComments :: codeAmong rest := by
  rw [codeAmong, code, if_neg Bool.false_ne_true]

theorem codeAmong_eq_map (trees : List Tree) :
    codeAmong trees = (trees.filter fun tree => !tree.isComment).map withoutComments := by
  induction trees with
  | nil => rfl
  | cons tree rest ih =>
      rw [codeAmong, ih]
      by_cases comment : tree.isComment <;> simp [comment]

theorem codeAmong_append (first second : List Tree) :
    codeAmong (first ++ second) = codeAmong first ++ codeAmong second := by
  simp [codeAmong_eq_map]

theorem InsertsComment.isComment_eq {tree commented : Tree}
    (inserts : InsertsComment tree commented) : commented.isComment = tree.isComment := by
  cases inserts <;> rfl

theorem InsertsComment.withoutComments_eq {tree commented : Tree}
    (inserts : InsertsComment tree commented) :
    commented.withoutComments = tree.withoutComments := by
  induction inserts with
  | beside role kind before after style text =>
      simp [withoutComments, codeAmong_append, codeAmong, isComment]
  | within role kind before after inner ih =>
      simp [withoutComments, codeAmong_append, codeAmong, inner.isComment_eq, ih]

theorem withoutComments_eq_of_inserted {tree commented : Tree}
    (inserted : Relation.ReflTransGen InsertsComment tree commented) :
    commented.withoutComments = tree.withoutComments := by
  induction inserted with
  | refl => rfl
  | tail _ inserts ih => rw [inserts.withoutComments_eq, ih]

section

variable (tree : Tree)

@[simp]
theorem kind?_withoutComments : tree.withoutComments.kind? = tree.kind? := by
  cases tree <;> rfl

@[simp]
theorem role_withoutComments : tree.withoutComments.role = tree.role := by
  cases tree <;> rfl

@[simp]
theorem text_withoutComments : tree.withoutComments.text = tree.text := by
  cases tree <;> rfl

@[simp]
theorem isNamed_withoutComments : tree.withoutComments.isNamed = tree.isNamed := by
  cases tree <;> rfl

@[simp]
theorem isComment_withoutComments : tree.withoutComments.isComment = tree.isComment := by
  cases tree <;> rfl

@[simp]
theorem isKind_withoutComments (kind : Kind) :
    tree.withoutComments.isKind kind = tree.isKind kind := by
  simp [isKind]

@[simp]
theorem children_withoutComments : tree.withoutComments.children = codeAmong tree.children := by
  cases tree <;> rfl

end

/-- The test comes out the same without the comments that a tree holds, and no comment passes it. -/
structure PassesOver (test : Tree → Bool) : Prop where
  same : ∀ tree, test tree.withoutComments = test tree
  refuses : ∀ style text, test (.comment style text) = false

theorem passesOver_isKind (kind : Kind) : PassesOver (isKind kind) where
  same tree := tree.isKind_withoutComments kind
  refuses _ _ := rfl

theorem passesOver_role {role : Role} (distinguished : role ≠ .plain) :
    PassesOver fun tree => tree.role == role where
  same tree := by simp
  refuses _ _ := by simpa [Tree.role] using distinguished.symm

theorem passesOver_code : PassesOver fun tree => !tree.isComment where
  same tree := by simp
  refuses _ _ := rfl

theorem PassesOver.or {first second : Tree → Bool} (firstPasses : PassesOver first)
    (secondPasses : PassesOver second) : PassesOver fun tree => first tree || second tree where
  same tree := by rw [firstPasses.same, secondPasses.same]
  refuses style text := by rw [firstPasses.refuses, secondPasses.refuses, Bool.or_false]

theorem PassesOver.filter_codeAmong {test : Tree → Bool} (passes : PassesOver test)
    (trees : List Tree) :
    (codeAmong trees).filter test = (trees.filter test).map withoutComments := by
  have kept : trees.filter test =
      trees.filter fun tree => (test ∘ withoutComments) tree && !tree.isComment := by
    apply List.filter_congr
    intro tree _
    rw [Function.comp_apply, passes.same]
    cases tree with
    | comment style text => rw [passes.refuses, Bool.false_and]
    | mark | word | node => simp [isComment]
  rw [codeAmong_eq_map, List.filter_map, List.filter_filter, kept]

theorem PassesOver.find?_codeAmong {test : Tree → Bool} (passes : PassesOver test)
    (trees : List Tree) :
    (codeAmong trees).find? test = (trees.find? test).map withoutComments := by
  rw [← List.head?_filter, passes.filter_codeAmong, List.head?_map, List.head?_filter]

theorem PassesOver.filter_namedChildren {test : Tree → Bool} (passes : PassesOver test)
    (tree : Tree) :
    tree.withoutComments.namedChildren.filter test =
      (tree.namedChildren.filter test).map withoutComments := by
  have named : PassesOver fun child => test child && child.isNamed :=
    { same := fun child => by rw [passes.same, isNamed_withoutComments]
      refuses := fun style text => by rw [passes.refuses, Bool.false_and] }
  rw [namedChildren, namedChildren, List.filter_filter, List.filter_filter,
    children_withoutComments, named.filter_codeAmong]

theorem child?_withoutComments (tree : Tree) (role : Role) (distinguished : role ≠ .plain) :
    tree.withoutComments.child? role = (tree.child? role).map withoutComments := by
  rw [child?, child?, children_withoutComments,
    (passesOver_role distinguished).find?_codeAmong]

theorem map_child?_withoutComments {β : Type} {measure : Tree → β}
    (same : ∀ part, measure part.withoutComments = measure part) (tree : Tree) (role : Role)
    (distinguished : role ≠ .plain) :
    (tree.withoutComments.child? role).map measure = (tree.child? role).map measure := by
  rw [tree.child?_withoutComments role distinguished, Option.map_map]
  exact congrArg (fun f => (tree.child? role).map f) (funext same)

theorem findSome?_codeAmong {β : Type} {look : Tree → Option β}
    (same : ∀ tree, look tree.withoutComments = look tree)
    (refuses : ∀ style text, look (.comment style text) = none) (trees : List Tree) :
    (codeAmong trees).findSome? look = trees.findSome? look := by
  induction trees with
  | nil => rfl
  | cons tree rest ih =>
      cases tree with
      | comment style text => rw [codeAmong_comment, List.findSome?_cons, refuses, ih]
      | mark | word | node =>
          rw [codeAmong_code rfl, List.findSome?_cons, List.findSome?_cons, same, ih]

theorem flatMap_namedChildren {choose : Tree → List Tree}
    (same : ∀ tree, choose tree.withoutComments = (choose tree).map withoutComments)
    (refuses : ∀ style text, choose (.comment style text) = []) (tree : Tree) :
    tree.withoutComments.namedChildren.flatMap choose =
      (tree.namedChildren.flatMap choose).map withoutComments := by
  rw [namedChildren, namedChildren, children_withoutComments]
  induction tree.children with
  | nil => rfl
  | cons child rest ih =>
      cases child with
      | comment style text =>
          rw [codeAmong_comment, ih, List.filter_cons_of_pos rfl, List.flatMap_cons, refuses,
            List.nil_append]
      | mark role text => exact ih
      | word | node =>
          rw [codeAmong_code rfl, List.filter_cons_of_pos rfl, List.filter_cons_of_pos rfl,
            List.flatMap_cons, List.flatMap_cons, List.map_append, same, ih]

theorem isDecision_withoutComments (tree : Tree) :
    tree.withoutComments.IsDecision ↔ tree.IsDecision := by
  rw [IsDecision, IsDecision, kind?_withoutComments,
    child?_withoutComments tree .operator (by decide), Option.map_map]
  simp [Function.comp_def]

mutual

theorem decisionSum_withoutComments (tree : Tree) :
    tree.withoutComments.decisionSum = tree.decisionSum := by
  cases tree with
  | node role kind children =>
      have same := (Tree.node role kind children).isDecision_withoutComments
      rw [withoutComments] at same
      rw [withoutComments, decisionSum, decisionSum, childSum_codeAmong children]
      simp only [same]
  | mark | word | comment => rfl
termination_by structural tree

theorem childSum_codeAmong (children : List Tree) :
    childSum (codeAmong children) = childSum children := by
  cases children with
  | nil => rfl
  | cons child rest =>
      have first := decisionSum_withoutComments child
      have others := childSum_codeAmong rest
      cases child with
      | comment style text =>
          rw [codeAmong_comment, others, childSum, decisionSum, ite_self, zero_add]
      | mark | word | node =>
          rw [codeAmong_code rfl, childSum, childSum, isNamed_withoutComments, first, others]
termination_by structural children

end

section

variable (tree : Tree)

theorem parameterCount_withoutComments :
    tree.withoutComments.parameterCount = tree.parameterCount := by
  have passes := (passesOver_isKind .formalParameter).or (passesOver_isKind .spreadParameter)
  rw [parameterCount, parameterCount, passes.filter_namedChildren, List.length_map]

theorem statementCount_withoutComments :
    tree.withoutComments.statementCount = tree.statementCount := by
  rw [statementCount, statementCount, passesOver_code.filter_namedChildren, List.length_map]

theorem methodMetrics_withoutComments :
    tree.withoutComments.methodMetrics = tree.methodMetrics := by
  rw [methodMetrics, methodMetrics, funext decisions_eq_decisionSum,
    map_child?_withoutComments text_withoutComments tree .name (by decide),
    map_child?_withoutComments parameterCount_withoutComments tree .parameters (by decide),
    map_child?_withoutComments statementCount_withoutComments tree .body (by decide),
    map_child?_withoutComments decisionSum_withoutComments tree .body (by decide)]

theorem methodsIn_withoutComments :
    tree.withoutComments.methodsIn = tree.methodsIn.map withoutComments :=
  (passesOver_isKind .methodDeclaration).filter_namedChildren tree

theorem memberMethods_withoutComments :
    tree.withoutComments.memberMethods = tree.memberMethods.map withoutComments := by
  rw [memberMethods, memberMethods, tree.child?_withoutComments .body (by decide)]
  cases tree.child? .body with
  | none => rfl
  | some body =>
      apply flatMap_namedChildren
      · intro member
        simp only [isKind_withoutComments, methodsIn_withoutComments]
        split
        · rfl
        · split <;> rfl
      · intro style text
        rfl

theorem firstClass?_withoutComments :
    tree.withoutComments.firstClass? = tree.firstClass?.map withoutComments := by
  have passes := ((passesOver_isKind .classDeclaration).or
    (passesOver_isKind .enumDeclaration)).or (passesOver_isKind .recordDeclaration)
  rw [firstClass?, firstClass?, ← List.head?_filter, ← List.head?_filter, ← List.head?_map]
  exact congrArg List.head? (passes.filter_namedChildren tree)

theorem packageName?_withoutComments : tree.withoutComments.packageName? = tree.packageName? := by
  rw [packageName?, packageName?, children_withoutComments]
  apply findSome?_codeAmong
  · intro child
    rw [isKind_withoutComments,
      map_child?_withoutComments text_withoutComments child .name (by decide)]
  · intro style text
    rfl

theorem classMetrics?_withoutComments :
    tree.withoutComments.classMetrics? = tree.classMetrics? := by
  have measured : methodMetrics ∘ withoutComments = methodMetrics :=
    funext methodMetrics_withoutComments
  rw [classMetrics?, classMetrics?, firstClass?_withoutComments, packageName?_withoutComments]
  cases tree.firstClass? with
  | none => rfl
  | some classTree =>
      simp only [Option.map_some, Option.bind_eq_bind, Option.bind_some,
        classTree.child?_withoutComments .name (by decide), memberMethods_withoutComments,
        List.map_map, measured]
      cases classTree.child? .name with
      | none => rfl
      | some name => simp

theorem findIdx?_codeChildren_withoutComments :
    tree.withoutComments.children.findIdx? isClass = tree.codeChildren.findIdx? isClass := by
  rw [children_withoutComments, codeAmong_eq_map, List.findIdx?_map]
  congr 1
  funext child
  simp [isClass]

end

/-- Whatever comments are put into a source file, the same declaration is its first class and all
its methods have the same measures. -/
theorem comments_keep_metrics {program commented : Tree}
    (inserted : Relation.ReflTransGen InsertsComment program commented) :
    commented.codeChildren.findIdx? isClass = program.codeChildren.findIdx? isClass ∧
    commented.firstClass?.map withoutComments = program.firstClass?.map withoutComments ∧
    (commented.firstClass?.map fun classTree => classTree.memberMethods.map methodMetrics) =
      (program.firstClass?.map fun classTree => classTree.memberMethods.map methodMetrics) ∧
    commented.classMetrics? = program.classMetrics? := by
  have code : commented.withoutComments = program.withoutComments :=
    withoutComments_eq_of_inserted inserted
  have sameClass : commented.firstClass?.map withoutComments =
      program.firstClass?.map withoutComments := by
    rw [← firstClass?_withoutComments, code, firstClass?_withoutComments]
  refine ⟨?_, sameClass, ?_, ?_⟩
  · rw [← findIdx?_codeChildren_withoutComments, code, findIdx?_codeChildren_withoutComments]
  · have measures (classTree : Tree) : classTree.withoutComments.memberMethods.map methodMetrics =
        classTree.memberMethods.map methodMetrics := by
      rw [memberMethods_withoutComments, List.map_map]
      exact congrArg (classTree.memberMethods.map ·) (funext methodMetrics_withoutComments)
    have same := congrArg
      (Option.map fun classTree => classTree.memberMethods.map methodMetrics) sameClass
    simpa [Option.map_map, Function.comp_def, measures] using same
  · rw [← classMetrics?_withoutComments, code, classMetrics?_withoutComments]

/-- An enum with a method of two parameters that returns `a && b`. The given trees stand before the
enum, in the parameter list and before the operator. -/
def measuredEnum (top listed chained : List Tree) : Tree :=
  .node .plain .program (top ++
    [.node .plain .enumDeclaration
      [.mark .plain "enum", .word .name "Level", .node .body .enumBody
        [.node .plain .enumBodyDeclarations
          [.mark .plain ";", .node .plain .methodDeclaration
            [.node .plain .type [.word .plain "boolean"], .word .name "high",
             .node .parameters .formalParameters (listed ++
               [.node .plain .formalParameter [.word .name "a"], .mark .plain ",",
                .node .plain .formalParameter [.word .name "b"]]),
             .node .body .block
               [.node .plain .returnStatement
                 [.node .plain .binaryExpression
                   (.word .plain "a" :: chained ++ [.mark .operator "&&", .word .plain "b"])]]]]]]])

theorem commented_enum_metrics :
    Relation.ReflTransGen InsertsComment (measuredEnum [] [] [])
      (measuredEnum [.comment .block "/* a */"] [.comment .line "// b"] [.comment .block "/**/"]) ∧
    (measuredEnum [.comment .block "/* a */"] [.comment .line "// b"]
      [.comment .block "/**/"]).classMetrics? = some ⟨"Level", [⟨"high", 2, 1, 2⟩]⟩ := by
  have top : InsertsComment (measuredEnum [] [] [])
      (measuredEnum [.comment .block "/* a */"] [] []) :=
    .beside _ _ [] _ _ _
  have listed : InsertsComment (measuredEnum [.comment .block "/* a */"] [] [])
      (measuredEnum [.comment .block "/* a */"] [.comment .line "// b"] []) :=
    .within _ _ [_] [] (.within _ _ [_, _] [] (.within _ _ [] [] (.within _ _ [_] []
      (.within _ _ [_, _] [_] (.beside _ _ [] _ _ _)))))
  have chained : InsertsComment
      (measuredEnum [.comment .block "/* a */"] [.comment .line "// b"] [])
      (measuredEnum [.comment .block "/* a */"] [.comment .line "// b"] [.comment .block "/**/"]) :=
    .within _ _ [_] [] (.within _ _ [_, _] [] (.within _ _ [] [] (.within _ _ [_] []
      (.within _ _ [_, _, _] [] (.within _ _ [] [] (.within _ _ [] []
        (.beside _ _ [_] _ _ _)))))))
  have inserted := ((Relation.ReflTransGen.single top).tail listed).tail chained
  refine ⟨inserted, ?_⟩
  rw [(comments_keep_metrics inserted).2.2.2]
  decide +kernel

end Coupling.Java.Tree
