import Coupling.Java.Metrics
import Coupling.Proofs.Java.Grouping
import Coupling.Proofs.Java.Reading
import Coupling.Proofs.Java.Scanning

/-!
# Methods that return a chain of operators

A class with one method, which returns the name `a` or several of them joined by
operators, is followed from its text to its measures: the text is scanned to
tokens, the tokens are read as a tree, and the tree is measured. The chain may be
of any length, and any number of spaces may stand around its operators.
-/

namespace Coupling.Java.Chain

open Scanner

/-- An operator of a chain. -/
inductive Sign where
  | and
  | or
  | plus
deriving DecidableEq

namespace Sign

/-- The text of the operator. -/
def text : Sign → String
  | .and => "&&"
  | .or => "||"
  | .plus => "+"

/-- The level of the operator. -/
def level : Sign → Nat
  | .and => 2
  | .or => 1
  | .plus => 9

theorem level?_text (sign : Sign) : Operator.level? sign.text = some sign.level := by
  cases sign <;> rfl

theorem text_ne (sign : Sign) : sign.text ≠ ">" ∧ sign.text ≠ "instanceof" := by
  cases sign <;> simp [text]

theorem text_not_mem_continuations (sign : Sign) : sign.text ∉ continuations := by
  cases sign <;> decide

end Sign

/-- So many spaces. -/
def spaces (count : Nat) : List Char :=
  List.replicate count ' '

/-- An operator and how many spaces stand before and after it. -/
structure Joint where
  /-- The operator. -/
  sign : Sign
  /-- The number of spaces before the operator. -/
  before : Nat
  /-- The number of spaces after the operator. -/
  after : Nat

namespace Joint

/-- The operator, with the spaces around it, and the operand after it. -/
def text (joint : Joint) : String :=
  String.ofList (spaces joint.before) ++ joint.sign.text ++
    String.ofList (spaces joint.after) ++ "a"

/-- The tokens of the operator and of the operand after it. -/
def tokens (joint : Joint) : List Token :=
  [spaced (spaces joint.before) .mark joint.sign.text, spaced (spaces joint.after) .word "a"]

/-- The link that the operator and the operand after it make. -/
def link (joint : Joint) : Link :=
  ⟨.binaryExpression, joint.sign.level, [.mark .operator joint.sign.text], [.word .plain "a"]⟩

end Joint

/-- The text of the class up to the first operand. -/
def openingText : String :=
  "class Generated \x7b\n    Object run(boolean a) \x7b\n        return a"

/-- The text of the class after the last operand. -/
def closingText : String :=
  ";\n    \x7d\n\x7d\n"

/-- The class whose method returns the chain. -/
def source (joints : List Joint) : String :=
  openingText ++ String.join (joints.map Joint.text) ++ closingText

/-- The tokens of the class up to the first operand. -/
def opening : List Token :=
  [spaced [] .word "class", spaced (spaces 1) .word "Generated", spaced (spaces 1) .mark "\x7b",
   spaced ('\n' :: spaces 4) .word "Object", spaced (spaces 1) .word "run",
   spaced [] .mark "(", spaced [] .word "boolean", spaced (spaces 1) .word "a",
   spaced [] .mark ")", spaced (spaces 1) .mark "\x7b",
   spaced ('\n' :: spaces 8) .word "return", spaced (spaces 1) .word "a"]

/-- The tokens of the class after the last operand. -/
def closing : List Token :=
  [spaced [] .mark ";", spaced ('\n' :: spaces 4) .mark "\x7d", spaced ['\n'] .mark "\x7d"]

/-- The tokens of the class. -/
def tokens (joints : List Joint) : List Token :=
  opening ++ (joints.flatMap Joint.tokens ++ closing)

theorem length_tokens (joints : List Joint) : (tokens joints).length = 2 * joints.length + 15 := by
  have chain : (joints.flatMap Joint.tokens).length = 2 * joints.length := by
    induction joints with
    | nil => rfl
    | cons joint others ih =>
        rw [List.flatMap_cons, List.length_append, ih, Joint.tokens]
        simp
        omega
  simp [tokens, opening, closing, chain]

theorem isBlank_spaces (count : Nat) : ∀ char ∈ spaces count, isBlank char = true := by
  intro char member
  rw [List.eq_of_mem_replicate member]
  decide

theorem isBlank_line (count : Nat) : ∀ char ∈ '\n' :: spaces count, isBlank char = true :=
  List.forall_mem_cons.mpr ⟨by decide, isBlank_spaces count⟩

theorem isMark_bracket {text : String} (isBracket : text ∈ ["(", ")", "\x7b", "\x7d", ";"])
    (rest : List Char) : IsMark text.toList rest := by
  simp only [List.mem_cons, List.not_mem_nil, or_false] at isBracket
  rcases isBracket with rfl | rfl | rfl | rfl | rfl
  · exact ⟨⟨'(', rfl, by decide⟩, rfl⟩
  · exact ⟨⟨')', rfl, by decide⟩, rfl⟩
  · exact ⟨⟨'\x7b', rfl, by decide⟩, rfl⟩
  · exact ⟨⟨'\x7d', rfl, by decide⟩, rfl⟩
  · exact ⟨⟨';', rfl, by decide⟩, rfl⟩

/-- An operator ends before the operand, even if no space stands between them. -/
theorem isMark_sign (sign : Sign) (count : Nat) (rest : List Char) :
    IsMark sign.text.toList (spaces count ++ 'a' :: rest) := by
  cases sign with
  | and => exact ⟨⟨'&', rfl, by decide⟩, rfl⟩
  | or => exact ⟨⟨'|', rfl, by decide⟩, rfl⟩
  | plus =>
      refine ⟨⟨'+', rfl, by decide⟩, ?_⟩
      -- the sign alone may start a longer mark, so the next character counts
      cases count <;> rfl

theorem toList_joints (joints : List Joint) :
    (String.join (joints.map Joint.text)).toList = spelling (joints.flatMap Joint.tokens) := by
  induction joints with
  | nil => rfl
  | cons joint others ih =>
      rw [List.map_cons, String.join_cons, String.toList_append, ih, List.flatMap_cons,
        spelling_append, Joint.tokens, spelling_spaced, spelling_spaced]
      simp [Joint.text, spelling]

theorem toList_source (joints : List Joint) :
    (source joints).toList = spelling (tokens joints) ++ ['\n'] := by
  have opened : openingText.toList = spelling opening := by
    simp only [opening, spelling_spaced]
    simp [openingText, spaces, List.replicate, spelling]
  have closed : closingText.toList = spelling closing ++ ['\n'] := by
    simp only [closing, spelling_spaced]
    simp [closingText, spaces, List.replicate, spelling]
  rw [source, String.toList_append, String.toList_append, opened, toList_joints, closed, tokens,
    spelling_append, spelling_append]
  simp only [List.append_assoc]

section Ends

variable {rest : List Char} (ends : ∀ char ∈ rest.head?, continuesWord char = false)

include ends

theorem ends_joints (joints : List Joint) :
    ∀ char ∈ (spelling (joints.flatMap Joint.tokens) ++ rest).head?,
      continuesWord char = false := by
  cases joints with
  | nil => exact ends
  | cons joint others =>
      rw [List.flatMap_cons, Joint.tokens, List.cons_append, spelling_spaced]
      cases joint.before with
      | zero => cases joint.sign <;> simp [spaces, Sign.text] <;> decide
      | succ count => simp [spaces, List.replicate_succ]; decide

theorem endEach_joints (joints : List Joint) : EndEach rest (joints.flatMap Joint.tokens) := by
  induction joints with
  | nil => trivial
  | cons joint others ih =>
      rw [List.flatMap_cons, endEach_append, Joint.tokens]
      refine ⟨⟨endsBefore_mark (isBlank_spaces _) ?_,
        endsBefore_word (isBlank_spaces _) (by decide) (ends_joints ends others), trivial⟩, ih⟩
      rw [spelling_spaced, List.append_assoc]
      exact isMark_sign joint.sign joint.after _

theorem endEach_opening : EndEach rest opening := by
  refine ⟨endsBefore_word (by simp) (by decide) ?_,
    endsBefore_word (isBlank_spaces 1) (by decide) ?_,
    endsBefore_mark (isBlank_spaces 1) (isMark_bracket (by simp) _),
    endsBefore_word (isBlank_line 4) (by decide) ?_,
    endsBefore_word (isBlank_spaces 1) (by decide) ?_,
    endsBefore_mark (by simp) (isMark_bracket (by simp) _),
    endsBefore_word (by simp) (by decide) ?_,
    endsBefore_word (isBlank_spaces 1) (by decide) ?_,
    endsBefore_mark (by simp) (isMark_bracket (by simp) _),
    endsBefore_mark (isBlank_spaces 1) (isMark_bracket (by simp) _),
    endsBefore_word (isBlank_line 8) (by decide) ?_,
    endsBefore_word (isBlank_spaces 1) (by decide) ends, trivial⟩
  all_goals
    simp only [spelling_spaced, spaces, List.replicate]
    simp +decide

end Ends

theorem endEach_closing : EndEach ['\n'] closing :=
  ⟨endsBefore_mark (by simp) (isMark_bracket (by simp) _),
    endsBefore_mark (isBlank_line 4) (isMark_bracket (by simp) _),
    endsBefore_mark (isBlank_line 0) (isMark_bracket (by simp) _), trivial⟩

theorem scan?_source (joints : List Joint) :
    Tokens.scan? (source joints) = some ⟨tokens joints, blankTrivia ['\n']⟩ := by
  have ended : ∀ char ∈ (spelling closing ++ ['\n']).head?, continuesWord char = false := by
    rw [closing, spelling_spaced]
    simp
    decide
  apply scan?_spelling (toList_source joints)
  · rw [tokens, endEach_append, endEach_append, spelling_append, List.append_assoc]
    exact ⟨endEach_opening (ends_joints ended joints), endEach_joints ended joints,
      endEach_closing⟩
  · exact isBlank_line 0
  · rw [toList_source, tokens, opening, List.cons_append, spelling_spaced]
    simp +decide

theorem isBare_spaced (blanks : List Char) (shape : Shape) (text : String) :
    (spaced blanks shape text).IsBare := by
  unfold Token.IsBare spaced blankTrivia
  split <;> rfl

theorem isName_spaced (blanks : List Char) {text : String} (ordinary : text ∉ openings) :
    (spaced blanks .word text).IsName :=
  ⟨isBare_spaced blanks .word text, rfl, ordinary⟩

theorem endsName_spaced (blanks : List Char) (shape : Shape) {text : String}
    (other : text ∉ continuations) (rest : List Token) :
    EndsName (spaced blanks shape text :: rest) :=
  endsName_cons other rest

theorem isName_operand (blanks : List Char) : (spaced blanks .word "a").IsName :=
  isName_spaced blanks (by decide)

/-- The grammar reads names as operands. -/
def ReadsOperands (grammar : Grammar) : Prop :=
  ∀ {token rest}, Token.IsName token → EndsName rest →
    Reads (grammar.parse (.operand true)) (token :: rest) [.word .plain token.text] rest

/-- The grammar reads names as types. -/
def ReadsTypes (grammar : Grammar) : Prop :=
  ∀ {token rest}, Token.IsName token → EndsName rest →
    Reads (grammar.parse (.type true)) (token :: rest)
      [.node .plain .type [.word .plain token.text]] rest

/-- The expression that a chain is read as. -/
def pieces (joints : List Joint) : Pieces :=
  Link.group [.word .plain "a"] (joints.map Joint.link)

theorem endsName_joints (joints : List Joint) {rest : List Token} (ends : EndsName rest) :
    EndsName (joints.flatMap Joint.tokens ++ rest) := by
  cases joints with
  | nil => exact ends
  | cons joint others => exact endsName_spaced _ _ joint.sign.text_not_mem_continuations _

theorem reads_links {grammar : Grammar} {bound : Nat} {joints : List Joint} {rest : List Token}
    (operand : ReadsOperands grammar) (enough : joints.length < bound) (ends : EndsName rest)
    (last : Operator.level? (Operator.text rest) = none) (found : List Link) :
    Reads (grammar.links true bound found) (joints.flatMap Joint.tokens ++ rest)
      (found.reverse ++ joints.map Joint.link) rest := by
  induction joints generalizing bound found with
  | nil =>
      rw [← Nat.sub_add_cancel enough]
      apply Reads.get
      rw [List.flatMap_nil, List.nil_append, last, List.map_nil, List.append_nil]
      exact .pure _ rest
  | cons joint others ih =>
      have single := joint.sign.text_ne.1
      have isBare := isBare_spaced (spaces joint.before) .mark joint.sign.text
      have level : Operator.level?
          (Operator.text ((joint :: others).flatMap Joint.tokens ++ rest)) =
            some joint.sign.level := by
        rw [List.flatMap_cons, Joint.tokens, List.cons_append, List.cons_append,
          Operator.text_cons single]
        exact joint.sign.level?_text
      have binary : nextIs "instanceof" ((joint :: others).flatMap Joint.tokens ++ rest) =
          false := by
        simpa [Joint.tokens, nextIs_cons] using joint.sign.text_ne.2
      have more := ih (Nat.lt_sub_of_add_lt enough) (joint.link :: found)
      rw [← Nat.sub_add_cancel (Nat.zero_lt_of_lt enough)]
      apply Reads.get
      simp only [level, binary, Bool.false_eq_true, if_false]
      apply (reads_operator isBare single _).bind
      apply (operand (isName_operand _) (endsName_joints others ends)).bind
      simpa [Joint.link] using more

theorem reads_expression {grammar : Grammar} {joints : List Joint}
    (operand : ReadsOperands grammar) (enough : joints.length < grammar.bound) (blanks : List Char)
    (rest : List Token) :
    Reads (grammar.expression true)
      (spaced (spaces 1) .word "a" ::
        (joints.flatMap Joint.tokens ++ spaced blanks .mark ";" :: rest))
      (pieces joints) (spaced blanks .mark ";" :: rest) := by
  have ends : EndsName (spaced blanks .mark ";" :: rest) :=
    endsName_spaced blanks .mark (by decide) rest
  have sign : Operator.text (spaced blanks .mark ";" :: rest) = ";" :=
    Operator.text_cons (by simp) rest
  have last : Operator.level? ";" = none := rfl
  have choice : nextIs "?" (spaced blanks .mark ";" :: rest) = false := rfl
  have assigns : Operator.isAssignment ";" = false := rfl
  apply (operand (isName_operand (spaces 1)) (endsName_joints joints ends)).bind
  apply (reads_links operand enough ends (by rw [sign, last]) []).bind
  apply Reads.get
  simp only [choice, sign, assigns, Bool.false_eq_true, if_false]
  exact .pure _ _

section Declarations

variable {grammar : Grammar} {tokens rest : List Token} {pieces : Pieces}

theorem reads_return {after : List Char} (before : List Char) (present : nextIs ";" tokens = false)
    (read : Reads (grammar.parse (.expression true)) tokens pieces
      (spaced after .mark ";" :: rest)) :
    Reads grammar.statement (spaced before .word "return" :: tokens)
      [.node .plain .returnStatement
        (.mark .plain "return" :: (pieces ++ [.mark .plain ";"]))] rest := by
  apply Reads.get
  show Reads (Reader.node .returnStatement _) _ _ _
  apply Reads.node
  exact .inOrder_cons (.mark (isBare_spaced _ _ _) rfl _) <|
    .inOrder_cons (.optionally (by simp [present]) (.inOrder_singleton read)) <|
    .inOrder_singleton (.mark (isBare_spaced _ _ _) rfl rest)

theorem reads_block {after : List Char} (before : List Char) (enough : 1 < grammar.bound)
    (present : nextIs "\x7d" tokens = false)
    (read : Reads (grammar.parse .statement) tokens pieces (spaced after .mark "\x7d" :: rest)) :
    Reads grammar.block (spaced before .mark "\x7b" :: tokens)
      [.node .plain .block (.mark .plain "\x7b" :: (pieces ++ [.mark .plain "\x7d"]))] rest := by
  apply Reads.node
  exact .inOrder_cons (.mark (isBare_spaced _ _ _) rfl _) <|
    .inOrder_cons (.manyUntil_one enough rfl present read) <|
    .inOrder_singleton (.mark (isBare_spaced _ _ _) rfl rest)

theorem reads_parameter (types : ReadsTypes grammar) (rest : List Token) :
    Reads grammar.parameter
      (spaced [] .word "boolean" :: spaced (spaces 1) .word "a" :: spaced [] .mark ")" :: rest)
      [.node .plain .formalParameter
        [.node .plain .type [.word .plain "boolean"], .word .name "a"]]
      (spaced [] .mark ")" :: rest) := by
  have typed : Grammar.isInferredParameter (spaced [] .word "boolean" ::
      spaced (spaces 1) .word "a" :: spaced [] .mark ")" :: rest) = false := rfl
  apply Reads.get
  simp only [typed, Bool.false_eq_true, if_false]
  apply Reads.bind (.optionally_none rfl)
  apply Reads.bind (types (isName_spaced _ (by decide)) (endsName_spaced _ _ (by decide) _))
  apply Reads.get
  show Reads (Reader.node .formalParameter _) _ _ _
  apply Reads.node
  exact .inOrder_cons (.pure _ _) <|
    .inOrder_cons (.inRole (.word (isBare_spaced _ _ _) rfl _)) <|
    .inOrder_singleton (reads_dimensions (endsName_spaced _ _ (by decide) rest))

theorem reads_parameters (enough : 1 < grammar.bound) (types : ReadsTypes grammar)
    (rest : List Token) :
    Reads grammar.parameters
      (spaced [] .mark "(" :: spaced [] .word "boolean" :: spaced (spaces 1) .word "a" ::
        spaced [] .mark ")" :: rest)
      [.node .plain .formalParameters
        [.mark .plain "(",
         .node .plain .formalParameter
          [.node .plain .type [.word .plain "boolean"], .word .name "a"],
         .mark .plain ")"]]
      rest := by
  have one := Reads.listed_one enough (isBare_spaced [] .mark "(") (isBare_spaced [] .mark ")")
    rfl rfl (reads_parameter types rest)
  exact .node (.inOrder_singleton one)

/-- The method with the given body. -/
def methodTree (body : Pieces) : Tree :=
  .node .plain .methodDeclaration
    ([.node .plain .type [.word .plain "Object"], .word .name "run",
      .node .parameters .formalParameters
        [.mark .plain "(",
         .node .plain .formalParameter
          [.node .plain .type [.word .plain "boolean"], .word .name "a"],
         .mark .plain ")"]] ++ body.map (Tree.withRole .body))

/-- The class with the given member. -/
def classTree (member : Pieces) : Tree :=
  .node .plain .classDeclaration
    [.mark .plain "class", .word .name "Generated",
      .node .body .classBody (.mark .plain "\x7b" :: (member ++ [.mark .plain "\x7d"]))]

theorem reads_method (enough : 1 < grammar.bound) (types : ReadsTypes grammar)
    (read : Reads grammar.block (spaced (spaces 1) .mark "\x7b" :: tokens) pieces rest) :
    Reads (grammar.method [])
      (spaced ('\n' :: spaces 4) .word "Object" :: spaced (spaces 1) .word "run" ::
        spaced [] .mark "(" :: spaced [] .word "boolean" :: spaced (spaces 1) .word "a" ::
        spaced [] .mark ")" :: spaced (spaces 1) .mark "\x7b" :: tokens)
      [methodTree pieces] rest := by
  have body : Reads grammar.methodBody (spaced (spaces 1) .mark "\x7b" :: tokens)
      (pieces.map (Tree.withRole .body)) rest := .get read.inRole
  apply Reads.node
  apply Reads.inOrder_skip (.pure _ _)
  apply Reads.inOrder_cons (types (isName_spaced _ (by decide)) (endsName_spaced _ _ (by decide) _))
  exact .inOrder_cons (.inRole (.word (isBare_spaced _ _ _) rfl _)) <|
    .inOrder_cons (.inRole (reads_parameters enough types _)) <|
    .inOrder_skip (reads_dimensions (endsName_spaced _ _ (by decide) _)) <|
    .inOrder_skip (.optionally_none rfl) <|
    .inOrder_skip (.optionally_none rfl) <|
    .inOrder_singleton body

theorem reads_member (enough : 3 ≤ grammar.bound) (types : ReadsTypes grammar)
    (read : Reads grammar.block (spaced (spaces 1) .mark "\x7b" :: tokens) pieces rest) :
    Reads grammar.member
      (spaced ('\n' :: spaces 4) .word "Object" :: spaced (spaces 1) .word "run" ::
        spaced [] .mark "(" :: spaced [] .word "boolean" :: spaced (spaces 1) .word "a" ::
        spaced [] .mark ")" :: spaced (spaces 1) .mark "\x7b" :: tokens)
      [methodTree pieces] rest := by
  apply Reads.get
  show Reads (grammar.modifiers >>= _) _ _ _
  apply Reads.bind (.optionally_none rfl)
  apply Reads.get
  show Reads (Reader.inOrder _ >>= _) _ _ _
  apply Reads.bind (.inOrder_skip (.optionally_none rfl)
    (.inOrder_singleton (reads_annotations (by omega) rfl)))
  apply Reads.get
  rw [if_neg (by simp [secondIs, nextIs_cons]), if_neg (by simp [secondIs, nextIs_cons]), if_pos]
  · exact reads_method (by omega) types read
  · rw [← Nat.sub_add_cancel enough, startsMethod,
      (endsName_spaced _ _ (by decide) _).afterType? (isName_spaced _ (by decide))]
    rfl

theorem reads_class {after : List Char} (enough : 1 < grammar.bound)
    (present : nextIs "\x7d" tokens = false)
    (read : Reads (grammar.parse .member) tokens pieces (spaced after .mark "\x7d" :: rest)) :
    Reads grammar.statement
      (spaced [] .word "class" :: spaced (spaces 1) .word "Generated" ::
        spaced (spaces 1) .mark "\x7b" :: tokens)
      [classTree pieces] rest := by
  have body : Reads grammar.classBody (spaced (spaces 1) .mark "\x7b" :: tokens)
      [.node .plain .classBody (.mark .plain "\x7b" :: (pieces ++ [.mark .plain "\x7d"]))] rest :=
    .node <| .inOrder_cons (.mark (isBare_spaced _ _ _) rfl _) <|
      .inOrder_cons (.manyUntil_one enough rfl present read) <|
      .inOrder_singleton (.mark (isBare_spaced _ _ _) rfl rest)
  apply Reads.get
  show Reads (grammar.modifiers >>= _) _ _ _
  apply Reads.bind (.optionally_none rfl)
  apply Reads.get
  show Reads (grammar.classLike .classDeclaration []) _ _ _
  apply Reads.node
  exact .inOrder_skip (.pure _ _) <|
    .inOrder_cons (.anyMark (isBare_spaced _ _ _) _) <|
    .inOrder_cons (.inRole (.word (isBare_spaced _ _ _) rfl _)) <|
    .inOrder_skip (.optionally_none rfl) <|
    .inOrder_skip (.many_none (by omega) rfl) <|
    .inOrder_singleton body.inRole

end Declarations

/-- The body of the method. -/
def bodyTree (joints : List Joint) : Tree :=
  .node .plain .block
    [.mark .plain "\x7b",
      .node .plain .returnStatement
        (.mark .plain "return" :: (pieces joints ++ [.mark .plain ";"])),
      .mark .plain "\x7d"]

/-- The source file. -/
def programTree (joints : List Joint) : Tree :=
  .node .plain .program [classTree [methodTree [bodyTree joints]]]

/-- The grammar whose goals are nested up to a depth. -/
abbrev atDepth (depth : Nat) : Grammar :=
  ⟨depth, Grammar.parse? depth⟩

theorem readsOperands_atDepth (depth : Nat) : ReadsOperands (atDepth (depth + 4)) :=
  fun isName ends => ends.reads_operand isName (Nat.le_add_left 3 depth) true

theorem readsTypes_atDepth (depth : Nat) : ReadsTypes (atDepth (depth + 2)) :=
  fun isName ends => ends.reads_typeUse isName (Nat.succ_pos depth) true

theorem reads_tokens {joints : List Joint} {depth : Nat} (enough : joints.length < depth + 4) :
    Reads ((atDepth (depth + 8)).parse .statement) (tokens joints)
      [classTree [methodTree [bodyTree joints]]] [] := by
  -- each construct holds the one before it, one level further out
  have expression : Reads ((atDepth (depth + 5)).parse (.expression true)) _ _ _ :=
    reads_expression (readsOperands_atDepth depth) enough []
      [spaced ('\n' :: spaces 4) .mark "\x7d", spaced ['\n'] .mark "\x7d"]
  have statement : Reads ((atDepth (depth + 6)).parse .statement) _ _ _ :=
    reads_return ('\n' :: spaces 8) rfl expression
  have body := reads_block (spaces 1) (by simp) rfl statement
  have member : Reads ((atDepth (depth + 7)).parse .member) _ _ _ :=
    reads_member (by simp) (readsTypes_atDepth (depth + 4)) body
  exact reads_class (by simp) rfl member

theorem tree?_tokens (joints : List Joint) :
    Tokens.tree? ⟨tokens joints, blankTrivia ['\n']⟩ = some (programTree joints) := by
  -- far deeper than the eight levels and the repetitions that are needed
  have depth : depthBound (tokens joints).length = 32 * joints.length + 248 + 8 := by
    rw [depthBound, length_tokens]
    omega
  have read : Reads
      ((atDepth (32 * joints.length + 248 + 8)).many (fun tokens => !tokens.isEmpty)
        ((atDepth (32 * joints.length + 248 + 8)).parse .statement))
      (tokens joints) [classTree [methodTree [bodyTree joints]]] [] :=
    .many_one (by simp) rfl (reads_tokens (by omega)) rfl
  rw [Reads] at read
  simp only [Tokens.tree?, depth, read]
  rfl

theorem cost_sign (sign : Sign) :
    Link.cost .binaryExpression [.mark .operator sign.text] = if sign = .plus then 0 else 1 := by
  cases sign <;> decide

theorem isOperand_name (text : String) : Link.IsOperand [.word .plain text] := by
  simp [Link.IsOperand, Tree.role]

theorem linkCost_joints (joints : List Joint) :
    Link.linkCost (joints.map Joint.link) =
      joints.countP (·.sign = .and) + joints.countP (·.sign = .or) := by
  induction joints with
  | nil => rfl
  | cons joint others ih =>
      rw [List.map_cons, Link.linkCost, ih, Joint.link, cost_sign, List.countP_cons,
        List.countP_cons]
      cases joint.sign <;> simp [Tree.childSum, Tree.decisionSum] <;> omega

theorem childSum_pieces (joints : List Joint) :
    Tree.childSum (pieces joints) =
      joints.countP (·.sign = .and) + joints.countP (·.sign = .or) := by
  have operands : ∀ link ∈ joints.map Joint.link, Link.IsOperand link.operand := by
    simpa [Joint.link] using fun _ _ => isOperand_name "a"
  rw [pieces, Link.childSum_group (isOperand_name "a") operands, linkCost_joints]
  simp [Tree.childSum, Tree.decisionSum]

theorem decisions_bodyTree (joints : List Joint) :
    ((bodyTree joints).withRole .body).decisions = Tree.childSum (pieces joints) := by
  rw [Tree.decisions_eq_decisionSum]
  simp [bodyTree, Tree.withRole, Tree.decisionSum, Tree.childSum, Tree.childSum_append,
    Tree.isNamed, Tree.isDecision_node_iff, Tree.decisionKinds]

theorem classMetrics?_programTree (joints : List Joint) :
    (programTree joints).classMetrics? =
      some ⟨"Generated", [⟨"run", 1, 1, 1 + ((bodyTree joints).withRole .body).decisions⟩]⟩ :=
  rfl

/-- The class has one method of one statement, whose complexity is one more than the number of
operators that may leave out their right operand. -/
theorem measure_chain_source (joints : List Joint) :
    measure? (source joints) =
      some ⟨"Generated", [⟨"run", 1, 1,
        1 + (joints.countP (·.sign = .and) + joints.countP (·.sign = .or))⟩]⟩ := by
  have tree : Tree.parse? (source joints) = some (programTree joints) := by
    rw [Tree.parse?, scan?_source]
    exact tree?_tokens joints
  rw [measure?, tree, Option.bind_some, classMetrics?_programTree, decisions_bodyTree,
    childSum_pieces]

end Coupling.Java.Chain
