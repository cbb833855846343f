import Coupling.Java.Parser

/-!
# What readers read

A reader that succeeds gives a result and the tokens that it left. The lemmas say
so for each way of putting readers together, then for the constructs that a single
name makes, a type and an operand, and for operators.
-/

namespace Coupling.Java

/-- The reader gives the result for the tokens at the front, and leaves the rest. -/
def Reads {α : Type} (reader : Reader α) (tokens : List Token) (result : α)
    (rest : List Token) : Prop :=
  reader tokens = some (result, rest)

/-- No comment stands before the token. -/
def Token.IsBare (token : Token) : Prop :=
  Trivia.comments token.before = []

theorem nextIs_cons (text : String) (token : Token) (rest : List Token) :
    nextIs text (token :: rest) = (token.text == text) :=
  rfl

namespace Reads

open Reader

section Combinators

variable {α β : Type} {tokens middle rest : List Token}

theorem pure (result : α) (tokens : List Token) :
    Reads (Pure.pure result : Reader α) tokens result tokens :=
  rfl

theorem bind {reader : Reader α} {next : α → Reader β} {first : α} {result : β}
    (read : Reads reader tokens first middle) (others : Reads (next first) middle result rest) :
    Reads (reader >>= next) tokens result rest := by
  unfold Reads at read others ⊢
  show (reader tokens).bind _ = _
  rw [read]
  exact others

theorem get {next : List Token → Reader β} {result : β}
    (read : Reads (next tokens) tokens result rest) :
    Reads (MonadState.get >>= next) tokens result rest :=
  read

variable {reader : Reader Pieces} {readers : List (Reader Pieces)} {pieces others : Pieces}
  {allows : List Token → Bool}

theorem inOrder_nil (tokens : List Token) : Reads (inOrder []) tokens [] tokens :=
  rfl

theorem inOrder_cons (first : Reads reader tokens pieces middle)
    (second : Reads (inOrder readers) middle others rest) :
    Reads (inOrder (reader :: readers)) tokens (pieces ++ others) rest :=
  first.bind (second.bind (.pure _ _))

/-- A part that is not there leaves all tokens and pieces to the others. -/
theorem inOrder_skip (none : Reads reader tokens [] tokens)
    (second : Reads (inOrder readers) tokens others rest) :
    Reads (inOrder (reader :: readers)) tokens others rest :=
  inOrder_cons none second

theorem inOrder_singleton (read : Reads reader tokens pieces rest) :
    Reads (inOrder [reader]) tokens pieces rest := by
  simpa using inOrder_cons read (inOrder_nil rest)

theorem node {kind : Kind} (read : Reads (inOrder readers) tokens pieces rest) :
    Reads (Reader.node kind readers) tokens [.node .plain kind pieces] rest :=
  read.bind (.pure _ _)

theorem inRole {role : Role} (read : Reads reader tokens pieces rest) :
    Reads (Reader.inRole role reader) tokens (pieces.map (Tree.withRole role)) rest :=
  read.bind (.pure _ _)

theorem optionally (allowed : allows tokens = true)
    (read : Reads (inOrder readers) tokens pieces rest) :
    Reads (Reader.optionally allows readers) tokens pieces rest := by
  apply Reads.get
  rwa [if_pos allowed]

theorem optionally_none (refused : allows tokens = false) :
    Reads (Reader.optionally allows readers) tokens [] tokens := by
  apply Reads.get
  rw [if_neg (by simp [refused])]
  rfl

theorem manyFrom_stop {bound : Nat} {found : List Pieces} (refused : allows tokens = false) :
    Reads (manyFrom allows reader (bound + 1) found) tokens found.reverse.flatten tokens := by
  apply Reads.get
  rw [if_neg (by simp [refused])]
  rfl

theorem manyFrom_step {bound : Nat} {found : List Pieces} (allowed : allows tokens = true)
    (first : Reads reader tokens pieces middle)
    (more : Reads (manyFrom allows reader bound (pieces :: found)) middle others rest) :
    Reads (manyFrom allows reader (bound + 1) found) tokens others rest := by
  apply Reads.get
  rw [if_pos allowed]
  exact first.bind more

end Combinators

section Leaves

variable {token : Token} {text : String}

theorem anyMark (bare : token.IsBare) (rest : List Token) :
    Reads Reader.anyMark (token :: rest) [.mark .plain token.text] rest := by
  unfold Token.IsBare at bare
  simp [Reads, Reader.anyMark, leaf, bare]

theorem mark (bare : token.IsBare) (same : token.text = text) (rest : List Token) :
    Reads (Reader.mark text) (token :: rest) [.mark .plain text] rest := by
  have next : nextIs text (token :: rest) = true := by simp [nextIs, same]
  have read := anyMark bare rest
  rw [same] at read
  rw [Reads, Reader.mark, if_pos next]
  exact read

theorem word (bare : token.IsBare) (isWord : token.shape = .word) (rest : List Token) :
    Reads Reader.word (token :: rest) [.word .plain token.text] rest := by
  have next : nextIsWord (token :: rest) = true := by simp [nextIsWord, isWord]
  unfold Token.IsBare at bare
  simp [Reads, Reader.word, next, anyWord, leaf, bare]

end Leaves

section Grammars

variable {grammar : Grammar} {allows : List Token → Bool} {reader : Reader Pieces}
  {tokens rest : List Token} {pieces : Pieces}

theorem many_none (positive : 0 < grammar.bound) (refused : allows tokens = false) :
    Reads (grammar.many allows reader) tokens [] tokens := by
  rw [Grammar.many, ← Nat.sub_add_cancel positive]
  exact manyFrom_stop refused

theorem many_one (enough : 1 < grammar.bound) (allowed : allows tokens = true)
    (read : Reads reader tokens pieces rest) (refused : allows rest = false) :
    Reads (grammar.many allows reader) tokens pieces rest := by
  have isBound : grammar.bound = grammar.bound - 2 + 1 + 1 := by omega
  rw [Grammar.many, isBound]
  apply manyFrom_step allowed read
  have stopped : Reads (manyFrom allows reader (grammar.bound - 2 + 1) [pieces]) rest
      [pieces].reverse.flatten rest := manyFrom_stop refused
  simpa using stopped

theorem manyUntil_one {closing : Token} {stop : String} (enough : 1 < grammar.bound)
    (isStop : closing.text = stop) (present : nextIs stop tokens = false)
    (read : Reads reader tokens pieces (closing :: rest)) :
    Reads (grammar.manyUntil stop reader) tokens pieces (closing :: rest) := by
  apply many_one enough _ read
  · simp [nextIs_cons, isStop]
  · simp [present]

/-- A list between brackets that holds one part. -/
theorem listed_one {opening closing : Token} (enough : 1 < grammar.bound)
    (opening_isBare : opening.IsBare) (closing_isBare : closing.IsBare)
    (comma : nextIs "," tokens = false) (present : nextIs closing.text tokens = false)
    (read : Reads reader tokens pieces (closing :: rest)) :
    Reads (grammar.listed opening.text closing.text reader) (opening :: tokens)
      (.mark .plain opening.text :: (pieces ++ [.mark .plain closing.text])) rest := by
  have part : Reads (inOrder [reader,
      Reader.optionally (fun tokens => !nextIs closing.text tokens) [Reader.mark ","]])
      tokens pieces (closing :: rest) := by
    have last : (!nextIs closing.text (closing :: rest)) = false := by simp [nextIs_cons]
    simpa using inOrder_cons read (.inOrder_singleton (.optionally_none last))
  exact .inOrder_cons (.mark opening_isBare rfl tokens) <|
    .inOrder_skip (.optionally_none (by simp [comma])) <|
    .inOrder_cons (.manyUntil_one enough rfl present part) <|
    .inOrder_singleton (.mark closing_isBare rfl rest)

end Grammars

end Reads

theorem nextIsOneOf_eq_false {texts : List String} {tokens : List Token}
    (others : ∀ text ∈ texts, nextIs text tokens = false) : nextIsOneOf texts tokens = false := by
  cases tokens with
  | nil => rfl
  | cons token rest =>
      simp only [nextIs_cons, beq_eq_false_iff_ne] at others
      simpa [nextIsOneOf] using fun listed => others token.text listed rfl

/-- The texts that may continue a type or an operand that starts with a name. -/
def continuations : List String :=
  ["@", "<", ".", "[", "(", "::", "++", "--", "->"]

/-- The texts that start a type or an operand in another way than a name does. -/
def openings : List String :=
  ["@", "<", "(", "+", "-", "!", "~", "++", "--", "new"]

/-- What comes next cannot belong to a name that stands before it. -/
def EndsName (rest : List Token) : Prop :=
  ∀ text ∈ continuations, nextIs text rest = false

/-- The token is a name. -/
structure Token.IsName (token : Token) : Prop where
  isBare : token.IsBare
  isWord : token.shape = .word
  ordinary : token.text ∉ openings

section Names

variable {token : Token} {tokens rest : List Token}

theorem nextIs_eq_false_of_not_mem {texts : List String} (other : token.text ∉ texts)
    (rest : List Token) : ∀ text ∈ texts, nextIs text (token :: rest) = false := by
  intro text listed
  rw [nextIs_cons, beq_eq_false_iff_ne]
  rintro rfl
  exact other listed

theorem endsName_cons (other : token.text ∉ continuations) (rest : List Token) :
    EndsName (token :: rest) :=
  nextIs_eq_false_of_not_mem other rest

theorem Token.IsName.next (isName : token.IsName) (rest : List Token) :
    ∀ text ∈ openings, nextIs text (token :: rest) = false :=
  nextIs_eq_false_of_not_mem isName.ordinary rest

theorem afterAnnotations_outside (plain : nextIs "@" tokens = false) :
    afterAnnotations .outside tokens = tokens := by
  cases tokens with
  | nil => rfl
  | cons token rest =>
      rw [nextIs_cons] at plain
      simp [afterAnnotations, plain]

theorem EndsName.afterDimension? (ends : EndsName rest) : afterDimension? rest = none := by
  unfold Java.afterDimension?
  rw [afterAnnotations_outside (ends "@" (by decide))]
  split
  · next first second others =>
    have bracket := ends "[" (by decide)
    rw [nextIs_cons] at bracket
    simp [bracket]
  · rfl

theorem EndsName.afterType? (ends : EndsName rest) (isName : token.IsName) (bound : Nat) :
    afterType? .start 0 (bound + 3) (token :: rest) = some rest := by
  have start : afterAnnotations .outside (token :: rest) = token :: rest :=
    afterAnnotations_outside (isName.next rest "@" (by decide))
  simp [Java.afterType?, start, isName.isWord, ends "<" (by decide), ends "." (by decide),
    ends.afterDimension?]

variable {grammar : Grammar}

theorem reads_annotations (positive : 0 < grammar.bound) (plain : nextIs "@" tokens = false) :
    Reads grammar.annotations tokens [] tokens := by
  apply Reads.many_none positive
  simp [plain]

theorem reads_dimensions (ends : EndsName rest) : Reads grammar.dimensions rest [] rest := by
  apply Reads.optionally_none
  rw [ends.afterDimension?]
  rfl

/-- A name alone is a type. -/
theorem EndsName.reads_typeUse (ends : EndsName rest) (isName : token.IsName)
    (positive : 0 < grammar.bound) (allowsDimensions : Bool) :
    Reads (grammar.typeUse allowsDimensions) (token :: rest)
      [.node .plain .type [.word .plain token.text]] rest := by
  have dimensions : Reads (Reader.optionally (fun _ => allowsDimensions) [grammar.dimensions]) rest
      [] rest := by
    cases allowsDimensions with
    | false => exact .optionally_none rfl
    | true => exact .optionally rfl (.inOrder_singleton (reads_dimensions ends))
  have name : Reads grammar.typeName (token :: rest) [.word .plain token.text] rest :=
    .inOrder_skip (reads_annotations positive (isName.next rest "@" (by decide))) <|
    .inOrder_cons (.word isName.isBare isName.isWord rest) <|
    .inOrder_singleton (.optionally_none (ends "<" (by decide)))
  apply Reads.node
  exact .inOrder_cons name <|
    .inOrder_skip (.many_none positive (by simp [ends "." (by decide)])) <|
    .inOrder_singleton dimensions

theorem EndsName.suffix? (ends : EndsName rest) (left : Pieces) :
    grammar.suffix? left rest = none := by
  have updates : nextIsOneOf ["++", "--"] rest = false := by
    apply nextIsOneOf_eq_false
    simp [ends "++" (by decide), ends "--" (by decide)]
  simp [Grammar.suffix?, updates, ends "." (by decide), ends "(" (by decide), ends "[" (by decide),
    ends "::" (by decide)]

theorem EndsName.reads_suffixes (ends : EndsName rest) (left : Pieces) (bound : Nat) :
    Reads (grammar.suffixes (bound + 1) left) rest left rest := by
  apply Reads.get
  rw [ends.suffix?]
  rfl

theorem EndsName.reads_primary (ends : EndsName rest) (isName : token.IsName)
    (enough : 3 ≤ grammar.bound) :
    Reads grammar.primary (token :: rest) [.word .plain token.text] rest := by
  have isWord : nextIsWord (token :: rest) = true := by
    simp [nextIsWord, isName.isWord]
  have value : Grammar.startsTypeReference grammar.bound (token :: rest) = false := by
    rw [← Nat.sub_add_cancel enough, Grammar.startsTypeReference, ends.afterType? isName]
    simp [ends "::" (by decide), ends "." (by decide)]
  apply Reads.get
  simp only [isName.next rest "new" (by decide), isName.next rest "<" (by decide), isWord, value,
    Bool.false_eq_true, if_false, if_true]
  exact .word isName.isBare isName.isWord rest

/-- A name alone is an operand. -/
theorem EndsName.reads_operand (ends : EndsName rest) (isName : token.IsName)
    (enough : 3 ≤ grammar.bound) (allowsArrow : Bool) :
    Reads (grammar.operand allowsArrow) (token :: rest) [.word .plain token.text] rest := by
  have next := isName.next rest
  have signs : nextIsOneOf ["+", "-", "!", "~"] (token :: rest) = false := by
    apply nextIsOneOf_eq_false
    simp [next "+" (by decide), next "-" (by decide), next "!" (by decide), next "~" (by decide)]
  have updates : nextIsOneOf ["++", "--"] (token :: rest) = false := by
    apply nextIsOneOf_eq_false
    simp [next "++" (by decide), next "--" (by decide)]
  have call : secondIs "(" (token :: rest) = false := ends "(" (by decide)
  have arrow : secondIs "->" (token :: rest) = false := ends "->" (by decide)
  apply Reads.get
  simp only [signs, updates, call, arrow, next "(" (by decide), Bool.and_false, Bool.false_and,
    Bool.false_eq_true, if_false]
  apply (ends.reads_primary isName enough).bind
  rw [← Nat.sub_add_cancel enough]
  exact ends.reads_suffixes _ _

end Names

section Operators

variable {token : Token}

theorem Operator.width_cons (single : token.text ≠ ">") (rest : List Token) :
    Operator.width (token :: rest) = 1 := by
  simp [Operator.width, Operator.closingSigns, single]

theorem Operator.text_cons (single : token.text ≠ ">") (rest : List Token) :
    Operator.text (token :: rest) = token.text := by
  simp [Operator.text, Operator.width_cons single]

/-- Every operator without the sign `>` is one token. -/
theorem reads_operator (bare : token.IsBare) (single : token.text ≠ ">") (rest : List Token) :
    Reads Grammar.operator (token :: rest) [.mark .operator token.text] rest := by
  unfold Token.IsBare at bare
  simp [Reads, Grammar.operator, bare, Operator.text_cons single, Operator.width_cons single]

end Operators

end Coupling.Java
