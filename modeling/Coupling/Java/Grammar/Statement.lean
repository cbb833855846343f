import Coupling.Java.Grammar.Declaration

/-!
# Statements

Besides statements proper, a block and a source file may hold declarations of every kind.
-/

namespace Coupling.Java.Grammar

open Reader

/-- The head of a loop that counts: where it starts, when it goes on, and what it does each time. -/
def countingHead (grammar : Grammar) (modifiers : Pieces) : Reader Pieces := do
  let expressions := grammar.separated "," (grammar.parse (.expression true))
  let tokens ← get
  inOrder
    [if !modifiers.isEmpty || startsDeclaration grammar.bound tokens then
       grammar.variableDeclaration .localVariableDeclaration modifiers
     else inOrder [optionally (fun tokens => !nextIs ";" tokens) [expressions], mark ";"],
     optionally (fun tokens => !nextIs ";" tokens) [grammar.parse (.expression true)],
     mark ";",
     optionally (fun tokens => !nextIs ")" tokens) [expressions]]

/-- A loop that counts, or goes over a collection. -/
def forStatement (grammar : Grammar) : Reader Pieces := do
  let opening ← inOrder [mark "for", mark "("]
  let modifiers ← grammar.modifiers
  if startsIteration grammar.bound (← get) then
    node .enhancedForStatement
      [pure (opening ++ modifiers), grammar.parse (.type true), inRole .name word,
       grammar.dimensions, mark ":", grammar.parse (.expression true), mark ")", grammar.parse .statement]
  else
    node .forStatement
      [pure opening, grammar.countingHead modifiers, mark ")", grammar.parse .statement]

/-- A resource that is closed in the end. -/
def resource (grammar : Grammar) : Reader Pieces := do
  let modifiers ← grammar.modifiers
  if startsDeclaration grammar.bound (← get) then
    node .resource
      [pure modifiers, grammar.parse (.type true), inRole .name word, grammar.dimensions, mark "=",
       grammar.parse (.expression true)]
  else node .resource [pure modifiers, grammar.parse (.expression true)]

def resources (grammar : Grammar) : Reader Pieces :=
  node .resources
    [mark "(",
     grammar.manyUntil ")"
       (inOrder [grammar.resource, optionally (fun tokens => !nextIs ")" tokens) [mark ";"]]),
     mark ")"]

/-- What is done about an exception. -/
def catchClause (grammar : Grammar) : Reader Pieces :=
  node .catchClause
    [mark "catch", mark "(", grammar.modifiers, grammar.separated "|" (grammar.parse (.type true)),
     inRole .name word, grammar.dimensions, mark ")", inRole .body grammar.block]

/-- A statement that handles exceptions. -/
def tryStatement (grammar : Grammar) : Reader Pieces :=
  node .tryStatement
    [mark "try", optionally (nextIs "(") [grammar.resources], inRole .body grammar.block,
     grammar.many (nextIs "catch") grammar.catchClause,
     optionally (nextIs "finally") [node .finallyClause [mark "finally", grammar.block]]]

/-- The name of a package as it is written, with all that stands between its parts. -/
def packageName : Reader Pieces := fun tokens =>
  match tokens.takeWhile fun token => token.text != ";" with
  | [] => none
  | first :: others =>
    some (Trivia.comments first.before ++
        [.word .name (String.join (first.text :: others.map Token.fullText))],
      tokens.dropWhile fun token => token.text != ";")

def moduleDeclaration (grammar : Grammar) (start : Pieces) : Reader Pieces :=
  node .moduleDeclaration
    [pure start, grammar.manyUntil "\x7b" anyMark, mark "\x7b", grammar.manyUntil "\x7d" anyMark,
     mark "\x7d"]

/-- The next tokens start a module. -/
def startsModule (tokens : List Token) : Bool :=
  (nextIs "module" tokens && nextIsWord tokens.tail && !secondIs "instanceof" tokens) ||
    (nextIs "open" tokens && secondIs "module" tokens)

/-- The next tokens give the value of a switch, rather than use the name `yield`. -/
def startsYield (tokens : List Token) : Bool :=
  match tokens with
  | [] => false
  | token :: rest =>
    token.text == "yield" &&
    match rest with
    | [] => false
    | next :: after =>
      if next.text == "(" then
        let closesCall := (afterGroup? 0 rest).any fun following => nextIsOneOf [";", "."] following
        !(nextIs ")" after && closesCall) &&
          !(closesCall && (after.takeWhile fun inner => inner.text != ")").any fun inner =>
            inner.text == ",")
      else if next.text == "++" || next.text == "--" then !nextIs ";" after
      else if next.shape == .mark then ["+", "-", "!", "~"].contains next.text
      else next.text != "instanceof"

/-- The next tokens declare a variable. -/
def startsVariable (bound : Nat) (tokens : List Token) : Bool :=
  !nextIs "new" tokens && startsDeclaration bound tokens

/-- A declaration whose modifiers are given, if the tokens that come next start one. -/
def declaration? (grammar : Grammar) (modifiers : Pieces) (tokens : List Token) :
    Option (Reader Pieces) :=
  match grammar.typeDeclaration? modifiers tokens with
  | some reader => some reader
  | none =>
    if nextIs "package" tokens then
      some (node .packageDeclaration [pure modifiers, mark "package", packageName, mark ";"])
    else if startsModule tokens then some (grammar.moduleDeclaration modifiers)
    else if nextIs "<" tokens && !modifiers.isEmpty || startsMethod grammar.bound tokens &&
        !nextIs "new" tokens then
      some do
        let typeParameters ← inOrder [grammar.optionalTypeParameters, grammar.annotations]
        grammar.method (modifiers ++ typeParameters)
    else if startsVariable grammar.bound tokens then
      some (grammar.variableDeclaration .localVariableDeclaration modifiers)
    else none

/-- A statement that a keyword starts, if the next token is one. -/
def keywordStatement? (grammar : Grammar) (tokens : List Token) : Option (Reader Pieces) :=
  let expression := grammar.parse (.expression true)
  let optionalExpression := optionally (fun tokens => !nextIs ";" tokens) [expression]
  match (tokens.head?.map Token.text).getD "" with
  | "\x7b" => some grammar.block
  | ";" => some (mark ";")
  | "if" =>
    some (node .ifStatement
      [mark "if", grammar.condition, grammar.parse .statement,
       optionally (nextIs "else") [mark "else", grammar.parse .statement]])
  | "while" =>
    some (node .whileStatement [mark "while", grammar.condition, grammar.parse .statement])
  | "for" => some grammar.forStatement
  | "do" =>
    some (node .doStatement
      [mark "do", grammar.parse .statement, mark "while", grammar.condition, mark ";"])
  | "switch" => some grammar.switchExpression
  | "try" => some grammar.tryStatement
  | "return" => some (node .returnStatement [mark "return", optionalExpression, mark ";"])
  | "throw" => some (node .throwStatement [mark "throw", expression, mark ";"])
  | "break" => some (node .breakStatement [mark "break", optionalExpression, mark ";"])
  | "continue" => some (node .continueStatement [mark "continue", optionalExpression, mark ";"])
  | "assert" =>
    some (node .assertStatement
      [mark "assert", expression, optionally (nextIs ":") [mark ":", expression], mark ";"])
  | "synchronized" =>
    if secondIs "(" tokens then
      some (node .synchronizedStatement
        [mark "synchronized", grammar.condition, inRole .body grammar.block])
    else none
  | "import" =>
    some (node .importDeclaration [mark "import", grammar.manyUntil ";" anyMark, mark ";"])
  | "yield" =>
    if startsYield tokens then some (node .yieldStatement [mark "yield", expression, mark ";"])
    else none
  | _ => none

def statement (grammar : Grammar) : Reader Pieces := do
  let tokens ← get
  match grammar.keywordStatement? tokens with
  | some reader => reader
  | none =>
    if nextIsWord tokens && secondIs ":" tokens then
      node .labeledStatement [word, mark ":", grammar.parse .statement]
    else
      let modifiers ← grammar.modifiers
      match grammar.declaration? modifiers (← get) with
      | some reader => reader
      | none =>
        if modifiers.isEmpty then
          node .expressionStatement [grammar.parse (.expression true), mark ";"]
        else failure

end Coupling.Java.Grammar
