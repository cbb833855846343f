import Coupling.Java.Grammar.Type

/-!
# Expressions

An expression is a chain of operands, which may be the condition of a choice or the target of an
assignment. An operand is a primary expression with what may follow it, such as a selected member or
arguments, under any number of signs and casts.
-/

namespace Coupling.Java.Grammar

open Reader

/-- An expression between brackets. -/
def condition (grammar : Grammar) : Reader Pieces :=
  node .parenthesizedExpression [mark "(", grammar.parse (.expression true), mark ")"]

def arguments (grammar : Grammar) : Reader Pieces :=
  node .argumentList [grammar.listed "(" ")" (grammar.parse (.expression true))]

def block (grammar : Grammar) : Reader Pieces :=
  node .block [mark "\x7b", grammar.manyUntil "\x7d" (grammar.parse .statement), mark "\x7d"]

def classBody (grammar : Grammar) : Reader Pieces :=
  node .classBody [mark "\x7b", grammar.manyUntil "\x7d" (grammar.parse .member), mark "\x7d"]

/-- The elements of an array. -/
def arrayInitializer (grammar : Grammar) : Reader Pieces :=
  node .arrayInitializer [grammar.listed "\x7b" "\x7d" (grammar.parse .initializer)]

/-- The value that a variable or an element of an array starts with. -/
def initializer (grammar : Grammar) : Reader Pieces := do
  if nextIs "\x7b" (← get) then grammar.arrayInitializer else grammar.parse (.expression true)

/-- A string, which may hold expressions. -/
def string (grammar : Grammar) : Reader Pieces := do
  if nextHasShape .stringStart (← get) then
    node .interpolatedString
      [anyWord, grammar.parse (.expression true),
       grammar.many (nextHasShape .stringMiddle)
         (inOrder [anyWord, grammar.parse (.expression true)]),
       fun tokens => if nextHasShape .stringEnd tokens then anyWord tokens else none]
  else if nextHasShape .quoted (← get) then anyWord
  else failure

/-- The next tokens start a label of a switch. -/
def startsLabel (tokens : List Token) : Bool :=
  nextIs "case" tokens || (nextIs "default" tokens && (secondIs ":" tokens || secondIs "->" tokens))

/-- The next tokens can be a pattern rather than an expression. The word `when` is the name of a
variable only before the end of the label. -/
def startsPattern (bound : Nat) (tokens : List Token) : Bool :=
  match afterType? .start 0 bound (afterAnnotations .outside tokens) with
  | some rest =>
    nextIs "(" rest ||
      (nextIsWord rest && !nextIs "instanceof" rest &&
        (!nextIs "when" rest || nextIsOneOf ["->", ":", ",", "when"] rest.tail))
  | none => false

/-- A constant or pattern of a label. -/
def labelItem (grammar : Grammar) : Reader Pieces := do
  if startsPattern grammar.bound (← get) then
    grammar.parse .pattern <|> grammar.parse (.expression false)
  else grammar.parse (.expression false)

def switchLabel (grammar : Grammar) : Reader Pieces := do
  if nextIs "default" (← get) then node .switchLabel [mark "default"]
  else
    node .switchLabel
      [mark "case", grammar.separated "," grammar.labelItem,
       optionally (nextIs "when") [node .guard [mark "when", grammar.parse (.expression false)]]]

/-- What follows the arrow of a rule of a switch. -/
def ruleBody (grammar : Grammar) : Reader Pieces := do
  let tokens ← get
  if nextIs "\x7b" tokens then grammar.block
  else if nextIs "throw" tokens then grammar.parse .statement
  else node .expressionStatement [grammar.parse (.expression true), mark ";"]

/-- A rule of a switch, or labels with the statements that follow them. -/
def switchPart (grammar : Grammar) : Reader Pieces := do
  let label ← grammar.switchLabel
  if nextIs "->" (← get) then node .switchRule [pure label, mark "->", grammar.ruleBody]
  else
    node .switchGroup
      [pure label, mark ":",
       grammar.many startsLabel (inOrder [grammar.switchLabel, mark ":"]),
       grammar.many (fun tokens => !startsLabel tokens && !nextIs "\x7d" tokens)
         (grammar.parse .statement)]

def switchExpression (grammar : Grammar) : Reader Pieces :=
  node .switchExpression
    [mark "switch", grammar.condition,
     node .switchBlock [mark "\x7b", grammar.manyUntil "\x7d" grammar.switchPart, mark "\x7d"]]

def lambda (grammar : Grammar) : Reader Pieces :=
  node .lambdaExpression
    [do if nextIs "(" (← get) then grammar.parameters else word,
     mark "->",
     do if nextIs "\x7b" (← get) then grammar.block else grammar.parse (.expression true)]

/-- A dimension of a new array. -/
def arrayDimension (grammar : Grammar) : Reader Pieces :=
  inOrder
    [grammar.annotations, mark "[",
     optionally (fun tokens => !nextIs "]" tokens) [grammar.parse (.expression true)],
     mark "]"]

/-- A new object or array. -/
def creation (grammar : Grammar) : Reader Pieces := do
  let start ← inOrder
    [mark "new", grammar.annotations, optionally (nextIs "<") [grammar.typeArguments],
     grammar.parse (.type false)]
  if nextIs "(" (← get) then
    node .objectCreation
      [pure start, grammar.arguments, optionally (nextIs "\x7b") [grammar.classBody]]
  else
    node .arrayCreation
      [pure start, grammar.many (nextIsOneOf ["[", "@"]) grammar.arrayDimension,
       optionally (nextIs "\x7b") [grammar.arrayInitializer]]

/-- The next tokens are a type that is referred to as such. -/
def startsTypeReference (bound : Nat) (tokens : List Token) : Bool :=
  match afterType? .start 0 bound tokens with
  | some rest => nextIs "::" rest || (nextIs "." rest && secondIs "class" rest)
  | none => false

/-- A primary expression without what may follow it. -/
def primary (grammar : Grammar) : Reader Pieces := do
  let tokens ← get
  if nextIs "new" tokens then grammar.creation
  else if nextIs "<" tokens then inOrder [grammar.typeArguments, word]
  else if nextIsWord tokens then
    if startsTypeReference grammar.bound tokens then grammar.parse (.type true) else word
  else if nextHasShape .number tokens then anyWord
  else grammar.string

/-- A member that is selected from an expression. -/
def selection (grammar : Grammar) (left : Pieces) : Reader Pieces := do
  let tokens ← get
  if nextHasShape .quoted tokens.tail || nextHasShape .stringStart tokens.tail then
    node .templateExpression [pure left, mark ".", grammar.string]
  else if secondIs "new" tokens then node .objectCreation [pure left, mark ".", grammar.creation]
  else
    node .fieldAccess
      [pure left, mark ".", optionally (nextIs "<") [grammar.typeArguments], word]

/-- What follows an expression and belongs to it, if anything does. -/
def suffix? (grammar : Grammar) (left : Pieces) (tokens : List Token) : Option (Reader Pieces) :=
  if nextIs "." tokens then some (grammar.selection left)
  else if nextIs "(" tokens then some (node .methodInvocation [pure left, grammar.arguments])
  else if nextIs "[" tokens then
    some (node .arrayAccess [pure left, mark "[", grammar.parse (.expression true), mark "]"])
  else if nextIs "::" tokens then
    some (node .methodReference
      [pure left, mark "::", optionally (nextIs "<") [grammar.typeArguments], word])
  else if nextIsOneOf ["++", "--"] tokens then some (node .updateExpression [pure left, anyMark])
  else none

/-- All that follows an expression and belongs to it. -/
def suffixes (grammar : Grammar) : (bound : Nat) → (left : Pieces) → Reader Pieces
  | 0, _ => failure
  | bound + 1, left => do
    match grammar.suffix? left (← get) with
    | none => return left
    | some reader =>
      let longer ← reader
      grammar.suffixes bound longer

def operand (grammar : Grammar) (allowsArrow : Bool) : Reader Pieces := do
  let tokens ← get
  if nextIsOneOf ["+", "-", "!", "~"] tokens then
    node .unaryExpression [inRole .operator anyMark, grammar.parse (.operand allowsArrow)]
  else if nextIsOneOf ["++", "--"] tokens then
    node .updateExpression [anyMark, grammar.parse (.operand allowsArrow)]
  else if nextIs "(" tokens then
    if allowsArrow && startsLambda tokens then grammar.lambda
    else if startsCast grammar.bound allowsArrow tokens then
      node .castExpression
        [mark "(", grammar.separated "&" (grammar.parse (.type true)), mark ")",
         grammar.parse (.operand allowsArrow)]
    else
      let inner ← grammar.condition
      grammar.suffixes grammar.bound inner
  else if nextIs "switch" tokens && secondIs "(" tokens then grammar.switchExpression
  else if nextIsWord tokens && secondIs "->" tokens && allowsArrow then grammar.lambda
  else
    let inner ← grammar.primary
    grammar.suffixes grammar.bound inner

/-- An operator, whose signs may be several tokens. -/
def operator : Reader Pieces := fun tokens =>
  match tokens with
  | [] => none
  | token :: _ =>
    some (Trivia.comments token.before ++ [.mark .operator (Operator.text tokens)],
      tokens.drop (Operator.width tokens))

/-- What an operand is tested to be an instance of. The word `when` names a variable only where no
guard can follow. -/
def instanceofTarget (grammar : Grammar) (allowsArrow : Bool) : Reader Pieces := do
  let start ← inOrder [grammar.modifiers, grammar.parse (.type true)]
  let tokens ← get
  if nextIs "(" tokens then
    node .recordPattern [pure start, grammar.listed "(" ")" grammar.patternComponent]
  else if nextIsWord tokens && !nextIs "instanceof" tokens &&
      (allowsArrow || !nextIs "when" tokens) then
    inOrder [pure start, inRole .name word]
  else return start

/-- The operators of a chain and the operands after them. What was read is given latest first. -/
def links (grammar : Grammar) (allowsArrow : Bool) :
    (bound : Nat) → (found : List Link) → Reader (List Link)
  | 0, _ => failure
  | bound + 1, found => do
    let tokens ← get
    match Operator.level? (Operator.text tokens) with
    | none => return found.reverse
    | some level =>
      if nextIs "instanceof" tokens then
        let operator ← anyMark
        let operand ← grammar.instanceofTarget allowsArrow
        grammar.links allowsArrow bound (⟨.instanceofExpression, level, operator, operand⟩ :: found)
      else
        let operator ← operator
        let operand ← grammar.parse (.operand allowsArrow)
        grammar.links allowsArrow bound (⟨.binaryExpression, level, operator, operand⟩ :: found)

def expression (grammar : Grammar) (allowsArrow : Bool) : Reader Pieces := do
  let first ← grammar.parse (.operand allowsArrow)
  let links ← grammar.links allowsArrow grammar.bound []
  let left := Link.group first links
  let tokens ← get
  if nextIs "?" tokens then
    node .ternaryExpression
      [pure left, mark "?", grammar.parse (.expression true), mark ":",
       grammar.parse (.expression allowsArrow)]
  else if Operator.isAssignment (Operator.text tokens) then
    node .assignmentExpression [pure left, operator, grammar.parse (.expression allowsArrow)]
  else return left

end Coupling.Java.Grammar
