import Coupling.Java.Token

/-!
# Looking ahead

What a construct is often shows only some tokens later: a name may start a type or an expression,
and a bracket may hold an expression, a type or parameters. These functions look ahead over a whole
type, a whole bracket or all annotations without reading what they hold.
-/

namespace Coupling.Java

/-- The next token has the text. -/
def nextIs (text : String) (tokens : List Token) : Bool :=
  tokens.head?.any fun token => token.text == text

/-- The next token has one of the texts. -/
def nextIsOneOf (texts : List String) (tokens : List Token) : Bool :=
  tokens.head?.any fun token => texts.contains token.text

/-- The token after the next has the text. -/
def secondIs (text : String) (tokens : List Token) : Bool :=
  nextIs text tokens.tail

/-- The next token is a word. -/
def nextIsWord (tokens : List Token) : Bool :=
  tokens.head?.any fun token => token.shape == .word

/-- The next token has the shape. -/
def nextHasShape (shape : Shape) (tokens : List Token) : Bool :=
  tokens.head?.any fun token => token.shape == shape

/-- The next tokens open an annotation type rather than an annotation. -/
def startsAnnotationType (tokens : List Token) : Bool :=
  nextIs "@" tokens && secondIs "interface" tokens && tokens.tail.head?.any Token.isAdjacent

/-- What follows a bracket of which `depth` levels are open. -/
def afterGroup? (depth : Nat) : List Token → Option (List Token)
  | [] => none
  | token :: rest =>
    if token.opens then afterGroup? (depth + 1) rest
    else if token.closes then if depth ≤ 1 then some rest else afterGroup? (depth - 1) rest
    else if depth == 0 then none
    else afterGroup? depth rest

/-- What is being passed over while annotations are. -/
inductive AnnotationState where
  /-- Nothing. -/
  | outside
  /-- The sign of an annotation, or a dot of its name. -/
  | sign
  /-- The name of an annotation. -/
  | name
  /-- The arguments of an annotation. -/
  | arguments (depth : Nat)

/-- What follows all annotations that come next. -/
def afterAnnotations (state : AnnotationState) (tokens : List Token) : List Token :=
  match tokens with
  | [] => []
  | token :: rest =>
    let fresh :=
      if token.text == "@" && !nextIs "interface" rest then afterAnnotations .sign rest
      else token :: rest
    match state with
    | .outside => fresh
    | .sign => afterAnnotations .name rest
    | .name =>
      if token.text == "." then afterAnnotations .sign rest
      else if token.text == "(" then afterAnnotations (.arguments 1) rest
      else fresh
    | .arguments depth =>
      if token.opens then afterAnnotations (.arguments (depth + 1)) rest
      else if token.closes then
        if depth ≤ 1 then afterAnnotations .outside rest
        else afterAnnotations (.arguments (depth - 1)) rest
      else afterAnnotations (.arguments depth) rest

/-- What is being passed over while a type is. -/
inductive TypeState where
  /-- Nothing: a type is expected. -/
  | start
  /-- A name, or the arguments of a type. -/
  | named
  /-- The dimensions of an array. -/
  | array
  /-- The question mark of a wildcard. -/
  | wildcard

/-- Words that may follow a dot and are no part of a name. -/
def isSelector (text : String) : Bool :=
  ["class", "this", "super", "new"].contains text

/-- What follows a dot continues a qualified name. -/
def continuesName (tokens : List Token) : Bool :=
  nextIs "@" tokens || tokens.head?.any fun token => token.shape == .word && !isSelector token.text

/-- What follows dimensions of an array, which may be annotated. -/
def afterDimension? (tokens : List Token) : Option (List Token) :=
  match afterAnnotations .outside tokens with
  | open_ :: close :: rest =>
    if open_.text == "[" && close.text == "]" then some rest else none
  | _ => none

/-- What follows the longest type that comes next. `depth` is the number of open lists of type
arguments. -/
def afterType? (state : TypeState) (depth : Nat) :
    (fuel : Nat) → List Token → Option (List Token)
  | 0, _ => none
  | fuel + 1, tokens =>
    let finish := if depth == 0 then some tokens else none
    match state with
    | .start =>
      match afterAnnotations .outside tokens with
      | [] => none
      | token :: rest =>
        if token.shape == .word then afterType? .named depth fuel rest
        else if token.text == "?" && 0 < depth then afterType? .wildcard depth fuel rest
        else none
    | .wildcard =>
      if nextIsOneOf ["extends", "super", ","] tokens then afterType? .start depth fuel tokens.tail
      else if nextIs ">" tokens && 0 < depth then afterType? .named (depth - 1) fuel tokens.tail
      else none
    | .named =>
      if nextIs "<" tokens then
        if secondIs ">" tokens then afterType? .named depth fuel tokens.tail.tail
        else afterType? .start (depth + 1) fuel tokens.tail
      else if nextIs "." tokens && continuesName tokens.tail then
        afterType? .start depth fuel tokens.tail
      else afterType? .array depth fuel tokens
    | .array =>
      match afterDimension? tokens with
      | some rest => afterType? .array depth fuel rest
      | none =>
        if nextIs "," tokens && 0 < depth then afterType? .start depth fuel tokens.tail
        else if nextIs ">" tokens && 0 < depth then afterType? .named (depth - 1) fuel tokens.tail
        else finish

/-- What follows types that are joined by `&`. -/
def afterTypes? (bound : Nat) : (fuel : Nat) → List Token → Option (List Token)
  | 0, _ => none
  | fuel + 1, tokens =>
    match afterType? .start 0 bound tokens with
    | none => none
    | some rest => if nextIs "&" rest then afterTypes? bound fuel rest.tail else some rest

/-- The next tokens are a type and a name, as at the start of a declaration. -/
def startsDeclaration (bound : Nat) (tokens : List Token) : Bool :=
  match afterType? .start 0 bound tokens with
  | some rest => nextIsWord rest && !nextIs "instanceof" rest
  | none => false

/-- The next tokens are a type, a name and an opening bracket, as at the start of a method. -/
def startsMethod (bound : Nat) (tokens : List Token) : Bool :=
  match afterType? .start 0 bound tokens with
  | some rest => nextIsWord rest && !nextIs "instanceof" rest && secondIs "(" rest
  | none => false

/-- What follows all dimensions that come next. -/
def afterDimensions : (fuel : Nat) → List Token → List Token
  | 0, tokens => tokens
  | fuel + 1, tokens =>
    match afterDimension? tokens with
    | some rest => afterDimensions fuel rest
    | none => tokens

/-- The next tokens are the head of a loop over a collection. -/
def startsIteration (bound : Nat) (tokens : List Token) : Bool :=
  match afterType? .start 0 bound tokens with
  | some rest => nextIsWord rest && nextIs ":" (afterDimensions bound rest.tail)
  | none => false

/-- The words that name a primitive type. -/
def primitiveTypes : List String :=
  ["byte", "short", "int", "long", "char", "float", "double", "boolean", "void"]

/-- The words that are always modifiers at the start of a declaration. -/
def modifierWords : List String :=
  ["public", "protected", "private", "abstract", "final", "strictfp", "native", "transient",
   "volatile"]

/-- The next token is a modifier. Some words are modifiers only before certain others. -/
def startsModifier (tokens : List Token) : Bool :=
  match tokens with
  | [] => false
  | token :: rest =>
    (token.text == "@" && !startsAnnotationType tokens) ||
    modifierWords.contains token.text ||
    (token.text == "static" && !nextIs "\x7b" rest) ||
    (token.text == "synchronized" && !nextIs "(" rest) ||
    (token.text == "default" && !nextIs ":" rest && !nextIs "->" rest) ||
    (token.text == "sealed" && nextIsWord rest && !nextIs "instanceof" rest) ||
    (token.text == "non" && nextIs "-" rest && secondIs "sealed" rest && nextIsWord rest.tail.tail)

/-- The next tokens can start an operand. After a type in brackets that is no primitive type, a sign
counts as an operator between two operands. `isPrimitive` says otherwise, and `allowsArrow` that the
word `when` starts no guard. -/
def startsOperand (isPrimitive allowsArrow : Bool) (tokens : List Token) : Bool :=
  match tokens with
  | [] => false
  | token :: rest =>
    match token.shape with
    | .word => token.text != "instanceof" && (allowsArrow || token.text != "when")
    | .number | .quoted | .stringStart => true
    | .stringMiddle | .stringEnd => false
    | .mark =>
      token.text == "(" || token.text == "!" || token.text == "~" ||
      (isPrimitive && ["+", "-", "++", "--"].contains token.text) ||
      ((token.text == "++" || token.text == "--") && (nextIsWord rest || nextIs "(" rest) &&
        !nextIs "instanceof" rest)

/-- The bracket that comes next holds types, and an operand follows it. -/
def startsCast (bound : Nat) (allowsArrow : Bool) (tokens : List Token) : Bool :=
  match afterTypes? bound bound tokens.tail with
  | some (close :: rest) =>
    close.text == ")" && startsOperand (nextIsOneOf primitiveTypes tokens.tail) allowsArrow rest
  | _ => false

/-- The bracket that comes next holds parameters, and the arrow of a lambda follows it. -/
def startsLambda (tokens : List Token) : Bool :=
  (afterGroup? 0 tokens).any (nextIs "->")

end Coupling.Java
