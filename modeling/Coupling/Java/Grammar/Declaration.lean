import Coupling.Java.Grammar.Expression

/-!
# Declarations

Declarations of types and their members. Each rule gets what was read before it was known what is
declared: the modifiers, and for a member also its type parameters.
-/

namespace Coupling.Java.Grammar

open Reader

/-- A variable with the value it starts with. -/
def variableDeclarator (grammar : Grammar) : Reader Pieces :=
  node .variableDeclarator
    [inRole .name word, grammar.dimensions,
     optionally (nextIs "=") [mark "=", grammar.parse .initializer]]

/-- A declaration of variables of one type. -/
def variableDeclaration (grammar : Grammar) (kind : Kind) (start : Pieces) : Reader Pieces :=
  node kind
    [pure start, grammar.parse (.type true), grammar.separated "," grammar.variableDeclarator,
     mark ";"]

/-- The exceptions that a method throws. -/
def throwsClause (grammar : Grammar) : Reader Pieces :=
  optionally (nextIs "throws")
    [node .throws [mark "throws", grammar.separated "," (grammar.parse (.type true))]]

/-- The body of a method, or the mark that it has none. -/
def methodBody (grammar : Grammar) : Reader Pieces := do
  if nextIs ";" (← get) then mark ";" else inRole .body grammar.block

/-- A method. An element of an annotation type may have a default. -/
def method (grammar : Grammar) (start : Pieces) : Reader Pieces :=
  node .methodDeclaration
    [pure start, grammar.parse (.type true), inRole .name word,
     inRole .parameters grammar.parameters, grammar.dimensions, grammar.throwsClause,
     optionally (nextIs "default") [mark "default", grammar.parse .elementValue],
     grammar.methodBody]

def constructor (grammar : Grammar) (start : Pieces) : Reader Pieces :=
  node .constructorDeclaration
    [pure start, inRole .name word, inRole .parameters grammar.parameters, grammar.throwsClause,
     inRole .body grammar.block]

/-- The types that a type extends, implements or permits. -/
def heritage (grammar : Grammar) : Reader Pieces :=
  grammar.many (nextIsOneOf ["extends", "implements", "permits"])
    (node .heritage [anyMark, grammar.separated "," (grammar.parse (.type true))])

/-- The type parameters that come next, if any. -/
def optionalTypeParameters (grammar : Grammar) : Reader Pieces :=
  optionally (nextIs "<") [grammar.typeParameters]

/-- A class or interface. -/
def classLike (grammar : Grammar) (kind : Kind) (start : Pieces) : Reader Pieces :=
  node kind
    [pure start, anyMark, inRole .name word, grammar.optionalTypeParameters, grammar.heritage,
     inRole .body grammar.classBody]

def record (grammar : Grammar) (start : Pieces) : Reader Pieces :=
  node .recordDeclaration
    [pure start, mark "record", inRole .name word, grammar.optionalTypeParameters,
     inRole .parameters grammar.parameters, grammar.heritage, inRole .body grammar.classBody]

def annotationType (grammar : Grammar) (start : Pieces) : Reader Pieces :=
  node .annotationDeclaration
    [pure start, mark "@", mark "interface", inRole .name word, inRole .body grammar.classBody]

def enumConstant (grammar : Grammar) : Reader Pieces :=
  node .enumConstant
    [grammar.modifiers, inRole .name word, optionally (nextIs "(") [grammar.arguments],
     optionally (nextIs "\x7b") [inRole .body grammar.classBody]]

/-- The body of an enum: its constants, and after a semicolon its members. -/
def enumBody (grammar : Grammar) : Reader Pieces :=
  node .enumBody
    [mark "\x7b",
     grammar.many (fun tokens => !nextIsOneOf [";", "\x7d", ","] tokens)
       (inOrder
         [grammar.enumConstant,
          optionally (fun tokens => !nextIsOneOf [";", "\x7d"] tokens) [mark ","]]),
     optionally (nextIs ",") [mark ","],
     optionally (nextIs ";")
       [node .enumBodyDeclarations
         [mark ";", grammar.manyUntil "\x7d" (grammar.parse .member)]],
     mark "\x7d"]

def enumType (grammar : Grammar) (start : Pieces) : Reader Pieces :=
  node .enumDeclaration
    [pure start, mark "enum", inRole .name word, grammar.heritage, inRole .body grammar.enumBody]

/-- The next tokens start a record. -/
def startsRecord (tokens : List Token) : Bool :=
  nextIs "record" tokens && nextIsWord tokens.tail && nextIsOneOf ["(", "<"] tokens.tail.tail

/-- The declaration of a type, if the tokens that come next start one. -/
def typeDeclaration? (grammar : Grammar) (start : Pieces) (tokens : List Token) :
    Option (Reader Pieces) :=
  if nextIs "class" tokens then some (grammar.classLike .classDeclaration start)
  else if nextIs "interface" tokens then some (grammar.classLike .interfaceDeclaration start)
  else if nextIs "enum" tokens then some (grammar.enumType start)
  else if startsRecord tokens then some (grammar.record start)
  else if startsAnnotationType tokens then some (grammar.annotationType start)
  else none

def member (grammar : Grammar) : Reader Pieces := do
  let tokens ← get
  if nextIs ";" tokens then mark ";"
  else if nextIs "\x7b" tokens then grammar.block
  else if nextIs "static" tokens && secondIs "\x7b" tokens then
    node .staticInitializer [mark "static", grammar.block]
  else
    let modifiers ← grammar.modifiers
    match grammar.typeDeclaration? modifiers (← get) with
    | some reader => reader
    | none =>
      let typeParameters ← inOrder [grammar.optionalTypeParameters, grammar.annotations]
      let start := modifiers ++ typeParameters
      let tokens ← get
      if secondIs "(" tokens then grammar.constructor start
      else if secondIs "\x7b" tokens then
        node .compactConstructorDeclaration
          [pure start, inRole .name word, inRole .body grammar.block]
      else if startsMethod grammar.bound tokens then grammar.method start
      else grammar.variableDeclaration .fieldDeclaration start

end Coupling.Java.Grammar
