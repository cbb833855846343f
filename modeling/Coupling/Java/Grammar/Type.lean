import Coupling.Java.Grammar.Basic

/-!
# Annotations, modifiers and types
-/

namespace Coupling.Java.Grammar

open Reader

/-- A name with dots. -/
def qualifiedName (grammar : Grammar) : Reader Pieces :=
  grammar.separated "." word

def annotationArgument (grammar : Grammar) : Reader Pieces := do
  let tokens ← get
  if nextIsWord tokens && secondIs "=" tokens then
    node .elementValuePair [word, mark "=", grammar.parse .elementValue]
  else grammar.parse .elementValue

/-- An annotation with its arguments. -/
def annotationUse (grammar : Grammar) : Reader Pieces :=
  node .annotationUse
    [mark "@", grammar.qualifiedName,
     optionally (nextIs "(") [grammar.listed "(" ")" grammar.annotationArgument]]

/-- The annotations that come next. -/
def annotations (grammar : Grammar) : Reader Pieces :=
  grammar.many (fun tokens => nextIs "@" tokens && !startsAnnotationType tokens)
    grammar.annotationUse

/-- A value in an annotation. -/
def elementValue (grammar : Grammar) : Reader Pieces := do
  let tokens ← get
  if nextIs "\x7b" tokens then
    node .elementValueArray [grammar.listed "\x7b" "\x7d" (grammar.parse .elementValue)]
  else if nextIs "@" tokens then grammar.annotationUse
  else grammar.parse (.expression true)

def modifier (grammar : Grammar) : Reader Pieces := do
  let tokens ← get
  if nextIs "@" tokens then grammar.annotationUse
  else if nextIs "non" tokens then inOrder [anyMark, anyMark, anyMark]
  else anyMark

/-- The modifiers that come next, if any. -/
def modifiers (grammar : Grammar) : Reader Pieces :=
  optionally startsModifier [node .modifiers [grammar.many startsModifier grammar.modifier]]

def typeArgument (grammar : Grammar) : Reader Pieces := do
  if nextIs "?" (afterAnnotations .outside (← get)) then
    node .wildcard
      [grammar.annotations, mark "?",
       optionally (nextIsOneOf ["extends", "super"]) [anyMark, grammar.parse (.type true)]]
  else grammar.parse (.type true)

def typeArguments (grammar : Grammar) : Reader Pieces :=
  node .typeArguments [grammar.listed "<" ">" grammar.typeArgument]

/-- The dimensions that come next. -/
def dimensions (grammar : Grammar) : Reader Pieces :=
  optionally (fun tokens => (afterDimension? tokens).isSome)
    [node .dimensions
      [grammar.many (fun tokens => (afterDimension? tokens).isSome)
        (inOrder [grammar.annotations, mark "[", mark "]"])]]

/-- A simple name with type arguments. -/
def typeName (grammar : Grammar) : Reader Pieces :=
  inOrder [grammar.annotations, word, optionally (nextIs "<") [grammar.typeArguments]]

def typeUse (grammar : Grammar) (allowsDimensions : Bool) : Reader Pieces :=
  node .type
    [grammar.typeName,
     grammar.many (fun tokens => nextIs "." tokens && continuesName tokens.tail)
       (inOrder [mark ".", grammar.typeName]),
     optionally (fun _ => allowsDimensions) [grammar.dimensions]]

/-- A type parameter with its bounds. -/
def typeParameter (grammar : Grammar) : Reader Pieces :=
  node .typeParameter
    [grammar.annotations, word,
     optionally (nextIs "extends")
       [mark "extends", grammar.separated "&" (grammar.parse (.type true))]]

def typeParameters (grammar : Grammar) : Reader Pieces :=
  node .typeParameters [grammar.listed "<" ">" grammar.typeParameter]

/-- What a parameter without a type, as of a lambda, is followed by. -/
def isInferredParameter (tokens : List Token) : Bool :=
  nextIsWord tokens && (secondIs "," tokens || secondIs ")" tokens)

/-- A parameter. A receiver is told from a parameter, but one with modifiers is read as a parameter
of the name `this`. -/
def parameter (grammar : Grammar) : Reader Pieces := do
  if isInferredParameter (← get) then node .inferredParameter [inRole .name word]
  else
    let modifiers ← grammar.modifiers
    let type ← grammar.parse (.type true)
    let tokens ← get
    let start : Reader Pieces := pure (modifiers ++ type)
    if nextIs "..." (afterAnnotations .outside tokens) then
      node .spreadParameter
        [start, grammar.annotations, mark "...", grammar.annotations, inRole .name word,
         grammar.dimensions]
    else if nextIs "this" tokens && modifiers.isEmpty then
      node .receiverParameter [start, word]
    else if secondIs "." tokens then node .receiverParameter [start, grammar.qualifiedName]
    else node .formalParameter [start, inRole .name word, grammar.dimensions]

def parameters (grammar : Grammar) : Reader Pieces :=
  node .formalParameters [grammar.listed "(" ")" grammar.parameter]

/-- What a pattern inside another is: an underscore stands for anything. -/
def patternComponent (grammar : Grammar) : Reader Pieces := do
  let tokens ← get
  if nextIs "_" tokens && (secondIs "," tokens || secondIs ")" tokens) then word
  else grammar.parse .pattern

/-- A pattern: the name of a type with a variable, or with a pattern for each component. -/
def pattern (grammar : Grammar) : Reader Pieces := do
  let modifiers ← grammar.modifiers
  let type ← grammar.parse (.type true)
  let start : Reader Pieces := pure (modifiers ++ type)
  if nextIs "(" (← get) then
    node .recordPattern [start, grammar.listed "(" ")" grammar.patternComponent]
  else node .typePattern [start, word]

end Coupling.Java.Grammar
