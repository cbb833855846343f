import Coupling.Java.Operator

/-!
# Reading a grammar

A reader takes tokens from the front and gives the children they make. A grammar knows how to read
each recursive construct, its goals; the rules for them are written in terms of a grammar for what
they hold, so that no rule refers to itself.
-/

namespace Coupling.Java

/-- Takes tokens from the front. -/
abbrev Reader := StateT (List Token) Option

/-- A construct that may hold itself. -/
inductive Goal where
  /-- An expression. Where no arrow is allowed, the expression ends before one. -/
  | expression (allowsArrow : Bool)
  /-- An operand of an expression. -/
  | operand (allowsArrow : Bool)
  /-- A type, with or without dimensions. -/
  | type (allowsDimensions : Bool)
  | pattern
  /-- A value in an annotation. -/
  | elementValue
  /-- The value that a variable or an element of an array starts with. -/
  | initializer
  | statement
  | member

/-- Reads the goals. -/
structure Grammar where
  /-- No repetition goes round more often. -/
  bound : Nat
  parse : Goal → Reader Pieces

namespace Reader

/-- Takes the next token as a leaf. -/
def leaf (make : String → Tree) : Reader Pieces := fun tokens =>
  match tokens with
  | token :: rest => some (Trivia.comments token.before ++ [make token.text], rest)
  | [] => none

/-- Takes a mark or keyword, whichever comes. -/
def anyMark : Reader Pieces := leaf (.mark .plain)

/-- Takes the given mark or keyword. -/
def mark (text : String) : Reader Pieces := fun tokens =>
  if nextIs text tokens then anyMark tokens else none

/-- Takes a name or literal, whichever comes. -/
def anyWord : Reader Pieces := leaf (.word .plain)

/-- Takes a name. -/
def word : Reader Pieces := fun tokens =>
  if nextIsWord tokens then anyWord tokens else none

/-- Reads one after the other. -/
def inOrder : List (Reader Pieces) → Reader Pieces
  | [] => pure []
  | reader :: rest => do
    let first ← reader
    let others ← inOrder rest
    return first ++ others

/-- Reads the children of an inner node one after the other. -/
def node (kind : Kind) (readers : List (Reader Pieces)) : Reader Pieces := do
  return [.node .plain kind (← inOrder readers)]

/-- Reads what plays a part. -/
def inRole (role : Role) (reader : Reader Pieces) : Reader Pieces := do
  return (← reader).map (Tree.withRole role)

/-- Reads one after the other if the tokens that come next allow it. -/
def optionally (allows : List Token → Bool) (readers : List (Reader Pieces)) : Reader Pieces := do
  if allows (← get) then inOrder readers else return []

/-- Reads as long as the tokens that come next allow it. What was read is given latest first. -/
def manyFrom (allows : List Token → Bool) (reader : Reader Pieces) :
    (bound : Nat) → (found : List Pieces) → Reader Pieces
  | 0, _ => failure
  | bound + 1, found => do
    if allows (← get) then
      let pieces ← reader
      manyFrom allows reader bound (pieces :: found)
    else return found.reverse.flatten

end Reader

namespace Grammar

open Reader

/-- Reads as long as the tokens that come next allow it. -/
def many (grammar : Grammar) (allows : List Token → Bool) (reader : Reader Pieces) :
    Reader Pieces :=
  manyFrom allows reader grammar.bound []

/-- Reads as long as another mark does not come next. -/
def manyUntil (grammar : Grammar) (stop : String) (reader : Reader Pieces) : Reader Pieces :=
  grammar.many (fun tokens => !nextIs stop tokens) reader

/-- Reads one or several, between which there is a mark. -/
def separated (grammar : Grammar) (between : String) (reader : Reader Pieces) : Reader Pieces :=
  inOrder [reader, grammar.many (nextIs between) (inOrder [mark between, reader])]

/-- Reads none or several between brackets, with a comma between two. A comma may follow the last,
or stand alone. -/
def listed (grammar : Grammar) (opening closing : String) (reader : Reader Pieces) :
    Reader Pieces :=
  inOrder
    [mark opening,
     optionally (fun tokens => nextIs "," tokens && secondIs closing tokens) [mark ","],
     grammar.manyUntil closing
       (inOrder [reader, optionally (fun tokens => !nextIs closing tokens) [mark ","]]),
     mark closing]

end Grammar

end Coupling.Java
