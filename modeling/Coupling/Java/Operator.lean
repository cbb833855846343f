import Coupling.Java.Lookahead

/-!
# Operators and chains of operands

A chain of operands with operators between them is read from left to right and then grouped: an
operator of a higher level takes its operands first, and operators of one level group to the left.
The grouping makes one inner node for each operator, whatever its level.
-/

namespace Coupling.Java

/-- The children that a construct gives to its parent: one tree, and comments around it. -/
abbrev Pieces := List Tree

namespace Operator

/-- How many signs `>` come next without anything between them, up to three. -/
def closingSigns : List Token → Nat
  | first :: rest =>
    if first.text == ">" then
      match rest with
      | second :: more =>
        if second.text == ">" && second.isAdjacent then
          if more.head?.any fun third => third.text == ">" && third.isAdjacent then 3 else 2
        else 1
      | [] => 1
    else 0
  | [] => 0

/-- The number of tokens that the next operator has. -/
def width (tokens : List Token) : Nat :=
  let signs := closingSigns tokens
  if signs == 0 then 1
  else
    let assigns := (tokens.drop signs).head?.any fun token => token.text == "=" && token.isAdjacent
    if assigns then signs + 1 else signs

/-- The text of the next operator. -/
def text (tokens : List Token) : String :=
  String.join ((tokens.take (width tokens)).map Token.text)

/-- The level of a binary operator, higher levels first. -/
def level? : String → Option Nat
  | "||" => some 1
  | "&&" => some 2
  | "|" => some 3
  | "^" => some 4
  | "&" => some 5
  | "==" | "!=" => some 6
  | "<" | ">" | "<=" | ">=" | "instanceof" => some 7
  | "<<" | ">>" | ">>>" => some 8
  | "+" | "-" => some 9
  | "*" | "/" | "%" => some 10
  | _ => none

/-- The operator assigns. -/
def isAssignment (operator : String) : Bool :=
  ["=", "+=", "-=", "*=", "/=", "&=", "|=", "^=", "%=", "<<=", ">>=", ">>>="].contains operator

/-- The operator evaluates its right operand only if the left one does not settle the outcome. -/
def isShortCircuit (operator : String) : Bool :=
  operator == "&&" || operator == "||"

end Operator

/-- An operator of a chain and the operand after it. -/
structure Link where
  /-- The kind of node that the operator makes. -/
  kind : Kind
  /-- The level of the operator. -/
  level : Nat
  operator : Pieces
  /-- The operand after the operator. -/
  operand : Pieces

namespace Link

/-- An operator whose right operand may still grow. -/
structure Pending where
  /-- The operand before the operator. -/
  left : Pieces
  /-- The kind of node that the operator makes. -/
  kind : Kind
  /-- The level of the operator. -/
  level : Nat
  operator : Pieces

/-- The node of an operator whose right operand is complete. -/
def Pending.close (pending : Pending) (right : Pieces) : Pieces :=
  [.node .plain pending.kind (pending.left ++ pending.operator ++ right)]

/-- Closes the operators that come before one of the given level, innermost first. -/
def closeFrom (level : Nat) (right : Pieces) : List Pending → Pieces × List Pending
  | [] => (right, [])
  | pending :: rest =>
    if level ≤ pending.level then closeFrom level (pending.close right) rest
    else (right, pending :: rest)

/-- Groups the rest of a chain. The operators to the left are still open, innermost first. -/
def groupFrom (pending : List Pending) (current : Pieces) : List Link → Pieces
  | [] => (closeFrom 0 current pending).1
  | link :: rest =>
    let (left, outer) := closeFrom link.level current pending
    groupFrom (⟨left, link.kind, link.level, link.operator⟩ :: outer) link.operand rest

/-- Groups a chain. -/
def group (first : Pieces) (links : List Link) : Pieces :=
  groupFrom [] first links

end Link

end Coupling.Java
