import Coupling.Java.Grammar.Statement
import Coupling.Java.Token.Scanner

/-!
# Reading Java sources

A source file is a sequence of statements, among which its types are declared.

Only well-formed sources are read. A source with a syntax error has no tree: errors are not
recovered from, so nothing is said about what could be made of the rest of such a source.
-/

namespace Coupling.Java

namespace Grammar

/-- The rule of each goal, in terms of a grammar for what the goal holds. -/
def rule (grammar : Grammar) : Goal → Reader Pieces
  | .expression allowsArrow => grammar.expression allowsArrow
  | .operand allowsArrow => grammar.operand allowsArrow
  | .type allowsDimensions => grammar.typeUse allowsDimensions
  | .pattern => grammar.pattern
  | .elementValue => grammar.elementValue
  | .initializer => grammar.initializer
  | .statement => grammar.statement
  | .member => grammar.member

/-- Reads a goal in which goals are nested up to a depth. -/
def parse? : (depth : Nat) → Goal → Reader Pieces
  | 0, _ => failure
  | depth + 1, goal => rule ⟨depth, parse? depth⟩ goal

end Grammar

/-- Goals are nested at most this deep in a text of so many tokens: few goals start at one token. -/
def depthBound (tokenCount : Nat) : Nat :=
  16 * (tokenCount + 1)

/-- The tree of a sequence of tokens. -/
def Tokens.tree? (source : Tokens) : Option Tree :=
  let depth := depthBound source.tokens.length
  let grammar : Grammar := ⟨depth, Grammar.parse? depth⟩
  match grammar.many (fun tokens => !tokens.isEmpty) (grammar.parse .statement) source.tokens with
  | some (pieces, _) => some (.node .plain .program (pieces ++ Trivia.comments source.trailing))
  | none => none

/-- The tree of a source text. -/
def Tree.parse? (source : String) : Option Tree :=
  (Tokens.scan? source).bind Tokens.tree?

end Coupling.Java
