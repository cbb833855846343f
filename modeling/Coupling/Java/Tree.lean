/-!
# Syntax trees of Java sources

A source file is a tree. Its leaves are marks (keywords, operators and punctuation), words (names
and literals) and comments; its inner nodes are of a kind. Comments may stand among the children of
any inner node and belong to none of its parts. A child that plays a distinguished part in its
parent says so by its role.
-/

namespace Coupling.Java

/-- The part that a child plays in its parent. -/
inductive Role where
  /-- No distinguished part. -/
  | plain
  /-- The name that a declaration gives. -/
  | name
  /-- The parameter list of a declaration. -/
  | parameters
  /-- The body of a declaration. -/
  | body
  /-- The operator of an expression. -/
  | operator
deriving DecidableEq, Repr

/-- The kind of an inner node. -/
inductive Kind where
  | program
  | packageDeclaration | importDeclaration | moduleDeclaration
  | classDeclaration | enumDeclaration | recordDeclaration | interfaceDeclaration
  | annotationDeclaration
  | modifiers | annotationUse | elementValuePair | elementValueArray
  | typeParameters | typeParameter | heritage | throws
  | classBody | enumBody | enumConstant | enumBodyDeclarations
  | fieldDeclaration | methodDeclaration | constructorDeclaration | compactConstructorDeclaration
  | staticInitializer
  | formalParameters | formalParameter | spreadParameter | receiverParameter | inferredParameter
  | type | typeArguments | wildcard | dimensions
  | block | localVariableDeclaration | variableDeclarator | arrayInitializer
  | expressionStatement | labeledStatement | ifStatement | whileStatement | forStatement
  | enhancedForStatement | doStatement | returnStatement | yieldStatement | throwStatement
  | breakStatement | continueStatement | assertStatement | synchronizedStatement | tryStatement
  | resources | resource | catchClause | finallyClause
  | switchExpression | switchBlock | switchGroup | switchRule | switchLabel | guard
  | typePattern | recordPattern
  | assignmentExpression | binaryExpression | instanceofExpression | lambdaExpression
  | ternaryExpression | unaryExpression | updateExpression | castExpression
  | parenthesizedExpression | objectCreation | arrayCreation | fieldAccess | arrayAccess
  | methodInvocation | methodReference | templateExpression | argumentList | interpolatedString
deriving DecidableEq, Repr

/-- How a comment is written. -/
inductive CommentStyle where
  /-- To the end of the line. -/
  | line
  /-- Between marks. -/
  | block
deriving DecidableEq, Repr

/-- A syntax tree. -/
inductive Tree where
  /-- A keyword, an operator or a sign of punctuation. -/
  | mark (role : Role) (text : String)
  /-- A name or a literal. -/
  | word (role : Role) (text : String)
  | comment (style : CommentStyle) (text : String)
  /-- An inner node. -/
  | node (role : Role) (kind : Kind) (children : List Tree)

namespace Tree

/-- The children of an inner node. -/
def children : Tree → List Tree
  | .node _ _ children => children
  | _ => []

/-- The kind of an inner node. -/
def kind? : Tree → Option Kind
  | .node _ kind _ => some kind
  | _ => none

/-- The part that a tree plays in its parent. A comment plays none. -/
def role : Tree → Role
  | .mark role _ | .word role _ | .node role _ _ => role
  | .comment _ _ => .plain

/-- The tree in a part of its parent. -/
def withRole (role : Role) : Tree → Tree
  | .mark _ text => .mark role text
  | .word _ text => .word role text
  | .comment style text => .comment style text
  | .node _ kind children => .node role kind children

/-- The text of a leaf. -/
def text : Tree → String
  | .mark _ text | .word _ text | .comment _ text => text
  | .node _ _ _ => ""

/-- Everything but a mark is named. -/
def isNamed : Tree → Bool
  | .mark _ _ => false
  | _ => true

/-- The tree is a comment. -/
def isComment : Tree → Bool
  | .comment _ _ => true
  | _ => false

/-- The tree is an inner node of a kind. -/
def isKind (kind : Kind) (tree : Tree) : Bool :=
  tree.kind? == some kind

/-- The children that are no marks. -/
def namedChildren (tree : Tree) : List Tree :=
  tree.children.filter isNamed

/-- The first child that plays a part. -/
def child? (role : Role) (tree : Tree) : Option Tree :=
  tree.children.find? fun child => child.role == role

end Tree

end Coupling.Java
