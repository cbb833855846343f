import Coupling.Java.Tree

/-!
# Tokens of Java sources

A source file is a sequence of tokens with blanks and comments between them. A token keeps what
stands before it, so the tokens together give back the source text.

A string may hold expressions. Such a string is cut at them into several tokens: one up to the first
expression, one between two expressions, and one from the last expression on.
-/

namespace Coupling.Java

/-- What stands between two tokens. -/
inductive Trivia where
  /-- A run of blanks. -/
  | blank (text : String)
  | comment (style : CommentStyle) (text : String)
deriving DecidableEq, Repr

/-- The text of what stands between two tokens. -/
def Trivia.text : Trivia → String
  | .blank text => text
  | .comment _ text => text

/-- The comments among what stands between two tokens. -/
def Trivia.comments (trivia : List Trivia) : List Tree :=
  trivia.filterMap fun
    | .blank _ => none
    | .comment style text => some (.comment style text)

/-- The shape of a token. -/
inductive Shape where
  /-- A name or a keyword. -/
  | word
  | number
  /-- A character or a string without expressions. -/
  | quoted
  /-- A string up to its first expression. -/
  | stringStart
  /-- A string between two expressions. -/
  | stringMiddle
  /-- A string from its last expression on. -/
  | stringEnd
  /-- An operator or a sign of punctuation. -/
  | mark
deriving DecidableEq, Repr

structure Token where
  /-- What stands before the token. -/
  before : List Trivia
  /-- The shape of the token. -/
  shape : Shape
  /-- The text of the token. -/
  text : String
deriving DecidableEq, Repr

namespace Token

/-- The text of the token with what stands before it. -/
def fullText (token : Token) : String :=
  String.join (token.before.map Trivia.text) ++ token.text

/-- The token follows the one before without anything between them. -/
def isAdjacent (token : Token) : Bool :=
  token.before.isEmpty

/-- The token opens a bracket, or a string that holds expressions. -/
def opens (token : Token) : Bool :=
  token.shape == .stringStart ||
    (token.shape == .mark && (token.text == "(" || token.text == "[" || token.text == "\x7b"))

/-- The token closes what a token opened. -/
def closes (token : Token) : Bool :=
  token.shape == .stringEnd ||
    (token.shape == .mark && (token.text == ")" || token.text == "]" || token.text == "\x7d"))

end Token

/-- The tokens of a source file and what stands after the last. -/
structure Tokens where
  tokens : List Token
  /-- What stands after the last token. -/
  trailing : List Trivia
deriving DecidableEq, Repr

end Coupling.Java
