import Coupling.Json.Basic

/-!
# Writing JSON

Two layouts: compact, without any blanks, and pretty, with one item a line, indented by two spaces
a level. Strings escape what they must and keep every other character as it is.
-/

namespace Coupling.Json

/-- The lower-case hexadecimal digit of a number below sixteen. -/
def hexDigit (value : Nat) : Char :=
  Nat.digitChar value

/-- A character as it is written inside a string. -/
def escapeChar (c : Char) : List Char :=
  if c = '"' then ['\\', '"']
  else if c = '\\' then ['\\', '\\']
  else if c = '\x08' then ['\\', 'b']
  else if c = '\t' then ['\\', 't']
  else if c = '\n' then ['\\', 'n']
  else if c = '\x0c' then ['\\', 'f']
  else if c = '\r' then ['\\', 'r']
  else if c.toNat < 32 then
    ['\\', 'u', '0', '0', hexDigit (c.toNat / 16), hexDigit (c.toNat % 16)]
  else [c]

/-- A string literal. -/
def quote (content : Json.Text) : List Char :=
  '"' :: ((content.getD "").toList.flatMap escapeChar ++ ['"'])

mutual

/-- A value without blanks. -/
def compactChars : Json → List Char
  | .null => ['n', 'u', 'l', 'l']
  | .bool true => ['t', 'r', 'u', 'e']
  | .bool false => ['f', 'a', 'l', 's', 'e']
  | .number literal => literal.toList
  | .string content => quote content
  | .array items => '[' :: (compactItems items ++ [']'])
  | .object members => '\x7b' :: (compactMembers members ++ ['\x7d'])
  termination_by structural value => value

/-- The items of an array, separated by commas. -/
def compactItems : List Json → List Char
  | [] => []
  | [item] => compactChars item
  | item :: next :: rest => compactChars item ++ ',' :: compactItems (next :: rest)
  termination_by structural items => items

/-- The members of an object, separated by commas. -/
def compactMembers : List (Json.Text × Json) → List Char
  | [] => []
  | [(key, value)] => quote key ++ ':' :: compactChars value
  | (key, value) :: next :: rest =>
    quote key ++ ':' :: (compactChars value ++ ',' :: compactMembers (next :: rest))
  termination_by structural members => members

end

/-- A line break followed by the indentation of a level. -/
def newline (level : Nat) : List Char :=
  '\n' :: List.replicate (2 * level) ' '

mutual

/-- A value that stands at a level of indentation. -/
def prettyChars (level : Nat) : Json → List Char
  | .null => ['n', 'u', 'l', 'l']
  | .bool true => ['t', 'r', 'u', 'e']
  | .bool false => ['f', 'a', 'l', 's', 'e']
  | .number literal => literal.toList
  | .string content => quote content
  | .array [] => ['[', ']']
  | .array (item :: rest) =>
    '[' :: (prettyItems (level + 1) (item :: rest) ++ (newline level ++ [']']))
  | .object [] => ['\x7b', '\x7d']
  | .object (member :: rest) =>
    '\x7b' :: (prettyMembers (level + 1) (member :: rest) ++ (newline level ++ ['\x7d']))
  termination_by structural value => value

/-- The items of an array, each on a line of its own. -/
def prettyItems (level : Nat) : List Json → List Char
  | [] => []
  | [item] => newline level ++ prettyChars level item
  | item :: next :: rest =>
    newline level ++ (prettyChars level item ++ ',' :: prettyItems level (next :: rest))
  termination_by structural items => items

/-- The members of an object, each on a line of its own. -/
def prettyMembers (level : Nat) : List (Json.Text × Json) → List Char
  | [] => []
  | [(key, value)] => newline level ++ (quote key ++ ':' :: ' ' :: prettyChars level value)
  | (key, value) :: next :: rest =>
    newline level ++ (quote key ++ ':' :: ' ' :: (prettyChars level value ++
      ',' :: prettyMembers level (next :: rest)))
  termination_by structural members => members

end

/-- The text of a value without blanks. -/
def compact (value : Json) : String :=
  String.ofList value.compactChars

/-- The text of a value with one item a line. -/
def pretty (value : Json) : String :=
  String.ofList (value.prettyChars 0)

/-- The text of a value in one of the two layouts. -/
def format (compactLayout : Bool) (value : Json) : String :=
  if compactLayout then value.compact else value.pretty

end Coupling.Json
