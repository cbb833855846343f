import Coupling.Java.Token

/-!
# Scanning Java sources

The tokens of a source text, each as long as it can be. Only the sign `>` is always a token of its
own, because two of them may close two lists of type arguments as well as shift a number; whoever
reads an operator joins them.
-/

namespace Coupling.Java.Scanner

def isBlank (c : Char) : Bool :=
  let code := c.toNat
  (0x09 ≤ code && code ≤ 0x0d) || code == 0x20 || code == 0x85 || code == 0xa0 || code == 0x1680 ||
    (0x2000 ≤ code && code ≤ 0x200a) || code == 0x2028 || code == 0x2029 || code == 0x202f ||
    code == 0x205f || code == 0x3000

/-- A character that a name may start with. Beyond ASCII, every character that is no blank may. -/
def startsWord (c : Char) : Bool :=
  c.isAlpha || c == '_' || c == '$' || (127 < c.toNat && !isBlank c)

/-- A character of a name. -/
def continuesWord (c : Char) : Bool :=
  c.isDigit || startsWord c

/-- The marks of several characters that are no other mark followed by more, longest first. -/
def longMarks : List (List Char) :=
  ["...", "<<=", "->", "::", "++", "--", "&&", "||", "==", "!=", "<=", "+=", "-=", "*=", "/=", "&=",
   "|=", "^=", "%=", "<<"].map String.toList

/-- The marks of one character. -/
def shortMarks : List Char :=
  "()\x7b\x7d[];,.@=<>!~?:+-*/&|^%".toList

/-- The mark that a text starts with. -/
def mark? (text : List Char) : Option (List Char) :=
  match longMarks.find? fun mark => mark.isPrefixOf text with
  | some mark => some mark
  | none =>
    match text with
    | c :: _ => if shortMarks.contains c then some [c] else none
    | [] => none

/-- The characters of a number, latest first, and what follows it. A sign belongs to the number
right after the letter of an exponent. -/
def number (isHex hasPoint : Bool) (found : List Char) : List Char → List Char × List Char
  | [] => (found, [])
  | c :: rest =>
    let afterExponent :=
      match found with
      | latest :: _ =>
        latest == 'p' || latest == 'P' || (!isHex && (latest == 'e' || latest == 'E'))
      | [] => false
    if c.isAlphanum || c == '_' then number isHex hasPoint (c :: found) rest
    else if c == '.' && !hasPoint then number isHex true (c :: found) rest
    else if (c == '+' || c == '-') && afterExponent then number isHex hasPoint (c :: found) rest
    else (found, c :: rest)

/-- Where the text of a string stops. -/
inductive Stop where
  /-- At its end. -/
  | closed
  /-- At an expression. -/
  | hole

/-- The characters of a string up to its end or its next expression, latest first, and what follows.
`isBlock` says that three marks end the string. -/
def string? (isBlock escaped : Bool) (found : List Char) :
    List Char → Option (Stop × List Char × List Char)
  | [] => none
  | c :: rest =>
    if escaped then
      if c == '\x7b' then some (.hole, c :: found, rest)
      else string? isBlock false (c :: found) rest
    else if c == '\\' then string? isBlock true (c :: found) rest
    else if c == '"' then
      if isBlock then
        match rest with
        | '"' :: '"' :: after => some (.closed, '"' :: '"' :: '"' :: found, after)
        | _ => string? isBlock false (c :: found) rest
      else some (.closed, c :: found, rest)
    else string? isBlock false (c :: found) rest

/-- The characters of a character literal, latest first, and what follows it. -/
def character? (escaped : Bool) (found : List Char) : List Char → Option (List Char × List Char)
  | [] => none
  | c :: rest =>
    if escaped then character? false (c :: found) rest
    else if c == '\\' then character? true (c :: found) rest
    else if c == '\x27' then some (c :: found, rest)
    else character? false (c :: found) rest

/-- The characters of a comment between marks, latest first, and what follows it. -/
def blockComment? (found : List Char) : List Char → Option (List Char × List Char)
  | [] => none
  | '*' :: '/' :: rest => some ('/' :: '*' :: found, rest)
  | c :: rest => blockComment? (c :: found) rest

/-- The strings whose expressions are being scanned, innermost first: whether three marks end the
string, and how many braces are open in its expression. -/
abbrev Holes := List (Bool × Nat)

/-- What the scanner has found. -/
structure State where
  /-- The strings whose expressions are being scanned. -/
  holes : Holes
  /-- What stands before the next token, latest first. -/
  before : List Trivia
  /-- The tokens, latest first. -/
  tokens : List Token

namespace State

def addToken (state : State) (shape : Shape) (text : List Char) : State :=
  { state with
    before := []
    tokens := ⟨state.before.reverse, shape, String.ofList text⟩ :: state.tokens }

/-- Adds what stands between two tokens. -/
def addTrivia (state : State) (trivia : Trivia) : State :=
  { state with before := trivia :: state.before }

/-- Adds a mark. Braces are counted within the expression of a string. -/
def addMark (state : State) (text : List Char) : State :=
  let added := state.addToken .mark text
  match text, state.holes with
  | ['\x7b'], (isBlock, depth) :: outer => { added with holes := (isBlock, depth + 1) :: outer }
  | ['\x7d'], (isBlock, depth) :: outer => { added with holes := (isBlock, depth - 1) :: outer }
  | _, _ => added

/-- Adds what was read of a string. -/
def addString (state : State) (isBlock isStart : Bool) (stop : Stop) (text : List Char) : State :=
  match stop, isStart with
  | .closed, true => state.addToken .quoted text
  | .closed, false => state.addToken .stringEnd text
  | .hole, true =>
    let added := state.addToken .stringStart text
    { added with holes := (isBlock, 0) :: state.holes }
  | .hole, false =>
    let added := state.addToken .stringMiddle text
    { added with holes := (isBlock, 0) :: state.holes }

end State

/-- Scans the next token, or what stands before it. -/
def step? (state : State) (text : List Char) : Option (State × List Char) :=
  let closesHole := state.holes.head?.any fun hole => hole.2 == 0
  match text with
  | [] => some (state, [])
  | '/' :: '/' :: rest =>
    let comment := String.ofList ('/' :: '/' :: rest.takeWhile (· != '\n'))
    some (state.addTrivia (.comment .line comment), rest.dropWhile (· != '\n'))
  | '/' :: '*' :: rest =>
    (blockComment? ['*', '/'] rest).map fun (found, after) =>
      (state.addTrivia (.comment .block (String.ofList found.reverse)), after)
  | '"' :: '"' :: '"' :: rest =>
    (string? true false ['"', '"', '"'] rest).map fun (stop, found, after) =>
      (state.addString true true stop found.reverse, after)
  | '"' :: rest =>
    (string? false false ['"'] rest).map fun (stop, found, after) =>
      (state.addString false true stop found.reverse, after)
  | '\x27' :: rest =>
    (character? false ['\x27'] rest).map fun (found, after) =>
      (state.addToken .quoted found.reverse, after)
  | c :: rest =>
    if isBlank c then
      let blank := String.ofList (text.takeWhile isBlank)
      some (state.addTrivia (.blank blank), text.dropWhile isBlank)
    else if startsWord c then
      some (state.addToken .word (text.takeWhile continuesWord), text.dropWhile continuesWord)
    else if c.isDigit || (c == '.' && rest.head?.any Char.isDigit) then
      let isHex := c == '0' && (rest.head? == some 'x' || rest.head? == some 'X')
      let (found, after) := number isHex (c == '.') [c] rest
      some (state.addToken .number found.reverse, after)
    else if c == '\x7d' && closesHole then
      match state.holes with
      | (isBlock, _) :: outer =>
        (string? isBlock false ['\x7d'] rest).map fun (stop, found, after) =>
          (State.addString { state with holes := outer } isBlock false stop found.reverse, after)
      | [] => none
    else
      (mark? text).map fun mark => (state.addMark mark, text.drop mark.length)

/-- Scans a text. Each step takes at least one character. -/
def run? : (fuel : Nat) → State → List Char → Option State
  | _, state, [] => some state
  | 0, _, _ => none
  | fuel + 1, state, text =>
    match step? state text with
    | some (next, rest) => run? fuel next rest
    | none => none

end Scanner

/-- The tokens of a source text. A byte order mark may come first. -/
def Tokens.scan? (source : String) : Option Tokens :=
  let marked := source.toList
  let text := if marked.head? == some '\ufeff' then marked.tail else marked
  (Scanner.run? text.length ⟨[], [], []⟩ text).map fun state =>
    ⟨state.tokens.reverse, state.before.reverse⟩

end Coupling.Java
