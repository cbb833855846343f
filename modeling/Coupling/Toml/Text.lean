/-!
# TOML strings

A string stands between single or double marks, or between three of them if it goes over several
lines. Between double marks, a backslash starts an escape. The reader goes through the characters
one by one and remembers what it is in the middle of.
-/

namespace Coupling.Toml

/-- A character may stand in a comment or a string. -/
def isPlain (c : Char) : Bool :=
  c == '\t' || (' ' ≤ c && c != '\x7f')

/-- How a string is written. -/
structure Quoting where
  /-- The mark at its ends. -/
  mark : Char
  /-- It may hold escapes. -/
  escapes : Bool
  /-- It may go over several lines, and its ends have three marks. -/
  lines : Bool

namespace Quoting

/-- What the reader of a string is in the middle of. -/
inductive State where
  /-- Nothing: the next character counts for itself. -/
  | plain
  /-- A line break whose first character was a carriage return. -/
  | lineBreak
  /-- A run of marks. -/
  | marks (count : Nat)
  | escape
  /-- The number of a character, of which some digits are missing. -/
  | code (missing value : Nat)
  /-- An escaped line break, of which only blanks were read. -/
  | lineEnd
  /-- The blanks and line breaks after an escaped line break. -/
  | gap
  /-- A line break in such a gap whose first character was a carriage return. -/
  | gapBreak

/-- What an escape of one character stands for. -/
def escaped? : Char → Option Char
  | 'b' => some '\x08'
  | 't' => some '\t'
  | 'n' => some '\n'
  | 'f' => some '\x0c'
  | 'r' => some '\r'
  | 'e' => some '\x1b'
  | '"' => some '"'
  | '\\' => some '\\'
  | _ => none

/-- The number of digits that follow an escape which gives the number of a character. -/
def codeLength? : Char → Option Nat
  | 'x' => some 2
  | 'u' => some 4
  | 'U' => some 8
  | _ => none

/-- The value of a hexadecimal digit. -/
def hexValue? (c : Char) : Option Nat :=
  if c.isDigit then some (c.toNat - '0'.toNat)
  else if 'a' ≤ c && c ≤ 'f' then some (c.toNat - 'a'.toNat + 10)
  else if 'A' ≤ c && c ≤ 'F' then some (c.toNat - 'A'.toNat + 10)
  else none

/-- The character with a number. -/
def charOf? (value : Nat) : Option Char :=
  if value.isValidChar then some (Char.ofNat value) else none

/-- Takes a character that counts for itself. -/
def takePlain? (quoting : Quoting) (found : List Char) (c : Char) : Option (State × List Char) :=
  if c == quoting.mark && quoting.lines then some (.marks 1, found)
  else if c == '\\' && quoting.escapes then some (.escape, found)
  else if c == '\n' && quoting.lines then some (.plain, c :: found)
  else if c == '\r' && quoting.lines then some (.lineBreak, found)
  else if isPlain c then some (.plain, c :: found)
  else none

/-- Takes a character in the gap after an escaped line break. -/
def takeGap? (quoting : Quoting) (found : List Char) (c : Char) : Option (State × List Char) :=
  if c == ' ' || c == '\t' || c == '\n' then some (.gap, found)
  else if c == '\r' then some (.gapBreak, found)
  else quoting.takePlain? found c

/-- Takes a character. What was read so far is given latest first. -/
def take? (quoting : Quoting) (state : State) (found : List Char) (c : Char) :
    Option (State × List Char) :=
  match state with
  | .plain => quoting.takePlain? found c
  | .lineBreak => if c == '\n' then some (.plain, '\n' :: found) else none
  | .marks count =>
    if c == quoting.mark then some (.marks (count + 1), found)
    else quoting.takePlain? (List.replicate count quoting.mark ++ found) c
  | .escape =>
    match escaped? c, codeLength? c with
    | some meant, _ => some (.plain, meant :: found)
    | none, some missing => some (.code missing 0, found)
    | none, none =>
      if !quoting.lines then none
      else if c == ' ' || c == '\t' then some (.lineEnd, found)
      else if c == '\n' then some (.gap, found)
      else if c == '\r' then some (.gapBreak, found)
      else none
  | .code missing value =>
    match hexValue? c with
    | none => none
    | some digit =>
      if missing ≤ 1 then (charOf? (value * 16 + digit)).map fun meant => (.plain, meant :: found)
      else some (.code (missing - 1) (value * 16 + digit), found)
  | .lineEnd =>
    if c == ' ' || c == '\t' then some (.lineEnd, found)
    else if c == '\n' then some (.gap, found)
    else if c == '\r' then some (.gapBreak, found)
    else none
  | .gap => quoting.takeGap? found c
  | .gapBreak => if c == '\n' then some (.gap, found) else none

/-- The text before the end of a string that closes with a run of marks, three of which are its end.
Up to two more belong to the text. -/
def closed? (quoting : Quoting) (count : Nat) (found : List Char) : Option String :=
  if 3 ≤ count && count ≤ 5 then
    some (String.ofList (List.replicate (count - 3) quoting.mark ++ found).reverse)
  else none

/-- The text up to the end of a string, and what follows the string. -/
def read? (quoting : Quoting) (state : State) (found : List Char) :
    List Char → Option (String × List Char)
  | [] =>
    match state with
    | .marks count => (quoting.closed? count found).map fun text => (text, [])
    | _ => none
  | c :: rest =>
    match state with
    | .plain =>
      if c == quoting.mark && !quoting.lines then some (String.ofList found.reverse, rest)
      else (quoting.take? .plain found c).bind fun (next, more) => quoting.read? next more rest
    | .marks count =>
      if 3 ≤ count && c != quoting.mark then
        (quoting.closed? count found).map fun text => (text, c :: rest)
      else (quoting.take? (.marks count) found c).bind fun (next, more) =>
        quoting.read? next more rest
    | other => (quoting.take? other found c).bind fun (next, more) => quoting.read? next more rest

end Quoting

/-- The rest of a text after a line break that it starts with. -/
def dropLineBreak : List Char → List Char
  | '\n' :: rest => rest
  | '\r' :: '\n' :: rest => rest
  | text => text

/-- Reads a string that stays on its line. -/
def readLineString? : List Char → Option (String × List Char)
  | '"' :: rest => Quoting.read? ⟨'"', true, false⟩ .plain [] rest
  | '\x27' :: rest => Quoting.read? ⟨'\x27', false, false⟩ .plain [] rest
  | _ => none

/-- Reads a string. A line break right after three marks is left out. -/
def readString? : List Char → Option (String × List Char)
  | '"' :: '"' :: '"' :: rest => Quoting.read? ⟨'"', true, true⟩ .plain [] (dropLineBreak rest)
  | '\x27' :: '\x27' :: '\x27' :: rest =>
    Quoting.read? ⟨'\x27', false, true⟩ .plain [] (dropLineBreak rest)
  | text => readLineString? text

end Coupling.Toml
