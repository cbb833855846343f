import Coupling.Json.Basic

/-!
# Reading JSON

A document is one value between blanks: spaces, tabs, carriage returns and line feeds. Numbers are
checked but not evaluated, and a string literal that spells no text is no error by itself.
-/

namespace Coupling.Json

/-- The characters that may stand between tokens. -/
def isBlank (c : Char) : Bool :=
  c == ' ' || c == '\t' || c == '\n' || c == '\r'

/-- What follows the blanks. -/
def skipBlanks (input : List Char) : List Char :=
  input.dropWhile isBlank

/-- The value of a hexadecimal digit. -/
def hexValue? (c : Char) : Option Nat :=
  if '0' ≤ c ∧ c ≤ '9' then some (c.toNat - '0'.toNat)
  else if 'a' ≤ c ∧ c ≤ 'f' then some (c.toNat - 'a'.toNat + 10)
  else if 'A' ≤ c ∧ c ≤ 'F' then some (c.toNat - 'A'.toNat + 10)
  else none

/-- The value of four hexadecimal digits. -/
def codeUnit? (a b c d : Char) : Option Nat := do
  let high ← hexValue? a
  let upper ← hexValue? b
  let lower ← hexValue? c
  let low ← hexValue? d
  return ((high * 16 + upper) * 16 + lower) * 16 + low

/-- A code unit that starts a surrogate pair. -/
def isHighSurrogate (unit : Nat) : Bool := 0xD800 ≤ unit && unit ≤ 0xDBFF

/-- A code unit that ends a surrogate pair. -/
def isLowSurrogate (unit : Nat) : Bool := 0xDC00 ≤ unit && unit ≤ 0xDFFF

/-- The character a surrogate pair stands for. -/
def pairedChar (high low : Nat) : Char :=
  Char.ofNat (0x10000 + (high - 0xD800) * 0x400 + (low - 0xDC00))

/-- The character that a one-letter escape stands for. -/
def shortEscape? : Char → Option Char
  | '"' => some '"'
  | '\\' => some '\\'
  | '/' => some '/'
  | 'b' => some '\x08'
  | 'f' => some '\x0c'
  | 'n' => some '\n'
  | 'r' => some '\r'
  | 't' => some '\t'
  | _ => none

/-- The part of a string literal that has been read. -/
structure Spelling where
  /-- The characters spelt so far, latest first, or nothing once half of a surrogate pair stood
  alone. -/
  chars : Option (List Char)
  /-- The first half of a surrogate pair, if the second is still to come. -/
  high : Option Nat

namespace Spelling

/-- The spelling of an empty literal. -/
def empty : Spelling := ⟨some [], none⟩

/-- What is spelt if no second half of a surrogate pair follows. -/
def settled (spelling : Spelling) : Option (List Char) :=
  if spelling.high.isSome then none else spelling.chars

/-- Adds a character. -/
def push (spelling : Spelling) (c : Char) : Spelling :=
  ⟨spelling.settled.map (c :: ·), none⟩

/-- Adds a code unit that was given by its number. -/
def pushUnit (spelling : Spelling) (unit : Nat) : Spelling :=
  if isHighSurrogate unit then ⟨spelling.settled, some unit⟩
  else if isLowSurrogate unit then
    match spelling.high with
    | some high => ⟨spelling.chars.map (pairedChar high unit :: ·), none⟩
    | none => ⟨none, none⟩
  else spelling.push (Char.ofNat unit)

/-- The text that is spelt. -/
def text (spelling : Spelling) : Json.Text :=
  spelling.settled.map fun chars => String.ofList chars.reverse

end Spelling

/-- Reads the rest of a string literal after its opening quote. -/
def stringBody (spelling : Spelling) : List Char → Option (Json.Text × List Char)
  | [] => none
  | '"' :: rest => some (spelling.text, rest)
  | '\\' :: 'u' :: a :: b :: c :: d :: rest =>
    match codeUnit? a b c d with
    | some unit => stringBody (spelling.pushUnit unit) rest
    | none => none
  | '\\' :: c :: rest =>
    match shortEscape? c with
    | some escaped => stringBody (spelling.push escaped) rest
    | none => none
  | c :: rest => if c.toNat < 32 then none else stringBody (spelling.push c) rest

/-- Splits off the leading decimal digits. -/
def digits (input : List Char) : List Char × List Char :=
  (input.takeWhile Char.isDigit, input.dropWhile Char.isDigit)

/-- The whole part of a number: a single zero, or digits that do not start with zero. -/
def wholePart? (input : List Char) : Option (List Char × List Char) :=
  match digits input with
  | ([], _) => none
  | ('0' :: _ :: _, _) => none
  | found => some found

/-- The fraction of a number, which may be absent: a point and at least one digit. -/
def fraction? : List Char → Option (List Char × List Char)
  | '.' :: rest =>
    match digits rest with
    | ([], _) => none
    | (found, after) => some ('.' :: found, after)
  | input => some ([], input)

/-- The exponent of a number, which may be absent: its mark, perhaps a sign, and at least one
digit. -/
def exponent? : List Char → Option (List Char × List Char)
  | mark :: rest =>
    if mark = 'e' ∨ mark = 'E' then
      let (sign, unsigned) :=
        match rest with
        | '+' :: after => (['+'], after)
        | '-' :: after => (['-'], after)
        | _ => ([], rest)
      match digits unsigned with
      | ([], _) => none
      | (found, after) => some (mark :: sign ++ found, after)
    else
      some ([], mark :: rest)
  | [] => some ([], [])

/-- A number literal. -/
def number? (input : List Char) : Option (Json × List Char) := do
  let (sign, unsigned) :=
    match input with
    | '-' :: rest => (['-'], rest)
    | _ => ([], input)
  let (whole, afterWhole) ← wholePart? unsigned
  let (fraction, afterFraction) ← fraction? afterWhole
  let (exponent, rest) ← exponent? afterFraction
  return (.number (String.ofList (sign ++ whole ++ fraction ++ exponent)), rest)

mutual

/-- Reads a value. The fuel bounds the number of nested calls. -/
def value (fuel : Nat) (input : List Char) : Option (Json × List Char) :=
  match fuel with
  | 0 => none
  | fuel + 1 =>
    match skipBlanks input with
    | 'n' :: 'u' :: 'l' :: 'l' :: rest => some (.null, rest)
    | 't' :: 'r' :: 'u' :: 'e' :: rest => some (.bool true, rest)
    | 'f' :: 'a' :: 'l' :: 's' :: 'e' :: rest => some (.bool false, rest)
    | '"' :: rest => do
      let (content, after) ← stringBody .empty rest
      return (.string content, after)
    | '[' :: rest =>
      match skipBlanks rest with
      | ']' :: after => some (.array [], after)
      | inside => do
        let (found, after) ← items fuel [] inside
        return (.array found, after)
    | '\x7b' :: rest =>
      match skipBlanks rest with
      | '\x7d' :: after => some (.object [], after)
      | inside => do
        let (found, after) ← members fuel [] inside
        return (.object found, after)
    | other => number? other
  termination_by structural fuel

/-- Reads the items of an array and its closing bracket. `found` holds the items so far, latest
first. -/
def items (fuel : Nat) (found : List Json) (input : List Char) : Option (List Json × List Char) :=
  match fuel with
  | 0 => none
  | fuel + 1 => do
    let (item, rest) ← value fuel input
    match skipBlanks rest with
    | ',' :: after => items fuel (item :: found) after
    | ']' :: after => return ((item :: found).reverse, after)
    | _ => none
  termination_by structural fuel

/-- Reads the members of an object and its closing brace. `found` holds the members so far, latest
first. -/
def members (fuel : Nat) (found : List (Json.Text × Json)) (input : List Char) :
    Option (List (Json.Text × Json) × List Char) :=
  match fuel with
  | 0 => none
  | fuel + 1 =>
    match skipBlanks input with
    | '"' :: afterQuote => do
      let (key, afterKey) ← stringBody .empty afterQuote
      match skipBlanks afterKey with
      | ':' :: afterColon =>
        let (item, rest) ← value fuel afterColon
        match skipBlanks rest with
        | ',' :: after => members fuel ((key, item) :: found) after
        | '\x7d' :: after => return (((key, item) :: found).reverse, after)
        | _ => none
      | _ => none
    | _ => none
  termination_by structural fuel

end

/-- Reads a document. Each nested call happens after a character was read or is followed by one
that reads a character, so twice the length bounds their number. -/
def parse? (document : String) : Option Json :=
  let input := document.toList
  match value (2 * input.length + 2) input with
  | some (found, rest) => if (skipBlanks rest).isEmpty then some found else none
  | none => none

end Coupling.Json
