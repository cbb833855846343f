import Coupling.Toml.Literal
import Coupling.Toml.Text

/-!
# Reading TOML

A document is read line by line: a header opens a table, and any other line gives a key of the table
opened last. Arrays and inline tables may go over several lines and may be nested up to a limit.
-/

namespace Coupling.Toml

/-- A character of a key that is written without marks. -/
def isBareKey (c : Char) : Bool :=
  c.isAlphanum || c == '_' || c == '-'

def dropBlanks (text : List Char) : List Char :=
  text.dropWhile fun c => c == ' ' || c == '\t'

/-- Drops blanks, line breaks and comments. -/
def dropLines? : (inComment : Bool) → List Char → Option (List Char)
  | _, [] => some []
  | _, '\n' :: rest => dropLines? false rest
  | _, '\r' :: rest =>
    match rest with
    | '\n' :: _ => dropLines? false rest
    | _ => none
  | true, c :: rest => if isPlain c then dropLines? true rest else none
  | false, c :: rest =>
    if c == ' ' || c == '\t' then dropLines? false rest
    else if c == '#' then dropLines? true rest
    else some (c :: rest)

/-- What follows a line of which at most blanks and a comment are left. -/
def endLine? (text : List Char) : Option (List Char) :=
  let afterComment :=
    match dropBlanks text with
    | '#' :: comment => comment.dropWhile isPlain
    | rest => rest
  match afterComment with
  | [] => some []
  | '\n' :: rest => some rest
  | '\r' :: '\n' :: rest => some rest
  | _ => none

def readKeyPart? (text : List Char) : Option (String × List Char) :=
  match text with
  | '"' :: _ | '\x27' :: _ => readLineString? text
  | _ =>
    let part := text.takeWhile isBareKey
    if part.isEmpty then none else some (String.ofList part, text.dropWhile isBareKey)

/-- Reads the parts of a key, between which there are dots, and the blanks after them. -/
def readKeyParts? : (fuel : Nat) → List Char → Option (List String × List Char)
  | 0, _ => none
  | fuel + 1, text => do
    let (part, rest) ← readKeyPart? (dropBlanks text)
    match dropBlanks rest with
    | '.' :: more =>
      let (parts, rest) ← readKeyParts? fuel more
      return (part :: parts, rest)
    | rest => return ([part], rest)

/-- A key: the tables that it leads through, and its last part. -/
structure Key where
  /-- The tables that the key leads through. -/
  path : List String
  /-- The last part of the key. -/
  last : String

def readKey? (text : List Char) : Option (Key × List Char) := do
  let (parts, rest) ← readKeyParts? text.length text
  let last ← parts.getLast?
  return (⟨parts.dropLast, last⟩, rest)

/-- Arrays and inline tables are nested at most this deep. -/
def depthLimit : Nat := 80

mutual

def readValue? (fuel depth : Nat) (text : List Char) : Option (Value × List Char) :=
  match fuel with
  | 0 => none
  | fuel + 1 =>
    match text with
    | '"' :: _ | '\x27' :: _ =>
      (readString? text).map fun (content, rest) => (.string content, rest)
    | '[' :: rest => if depth < depthLimit then readItems? fuel (depth + 1) [] rest else none
    | '\x7b' :: rest => if depth < depthLimit then readFields? fuel (depth + 1) [] rest else none
    | _ =>
      let (literal, rest) := Literal.split text
      (Literal.value? literal).map fun value => (value, rest)

/-- Reads the rest of an array. -/
def readItems? (fuel depth : Nat) (found : List Value) (text : List Char) :
    Option (Value × List Char) :=
  match fuel with
  | 0 => none
  | fuel + 1 => do
    match ← dropLines? false text with
    | ']' :: rest => return (.array found.reverse, rest)
    | start =>
      let (value, rest) ← readValue? fuel depth start
      match ← dropLines? false rest with
      | ',' :: rest => readItems? fuel depth (value :: found) rest
      | ']' :: rest => return (.array (value :: found).reverse, rest)
      | _ => none

/-- Reads the rest of an inline table. -/
def readFields? (fuel depth : Nat) (found : Entries) (text : List Char) :
    Option (Value × List Char) :=
  match fuel with
  | 0 => none
  | fuel + 1 => do
    match ← dropLines? false text with
    | '\x7d' :: rest => return (.table .inline found, rest)
    | start =>
      let (key, rest) ← readKey? start
      match rest with
      | '=' :: rest =>
        let (value, rest) ← readValue? fuel depth (dropBlanks rest)
        let added ← found.assign? true false key.path key.last value
        match ← dropLines? false rest with
        | ',' :: rest => readFields? fuel depth added rest
        | '\x7d' :: rest => return (.table .inline added, rest)
        | _ => none
      | _ => none

end

/-- A line of a document. -/
inductive Line where
  /-- Opens a table. -/
  | table (key : Key)
  /-- Opens one more table of an array. -/
  | item (key : Key)
  /-- Gives a key a value. -/
  | entry (key : Key) (value : Value)

def readLine? (text : List Char) : Option (Line × List Char) :=
  match text with
  | '[' :: '[' :: rest => do
    let (key, rest) ← readKey? rest
    match rest with
    | ']' :: ']' :: rest => return (.item key, ← endLine? rest)
    | _ => none
  | '[' :: rest => do
    let (key, rest) ← readKey? rest
    match rest with
    | ']' :: rest => return (.table key, ← endLine? rest)
    | _ => none
  | _ => do
    let (key, rest) ← readKey? text
    match rest with
    | '=' :: rest =>
      let (value, rest) ← readValue? (2 * rest.length + 2) 0 (dropBlanks rest)
      return (.entry key value, ← endLine? rest)
    | _ => none

/-- Reads the lines of a document. -/
def readLines? : (fuel : Nat) → (found : List Line) → List Char → Option (List Line)
  | 0, _, _ => none
  | fuel + 1, found, text => do
    match ← dropLines? false text with
    | [] => return found.reverse
    | start =>
      let (line, rest) ← readLine? start
      readLines? fuel (line :: found) rest

/-- The entries of a document whose lines are given, if the table opened last has the given path. -/
def assemble? (current : List String) (entries : Entries) : List Line → Option Entries
  | [] => some entries
  | .table key :: rest => do
    let opened ← entries.within? (Entries.openTable? key.last) key.path
    assemble? (key.path ++ [key.last]) opened rest
  | .item key :: rest => do
    let opened ← entries.within? (Entries.openItem? key.last) key.path
    assemble? (key.path ++ [key.last]) opened rest
  | .entry key value :: rest => do
    let change? := Entries.assign? true false key.path key.last value
    assemble? current (← entries.within? change? current) rest

/-- The entries of the document that a text holds. A byte order mark may come first. -/
def parse? (text : String) : Option Entries := do
  let marked := text.toList
  let content := if marked.head? == some '\ufeff' then marked.tail else marked
  assemble? [] [] (← readLines? (content.length + 1) [] content)

end Coupling.Toml
