/-!
# Reading binary data

A reader consumes bytes from a cursor, which also counts how many were consumed before: a fault
names the offset at which the data ended. Numbers are unsigned and stand with their most significant
byte first.
-/

namespace Coupling.ClassFile

/-- What a constant pool index was expected to name. -/
inductive Expected where
  /-- A text. -/
  | utf8
  | classEntry
deriving DecidableEq, Repr

/-- Why a class file cannot be read. -/
inductive Fault where
  /-- The data ends where more is needed. -/
  | truncated (offset : Nat)
  /-- The data does not start as a class file does. -/
  | badMagic (magic : Nat)
  /-- A constant pool entry is of no known kind. -/
  | unknownTag (index tag : Nat)
  /-- A constant pool index names nothing of the expected kind. -/
  | badReference (index : Nat) (expected : Expected)
deriving DecidableEq, Repr

/-- Eight hexadecimal digits. -/
def hexWord (value : Nat) : String :=
  let digits := Nat.toDigits 16 value
  String.ofList (List.replicate (8 - digits.length) '0' ++ digits)

/-- The kind of entry in words. -/
def Expected.label : Expected → String
  | .utf8 => "utf8 entry"
  | .classEntry => "class entry"

/-- The fault in words. -/
def Fault.message : Fault → String
  | .truncated offset => s!"unexpected end of data at offset {offset}"
  | .badMagic magic => s!"bad magic number 0x{hexWord magic}"
  | .unknownTag index tag => s!"unknown constant pool tag {tag} at entry {index}"
  | .badReference index expected =>
    s!"constant pool index {index} does not name a {expected.label}"

/-- The data still to be read, and how much was read before. -/
structure Cursor where
  /-- The bytes still to be read. -/
  rest : List UInt8
  /-- The number of bytes read. -/
  offset : Nat

/-- The cursor before the first byte. -/
def Cursor.start (data : List UInt8) : Cursor := ⟨data, 0⟩

/-- Reads a value and moves the cursor, or fails where the cursor is then. -/
abbrev Reader (α : Type) := ExceptT Fault (StateM Cursor) α

namespace Reader

/-- The next bytes. If there are not enough of them, none is consumed. -/
def bytes (count : Nat) : Reader (List UInt8) := fun cursor =>
  let taken := cursor.rest.take count
  if taken.length = count then
    (.ok taken, ⟨cursor.rest.drop count, cursor.offset + count⟩)
  else
    (.error (.truncated cursor.offset), cursor)

/-- The number that bytes spell, most significant first. -/
def bigEndian (bytes : List UInt8) : Nat :=
  bytes.foldl (fun value byte => value * 256 + byte.toNat) 0

/-- The next number of the given width in bytes. -/
def number (width : Nat) : Reader Nat := do
  let taken ← bytes width
  return bigEndian taken

/-- A number of one byte. -/
def u8 : Reader Nat := number 1

/-- A number of two bytes. -/
def u16 : Reader Nat := number 2

/-- A number of four bytes. -/
def u32 : Reader Nat := number 4

/-- Skips bytes. -/
def skip (count : Nat) : Reader Unit := do
  let _ ← bytes count

/-- Runs a reader a number of times. `found` holds earlier results, latest first. -/
def repeated {α : Type} (reader : Reader α) : Nat → List α → Reader (List α)
  | 0, found => pure found.reverse
  | count + 1, found => do
    let value ← reader
    repeated reader count (value :: found)

/-- Runs a reader as often as the number in front of the table says. -/
def table {α : Type} (reader : Reader α) : Reader (List α) := do
  let count ← u16
  repeated reader count []

/-- Runs a reader on data of its own, which it need not use up. -/
def within {α : Type} (data : List UInt8) (reader : Reader α) : Reader α := fun cursor =>
  ((reader (.start data)).1, cursor)

end Reader

end Coupling.ClassFile
