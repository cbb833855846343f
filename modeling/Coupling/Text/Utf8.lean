/-!
# UTF-8

Text as bytes. Decoding reads one byte at a time. Its state is the character that has been started:
the bits gathered, the bytes still owed after the next one, and the range the next byte must lie in.
The ranges leave out overlong forms, surrogates and numbers beyond the last code point.

Bytes that start a character and cannot continue it are one fault, however many they are, and the
byte at which they fail starts afresh. A decoded sequence has one entry per character or fault.
-/

namespace Coupling.Utf8

/-- The bytes of a text. -/
def encode (text : String) : List UInt8 :=
  text.toList.flatMap String.utf8EncodeChar

/-- A character that has been started. -/
structure Partial where
  /-- The bits gathered so far. -/
  bits : Nat
  /-- The number of bytes owed after the next one. -/
  owed : Nat
  /-- The least value of the next byte. -/
  least : UInt8
  /-- The greatest value of the next byte. -/
  greatest : UInt8

/-- What a byte leads to. -/
inductive Progress where
  /-- A character is complete. -/
  | complete (c : Char)
  /-- A character goes on. -/
  | started (pending : Partial)
  /-- No character starts with this byte. -/
  | fault

/-- A byte between two characters. -/
def first (byte : UInt8) : Progress :=
  let bits := byte.toNat
  if byte < 0x80 then .complete (Char.ofNat bits)
  else if byte < 0xC2 then .fault
  else if byte < 0xE0 then .started ⟨bits % 32, 0, 0x80, 0xBF⟩
  else if byte = 0xE0 then .started ⟨bits % 16, 1, 0xA0, 0xBF⟩
  else if byte = 0xED then .started ⟨bits % 16, 1, 0x80, 0x9F⟩
  else if byte < 0xF0 then .started ⟨bits % 16, 1, 0x80, 0xBF⟩
  else if byte = 0xF0 then .started ⟨bits % 8, 2, 0x90, 0xBF⟩
  else if byte < 0xF4 then .started ⟨bits % 8, 2, 0x80, 0xBF⟩
  else if byte = 0xF4 then .started ⟨bits % 8, 2, 0x80, 0x8F⟩
  else .fault

/-- A byte inside a character, or nothing if it cannot continue that character. -/
def next? (pending : Partial) (byte : UInt8) : Option Progress :=
  if pending.least ≤ byte ∧ byte ≤ pending.greatest then
    let bits := pending.bits * 64 + byte.toNat % 64
    match pending.owed with
    | 0 => some (.complete (Char.ofNat bits))
    | owed + 1 => some (.started ⟨bits, owed, 0x80, 0xBF⟩)
  else
    none

/-- The characters and faults of a byte sequence. `found` holds those before it, latest first. -/
def scan (found : List (Option Char)) (pending : Option Partial) :
    List UInt8 → List (Option Char)
  | [] => (if pending.isSome then none :: found else found).reverse
  | byte :: rest =>
    let (before, progress) :=
      match pending with
      | none => (found, first byte)
      | some started =>
        match next? started byte with
        | some progress => (found, progress)
        | none => (none :: found, first byte)
    match progress with
    | .complete c => scan (some c :: before) none rest
    | .started started => scan before (some started) rest
    | .fault => scan (none :: before) none rest

/-- The text of a byte sequence, or nothing if it is not well formed. -/
def decode? (bytes : List UInt8) : Option String :=
  ((scan [] none bytes).mapM id).map String.ofList

/-- The text of a byte sequence, with the replacement character in place of each fault. -/
def decodeLossy (bytes : List UInt8) : String :=
  String.ofList ((scan [] none bytes).map (·.getD '�'))

end Coupling.Utf8
