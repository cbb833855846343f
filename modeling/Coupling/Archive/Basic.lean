import Coupling.Archive.Checksum
import Coupling.Archive.CodePage
import Coupling.Archive.Inflate
import Coupling.Text.Utf8

/-!
# Archives

An archive ends with a directory of its entries and an end record that says where the directory is.
Positions are counted from the start of the archive proper, which other bytes may precede; a comment
may follow the end record. Each entry has a header of its own before its data.

An archive may be searched for an end record in vain, or hold a directory that makes no sense; then
it is unreadable as a whole. So it is, entry by entry, if an entry is encrypted or compressed by an
unknown method. The data of an entry is checked only when it is read.
-/

namespace Coupling.Archive

/-- The number that bytes spell, least significant first. -/
def littleEndian (bytes : List UInt8) : Nat :=
  bytes.foldr (fun byte value => value * 256 + byte.toNat) 0

/-- A field of a record, by its position and width in bytes. -/
def fieldAt (record : List UInt8) (position width : Nat) : Nat :=
  littleEndian ((record.drop position).take width)

/-- The data starts with a record of the given size that starts with a signature. -/
def record? (signature : Nat) (size : Nat) (data : List UInt8) : Option (List UInt8) :=
  let record := data.take size
  if record.length = size ∧ fieldAt record 0 4 = signature then some record else none

/-- What the end of an archive says about its directory. -/
structure EndRecord where
  /-- The position of this record in the data. -/
  position : Nat
  /-- The disk that this record is on. -/
  disk : Nat
  /-- The disk that the directory starts on. -/
  directoryDisk : Nat
  /-- The number of entries. -/
  entryCount : Nat
  /-- The size of the directory in bytes. -/
  directorySize : Nat
  /-- The position of the directory in the archive. -/
  directoryOffset : Nat

/-- The signature of an end record. -/
def endSignature : Nat := 0x06054b50

/-- The signature of a directory entry. -/
def entrySignature : Nat := 0x02014b50

/-- The signature of the header before the data of an entry. -/
def headerSignature : Nat := 0x04034b50

/-- The end record at a position, if one is there with its comment. -/
def EndRecord.at? (data : List UInt8) (position : Nat) : Option EndRecord := do
  let here := data.drop position
  let record ← record? endSignature 22 here
  let comment := fieldAt record 20 2
  if (here.drop 22).length < comment then none
  else
    return {
      position
      disk := fieldAt record 4 2
      directoryDisk := fieldAt record 6 2
      entryCount := fieldAt record 10 2
      directorySize := fieldAt record 12 4
      directoryOffset := fieldAt record 16 4 }

/-- The positions at which a signature stands in data that starts at `position`. `found` holds
earlier positions, latest first. -/
def signatureScan (signature : Nat) (position : Nat) (found : List Nat) : List UInt8 → List Nat
  | [] => found.reverse
  | byte :: rest =>
    signatureScan signature (position + 1)
      (if littleEndian (byte :: rest.take 3) = signature then position :: found else found) rest

/-- The positions at which a signature stands, in ascending order. -/
def signaturePositions (signature : Nat) (data : List UInt8) : List Nat :=
  signatureScan signature 0 [] data

/-- The position of the first directory entry: right before the end record if it is there, and
otherwise the first place at or after the recorded position that looks like one. -/
def EndRecord.directoryStart? (data : List UInt8) (record : EndRecord) : Option Nat :=
  let likely := record.position - record.directorySize
  if record.position ≤ record.directoryOffset then none
  else if (record? entrySignature 4 (data.drop likely)).isSome then some likely
  else
    ((signaturePositions entrySignature (data.take record.position)).find?
      fun position => record.directoryOffset ≤ position)

/-- An entry of the directory. -/
structure Entry where
  /-- The name of the entry. -/
  name : String
  /-- The data is encrypted. -/
  isEncrypted : Bool
  /-- The method of compression. -/
  method : Nat
  /-- The checksum of the data. -/
  checksum : Nat
  /-- The number of bytes that the compressed data takes. -/
  compressedSize : Nat
  /-- The position of the header of the entry in the data of the archive. -/
  headerStart : Nat
  /-- The entry is a symbolic link. -/
  isLink : Bool

/-- The bits of a file mode that mark a symbolic link. -/
def linkMode : Nat := 0xA000

/-- The attributes of an entry mark it as a symbolic link. Only those made on one family of systems
hold a file mode. -/
def marksLink (madeBy attributes : Nat) : Bool :=
  madeBy / 256 == 3 && (attributes / 65536) &&& linkMode == linkMode

/-- The directory entry at the start of the data, and what follows it. `shift` is the number of
bytes before the archive proper. -/
def Entry.read? (shift : Nat) (data : List UInt8) : Option (Entry × List UInt8) := do
  let record ← record? entrySignature 46 data
  let flags := fieldAt record 8 2
  let nameLength := fieldAt record 28 2
  let extraLength := fieldAt record 30 2
  let commentLength := fieldAt record 32 2
  let tail := data.drop 46
  let length := nameLength + extraLength + commentLength
  let nameBytes := tail.take nameLength
  if (tail.take length).length < length then none
  else
    return ({
      name := if flags.testBit 11 then Utf8.decodeLossy nameBytes else codePageText nameBytes
      isEncrypted := flags.testBit 0
      method := fieldAt record 10 2
      checksum := fieldAt record 16 4
      compressedSize := fieldAt record 20 4
      headerStart := fieldAt record 42 4 + shift
      isLink := marksLink (fieldAt record 4 2) (fieldAt record 38 4) },
      tail.drop length)

/-- Reads a number of directory entries. `found` holds those before, latest first. -/
def readEntries (shift : Nat) : Nat → List Entry → List UInt8 → Option (List Entry)
  | 0, found, _ => some found.reverse
  | count + 1, found, data =>
    match Entry.read? shift data with
    | some (entry, rest) => readEntries shift count (entry :: found) rest
    | none => none

/-- Puts an entry in the place of an earlier one of its name, or else at the end. -/
def addEntry (entries : List Entry) (entry : Entry) : List Entry :=
  if entries.any (·.name == entry.name) then
    entries.map fun earlier => if earlier.name == entry.name then entry else earlier
  else
    entries ++ [entry]

/-- The entries of the directory that an end record leads to. An archive may not span disks. -/
def EndRecord.entries? (data : List UInt8) (record : EndRecord) : Option (List Entry) :=
  if record.entryCount = 0 then some []
  else if record.disk ≠ record.directoryDisk then none
  else do
    let start ← record.directoryStart? data
    let listed ← readEntries (start - record.directoryOffset) record.entryCount [] (data.drop start)
    return listed.foldl addEntry []

/-- The entries of an archive in the order of its directory, or nothing if it is unreadable. The
last end record that leads to a directory counts. -/
def entries? (data : List UInt8) : Option (List Entry) :=
  (signaturePositions endSignature data).reverse.findSome? fun position => do
    let record ← EndRecord.at? data position
    record.entries? data

namespace Entry

/-- The entry is a folder. -/
def isFolder (entry : Entry) : Bool :=
  entry.name.toList.getLast? == some '/' || entry.name.toList.getLast? == some '\\'

/-- The entry is a file. -/
def isFile (entry : Entry) : Bool :=
  !entry.isFolder && !entry.isLink

/-- The compressed data of an entry, or nothing if it cannot be read from this archive. -/
def open? (data : List UInt8) (entry : Entry) : Option (List UInt8) :=
  if entry.isEncrypted then none
  else do
    let here := data.drop entry.headerStart
    let header ← record? headerSignature 30 here
    if entry.method = 0 ∨ entry.method = 8 then
      let start := 30 + fieldAt header 26 2 + fieldAt header 28 2
      return (here.drop start).take entry.compressedSize
    else
      none

/-- What is wrong with the data of an entry. -/
inductive Fault where
  /-- The data is not compressed by its method. -/
  | corrupt
  /-- The data does not have its checksum. -/
  | badChecksum
deriving DecidableEq, Repr

/-- The fault in words. -/
def Fault.message : Fault → String
  | .corrupt => "corrupt deflate stream"
  | .badChecksum => "Invalid checksum"

/-- The data of an entry, given its compressed data. -/
def expand (entry : Entry) (compressed : List UInt8) : Except Fault (List UInt8) :=
  match if entry.method = 0 then some compressed else inflate? compressed with
  | some content =>
    if (Archive.checksum content).toNat = entry.checksum then .ok content else .error .badChecksum
  | none => .error .corrupt

end Entry

end Coupling.Archive
