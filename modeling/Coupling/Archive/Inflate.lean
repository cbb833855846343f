/-!
# Compressed data

Compressed data is a sequence of bits, the least significant of each byte first. It is a sequence of
blocks: a block holds bytes as they are, or symbols in a prefix code that is fixed or described at
the start of the block. A symbol is a byte, the end of the block, or the length of a match, which is
followed by how far back in the output the match starts.

If the bits end early, the output is what they give. What cannot be compressed data gives none.
-/

namespace Coupling.Archive

/-- The bits of a byte, the least significant first. -/
def bitsOf (byte : UInt8) : List Bool :=
  (List.range 8).map fun position => byte.toNat.testBit position

/-- Why decompression stopped. -/
inductive Halt where
  /-- The bits ended; this much output came before. -/
  | exhausted (output : Array UInt8)
  /-- The bits are no compressed data. -/
  | corrupt

/-- The state of decompression. -/
structure Inflation where
  /-- The bits still to be read. -/
  bits : List Bool
  /-- The bytes written. -/
  output : Array UInt8

/-- A step of decompression. -/
abbrev Inflater (α : Type) := StateT Inflation (Except Halt) α

namespace Inflater

/-- Stops because the bits make no sense. -/
def corrupt {α : Type} : Inflater α := throw .corrupt

/-- The next bit. -/
def bit : Inflater Bool := fun state =>
  match state.bits with
  | next :: rest => .ok (next, { state with bits := rest })
  | [] => .error (.exhausted state.output)

/-- A number of the given width in bits, the least significant first. -/
def number (width : Nat) : Inflater Nat := fun state =>
  let taken := state.bits.take width
  if taken.length = width then
    .ok (taken.foldr (fun next value => 2 * value + next.toNat) 0,
      { state with bits := state.bits.drop width })
  else
    .error (.exhausted state.output)

/-- Skips to the start of the next byte. -/
def align : Inflater Unit :=
  modify fun state => { state with bits := state.bits.drop (state.bits.length % 8) }

/-- Writes a byte. -/
def write (byte : UInt8) : Inflater Unit :=
  modify fun state => { state with output := state.output.push byte }

/-- Copies bytes from earlier output, where the copy may run into itself. -/
def copy (distance : Nat) : Nat → Inflater Unit
  | 0 => pure ()
  | length + 1 => do
    let state ← get
    match state.output[state.output.size - distance]? with
    | some byte =>
      if state.output.size < distance then corrupt
      else do
        write byte
        copy distance length
    | none => corrupt

end Inflater

/-- A canonical prefix code. -/
structure PrefixCode where
  /-- How many symbols have a code of each length, from one bit on. -/
  counts : List Nat
  /-- The symbols in the order of their codes. -/
  symbols : Array Nat

namespace PrefixCode

/-- The longest code. -/
def maxLength : Nat := 15

/-- The code in which each symbol has a code of the given length; a symbol of length zero has none.
Symbols of one length have codes in ascending order. -/
def ofLengths (lengths : List Nat) : PrefixCode :=
  let ofLength (length : Nat) : List Nat :=
    (lengths.zipIdx.filter fun (given, _) => given == length).map (·.2)
  let groups := (List.range maxLength).map fun length => ofLength (length + 1)
  ⟨groups.map List.length, groups.flatten.toArray⟩

/-- The share of all codes that are used, in units of the longest. -/
def usage (code : PrefixCode) : Nat :=
  code.counts.zipIdx.foldr
    (fun (count, position) total => count * Nat.pow 2 (maxLength - 1 - position) + total) 0

/-- No code is left over, or there is at most one symbol. -/
def isUsable (code : PrefixCode) : Bool :=
  code.usage == Nat.pow 2 maxLength || code.symbols.size ≤ 1

/-- Reads one symbol. `first` is the first code of the present length, `skipped` the number of
symbols with shorter codes, and `value` the bits read. -/
def symbolFrom (code : PrefixCode) : List Nat → Nat → Nat → Nat → Inflater Nat
  | [], _, _, _ => Inflater.corrupt
  | count :: longer, first, skipped, value => do
    let next ← Inflater.bit
    let extended := value + next.toNat
    if first ≤ extended ∧ extended < first + count then
      match code.symbols[skipped + (extended - first)]? with
      | some symbol => return symbol
      | none => Inflater.corrupt
    else
      symbolFrom code longer (2 * (first + count)) (skipped + count) (2 * extended)

/-- Reads one symbol. -/
def symbol (code : PrefixCode) : Inflater Nat :=
  code.symbolFrom code.counts 0 0 0

end PrefixCode

/-- The symbol that ends a block. -/
def endOfBlock : Nat := 256

/-- The least length and the number of further bits for each length symbol after the end of block.
-/
def matchLengths : Array (Nat × Nat) :=
  #[(3, 0), (4, 0), (5, 0), (6, 0), (7, 0), (8, 0), (9, 0), (10, 0), (11, 1), (13, 1), (15, 1),
    (17, 1), (19, 2), (23, 2), (27, 2), (31, 2), (35, 3), (43, 3), (51, 3), (59, 3), (67, 4),
    (83, 4), (99, 4), (115, 4), (131, 5), (163, 5), (195, 5), (227, 5), (258, 0)]

/-- The least distance and the number of further bits for each distance symbol. -/
def matchDistances : Array (Nat × Nat) :=
  #[(1, 0), (2, 0), (3, 0), (4, 0), (5, 1), (7, 1), (9, 2), (13, 2), (17, 3), (25, 3), (33, 4),
    (49, 4), (65, 5), (97, 5), (129, 6), (193, 6), (257, 7), (385, 7), (513, 8), (769, 8),
    (1025, 9), (1537, 9), (2049, 10), (3073, 10), (4097, 11), (6145, 11), (8193, 12),
    (12289, 12), (16385, 13), (24577, 13)]

/-- A number that is given by a symbol and further bits. -/
def ranged (table : Array (Nat × Nat)) (symbol : Nat) : Inflater Nat :=
  match table[symbol]? with
  | some (least, width) => do
    let further ← Inflater.number width
    return least + further
  | none => Inflater.corrupt

/-- Reads symbols until the block ends, at most `fuel` of them. -/
def codedBlock (literals distances : PrefixCode) : Nat → Inflater Unit
  | 0 => Inflater.corrupt
  | fuel + 1 => do
    let symbol ← literals.symbol
    if symbol < endOfBlock then do
      Inflater.write (UInt8.ofNat symbol)
      codedBlock literals distances fuel
    else if symbol = endOfBlock then
      return ()
    else do
      let length ← ranged matchLengths (symbol - endOfBlock - 1)
      let distanceSymbol ← distances.symbol
      let distance ← ranged matchDistances distanceSymbol
      Inflater.copy distance length
      codedBlock literals distances fuel

/-- The lengths of the fixed code of literals. -/
def fixedLiterals : PrefixCode :=
  .ofLengths (List.replicate 144 8 ++ List.replicate 112 9 ++ List.replicate 24 7 ++
    List.replicate 8 8)

/-- The lengths of the fixed code of distances. -/
def fixedDistances : PrefixCode :=
  .ofLengths (List.replicate 32 5)

/-- The order in which the lengths of the code of code lengths are given. -/
def lengthOrder : List Nat :=
  [16, 17, 18, 0, 8, 7, 9, 6, 10, 5, 11, 4, 12, 3, 13, 2, 14, 1, 15]

/-- Reads the code lengths of a block until there are `count`, but at most `fuel` symbols. `found`
holds the lengths so far, latest first. -/
def codeLengths (code : PrefixCode) (count : Nat) : Nat → List Nat → Inflater (List Nat)
  | 0, found => pure found.reverse
  | fuel + 1, found =>
    if count ≤ found.length then pure found.reverse
    else do
      let symbol ← code.symbol
      match symbol with
      | 16 =>
        let times ← Inflater.number 2
        match found with
        | latest :: _ => codeLengths code count fuel (List.replicate (times + 3) latest ++ found)
        | [] => Inflater.corrupt
      | 17 =>
        let times ← Inflater.number 3
        codeLengths code count fuel (List.replicate (times + 3) 0 ++ found)
      | 18 =>
        let times ← Inflater.number 7
        codeLengths code count fuel (List.replicate (times + 11) 0 ++ found)
      | length => codeLengths code count fuel (length :: found)

/-- Reads numbers of three bits. `found` holds those before, latest first. -/
def shortNumbers : Nat → List Nat → Inflater (List Nat)
  | 0, found => pure found.reverse
  | count + 1, found => do
    let value ← Inflater.number 3
    shortNumbers count (value :: found)

/-- Reads the codes that a block describes: that of literals and that of distances. -/
def describedCodes : Inflater (PrefixCode × PrefixCode) := do
  let literalCount := (← Inflater.number 5) + 257
  let distanceCount := (← Inflater.number 5) + 1
  let lengthCount := (← Inflater.number 4) + 4
  let given ← shortNumbers lengthCount []
  let lengths := (List.range 19).map fun symbol =>
    (((lengthOrder.zip given).find? fun (position, _) => position == symbol).map (·.2)).getD 0
  let lengthCode := PrefixCode.ofLengths lengths
  if lengthCode.isUsable then
    let total := literalCount + distanceCount
    let found ← codeLengths lengthCode total total []
    let literals := PrefixCode.ofLengths (found.take literalCount)
    let distances := PrefixCode.ofLengths (found.drop literalCount)
    if found.length = total ∧ literals.isUsable ∧ distances.isUsable then
      return (literals, distances)
    else
      Inflater.corrupt
  else
    Inflater.corrupt

/-- Copies bytes that are stored as they are. -/
def storedBytes : Nat → Inflater Unit
  | 0 => pure ()
  | count + 1 => do
    let byte ← Inflater.number 8
    Inflater.write (UInt8.ofNat byte)
    storedBytes count

/-- Reads a block of bytes as they are: their number, that number inverted, and the bytes. -/
def storedBlock : Inflater Unit := do
  Inflater.align
  let count ← Inflater.number 16
  let inverted ← Inflater.number 16
  if count + inverted = 0xFFFF then storedBytes count else Inflater.corrupt

/-- Reads blocks up to the last one, at most `fuel` of them. -/
def blocks : Nat → Inflater Unit
  | 0 => Inflater.corrupt
  | fuel + 1 => do
    let isLast ← Inflater.bit
    let kind ← Inflater.number 2
    match kind with
    | 0 => storedBlock
    | 1 => do
      let state ← get
      codedBlock fixedLiterals fixedDistances (state.bits.length + 1)
    | 2 => do
      let (literals, distances) ← describedCodes
      let state ← get
      codedBlock literals distances (state.bits.length + 1)
    | _ => Inflater.corrupt
    if isLast then return () else blocks fuel

/-- The output of compressed data, or nothing if the bits are no compressed data. Every block and
every symbol takes a bit, so their number is bounded by that of the bits. -/
def inflate? (data : List UInt8) : Option (List UInt8) :=
  let bits := data.flatMap bitsOf
  match blocks (bits.length + 1) ⟨bits, #[]⟩ with
  | .ok (_, state) => some state.output.toList
  | .error (.exhausted output) => some output.toList
  | .error .corrupt => none

end Coupling.Archive
