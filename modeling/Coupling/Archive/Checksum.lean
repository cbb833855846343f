/-!
# Checksums

The cyclic redundancy check of 32 bits that archives keep for each entry. A register is divided by
the polynomial one bit at a time, the least significant bit first.
-/

namespace Coupling.Archive

/-- Divides by one bit. -/
def checksumBit (register : UInt32) : UInt32 :=
  if register &&& 1 = 1 then (register >>> 1) ^^^ 0xEDB88320 else register >>> 1

/-- Divides by one byte. -/
def checksumByte (register : UInt32) (byte : UInt8) : UInt32 :=
  Nat.repeat checksumBit 8 (register ^^^ byte.toUInt32)

/-- The checksum of some data. -/
def checksum (data : List UInt8) : UInt32 :=
  data.foldl checksumByte 0xFFFFFFFF ^^^ 0xFFFFFFFF

end Coupling.Archive
