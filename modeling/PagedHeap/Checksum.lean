import PagedHeap.Bytes

/-!
# The 32-bit cyclic redundancy check

The checksum that guards the header pages: the reflected generator polynomial is `0xEDB88320`, the
register starts with all ones and is complemented at the end. The register is shifted one bit at a
time (`Crc32.shift`), so that its linearity over exclusive or can be read off the definition.
-/

namespace PagedHeap

namespace Crc32

/-- The generator polynomial, lowest power in the highest bit. -/
def generator : UInt32 := 0xEDB88320

/-- One step of the shift register: the lowest bit leaves and, if it was set, the generator is
subtracted. -/
def shift (register : UInt32) : UInt32 :=
  if register &&& 1 = 1 then (register >>> 1) ^^^ generator else register >>> 1

/-- The register after `count` steps. -/
def shifts : (count : Nat) → (register : UInt32) → UInt32
  | 0, r => r
  | k + 1, r => shifts k (shift r)

/-- Feeds one byte into the register, lowest bit first. -/
def feed (register : UInt32) (byte : UInt8) : UInt32 := shifts 8 (register ^^^ byte.toUInt32)

end Crc32

/-- The checksum of a string of bytes. -/
def crc32 (bytes : Bytes) : UInt32 := bytes.foldl Crc32.feed 0xFFFFFFFF ^^^ 0xFFFFFFFF

end PagedHeap
