import PagedHeap.Bytes

/-!
# Bytes as text

Records may hold any bytes. To show one as text it is read as UTF-8, and wherever the bytes are not
a character, the longest start of a character (or else one byte) is replaced by U+FFFD.
-/

namespace PagedHeap

namespace Lossy

/-- The number of bytes that follow the first byte of a character, and the range of the first of
them. There is none for a byte that starts no character or is one itself. -/
def lead? (b : UInt8) : Option (Nat × UInt8 × UInt8) :=
  if 0xC2 ≤ b ∧ b ≤ 0xDF then some (1, 0x80, 0xBF)
  else if b = 0xE0 then some (2, 0xA0, 0xBF)
  else if b = 0xED then some (2, 0x80, 0x9F)
  else if 0xE1 ≤ b ∧ b ≤ 0xEF then some (2, 0x80, 0xBF)
  else if b = 0xF0 then some (3, 0x90, 0xBF)
  else if 0xF1 ≤ b ∧ b ≤ 0xF3 then some (3, 0x80, 0xBF)
  else if b = 0xF4 then some (3, 0x80, 0x8F)
  else none

/-- A character of which the first bytes were read: the value of their bits, the number of bytes
that are missing, and the range of the next one. -/
structure Begun where
  /-- The bits read so far. -/
  bits : Nat
  /-- The number of bytes that are missing after the next one. -/
  missing : Nat
  /-- The least next byte. -/
  least : UInt8
  /-- The greatest next byte. -/
  greatest : UInt8

/-- The character that stands for bytes that are none. -/
def replacement : Char := '\uFFFD'

/-- The state after a byte with which a character may start, and the character that is complete. -/
def first (b : UInt8) : Option Begun × List Char :=
  if b < 0x80 then (none, [Char.ofNat b.toNat])
  else
    match lead? b with
    | none => (none, [replacement])
    | some (more, least, greatest) =>
      (some ⟨b.toNat % (1 <<< (6 - more)), more - 1, least, greatest⟩, [])

/-- Reads one byte. -/
def next (state : Option Begun) (b : UInt8) : Option Begun × List Char :=
  match state with
  | none => first b
  | some c =>
    if c.least ≤ b ∧ b ≤ c.greatest then
      let bits := c.bits * 64 + b.toNat % 64
      match c.missing with
      | 0 => (none, [Char.ofNat bits])
      | k + 1 => (some ⟨bits, k, 0x80, 0xBF⟩, [])
    else
      let (state, chars) := first b
      (state, replacement :: chars)

/-- Reads bytes; a character that is not complete at the end is replaced. -/
def chars : Option Begun → Bytes → List Char
  | none, [] => []
  | some _, [] => [replacement]
  | state, b :: bs =>
    let (state, out) := next state b
    out ++ chars state bs

end Lossy

/-- The text of a string of bytes. -/
def lossyText (bytes : Bytes) : String := String.ofList (Lossy.chars none bytes)

end PagedHeap
