import PagedHeap.Page.Header

/-!
# Slots

An entry of the slot directory says where a record lies inside its page. The directory follows the
page header, four bytes an entry. No record starts inside the header, so that offset zero is free to
mark an empty entry.
-/

namespace PagedHeap

/-- An entry of the slot directory. -/
structure Slot where
  /-- Where the record starts, zero for an empty entry. -/
  offset : UInt16
  /-- The length of the record. -/
  length : UInt16
deriving DecidableEq

namespace Slot

/-- The entry that belongs to no record. -/
def empty : Slot := ⟨0, 0⟩

/-- Whether the entry belongs to no record. -/
def isEmpty (s : Slot) : Bool := s.offset == 0

/-- The end of the record's range. -/
def stop (s : Slot) : Nat := s.offset.toNat + s.length.toNat

/-- The stored form of an entry. -/
def encode (s : Slot) : Bytes := bigEndian 2 s.offset.toNat ++ bigEndian 2 s.length.toNat

@[simp] theorem length_encode (s : Slot) : s.encode.length = slotSize := by simp [encode]

variable {n : Nat}

/-- The entry stored at an offset. -/
def load (b : Block n) (offset : Nat) : Slot :=
  ⟨UInt16.ofNat (b.number offset 2), UInt16.ofNat (b.number (offset + 2) 2)⟩

/-- The entry stored at the start of a buffer that is long enough. -/
def read (b : Block n) : Result Slot :=
  if n < slotSize then .stop .outOfRange else .ok (load b 0)

/-- Where entry `i` of a page's directory is stored. -/
def position (i : Nat) : Nat := dataHeaderSize + i * slotSize

@[simp] theorem isEmpty_empty : empty.isEmpty = true := rfl

end Slot

end PagedHeap
