import PagedHeap.Page.Basic

/-!
# The header of a data page

The first sixteen bytes of a data page, all numbers most significant byte first:

| offset | size | content                                        |
|--------|------|------------------------------------------------|
| 0      | 1    | kind of the page                               |
| 1      | 1    | zero                                           |
| 2      | 2    | entries of the slot directory                  |
| 4      | 2    | offset at which the record content starts      |
| 6      | 2    | bytes of deleted records inside that content   |
| 8      | 4    | number of this page                            |
| 12     | 4    | number of the next page of the chain           |

`DataHeader.read?_write` says that a header is read back as it was written.
-/

namespace PagedHeap

/-- The size of a data page's header in bytes. -/
abbrev dataHeaderSize : Nat := 16

/-- The size of one entry of the slot directory in bytes. -/
abbrev slotSize : Nat := 4

/-- The header of a data page. -/
structure DataHeader where
  /-- The kind of the page. -/
  kind : PageKind
  /-- The number of entries in the slot directory, empty ones included. -/
  slotCount : UInt16
  /-- The offset at which the record content starts. -/
  contentStart : UInt16
  /-- The bytes inside the record content that belong to deleted records. -/
  fragmented : UInt16
  /-- The number of this page. -/
  page : PageId
  /-- The next page of the chain. -/
  next : Option PageId
deriving DecidableEq

namespace DataHeader

/-- The header of an empty data page. -/
def empty (page : PageId) : DataHeader where
  kind := .heapData
  slotCount := 0
  contentStart := UInt16.ofNat pageSize
  fragmented := 0
  page := page
  next := none

/-- The stored form of a header. -/
def encode (h : DataHeader) : Bytes :=
  [h.kind.toByte, 0] ++ bigEndian 2 h.slotCount.toNat ++ bigEndian 2 h.contentStart.toNat ++
    bigEndian 2 h.fragmented.toNat ++ bigEndian 4 h.page.val.toNat ++
    bigEndian 4 (PageId.toLink h.next).toNat

@[simp] theorem length_encode (h : DataHeader) : h.encode.length = dataHeaderSize := by
  simp [encode]

variable {n : Nat}

/-- The header stored at the start of a buffer, if there is one. -/
def read? (b : Block n) : Option DataHeader :=
  if n < dataHeaderSize then none
  else (PageKind.ofByte? (b.byteAt 0)).map fun kind =>
    { kind := kind
      slotCount := UInt16.ofNat (b.number 2 2)
      contentStart := UInt16.ofNat (b.number 4 2)
      fragmented := UInt16.ofNat (b.number 6 2)
      page := ⟨UInt32.ofNat (b.number 8 4)⟩
      next := PageId.ofLink? (UInt32.ofNat (b.number 12 4)) }

/-- Stores a header at the start of a buffer that has room for it. -/
def write (h : DataHeader) (b : Block n) : Result (Block n) :=
  if n < dataHeaderSize then .stop .outOfRange else .ok (b.overwrite 0 h.encode)

/-- A header is read back as it was written, unless it links to the number of no page. -/
theorem read?_write {h : DataHeader} {b c : Block n} (valid : h.next ≠ some .invalid)
    (written : h.write b = .ok c) : read? c = some h := by
  unfold write at written
  split at written
  · cases written
  · next room =>
    obtain rfl := Except.ok.inj written
    have size : 16 ≤ n := Nat.le_of_not_lt room
    have field (before after : Bytes) (width k : Nat) (place : before.length + width ≤ n)
        (split : h.encode = before ++ bigEndian width k ++ after) :
        (b.overwrite 0 h.encode).number before.length width = k % valueCount width := by
      have := b.number_overwrite_field 0 width k before after (by omega)
      rwa [Nat.zero_add, ← split] at this
    have kind : (b.overwrite 0 h.encode).byteAt 0 = h.kind.toByte := by
      rw [Block.byteAt_overwrite _ _ _ _ (by omega)]
      simp [encode]
    have slotCount := field [h.kind.toByte, 0] _ 2 h.slotCount.toNat
      (by simp; omega) (by simp only [encode, List.append_assoc]; rfl)
    have contentStart := field ([h.kind.toByte, 0] ++ bigEndian 2 h.slotCount.toNat) _ 2
      h.contentStart.toNat (by simp; omega) (by simp only [encode, List.append_assoc]; rfl)
    have fragmented := field ([h.kind.toByte, 0] ++ bigEndian 2 h.slotCount.toNat ++
        bigEndian 2 h.contentStart.toNat) _ 2 h.fragmented.toNat
      (by simp; omega) (by simp only [encode, List.append_assoc]; rfl)
    have page := field ([h.kind.toByte, 0] ++ bigEndian 2 h.slotCount.toNat ++
        bigEndian 2 h.contentStart.toNat ++ bigEndian 2 h.fragmented.toNat) _ 4 h.page.val.toNat
      (by simp; omega) (by simp only [encode, List.append_assoc]; rfl)
    have next := field ([h.kind.toByte, 0] ++ bigEndian 2 h.slotCount.toNat ++
        bigEndian 2 h.contentStart.toNat ++ bigEndian 2 h.fragmented.toNat ++
        bigEndian 4 h.page.val.toNat) [] 4 (PageId.toLink h.next).toNat
      (by simp; omega) (by simp only [encode, List.append_assoc, List.append_nil])
    simp at slotCount contentStart fragmented page next
    simp [read?, room, kind, slotCount, contentStart, fragmented, page, next,
      PageId.ofLink?_toLink valid]

/-- The end of the slot directory. -/
def directoryEnd (h : DataHeader) : Nat := dataHeaderSize + h.slotCount.toNat * slotSize

/-- The bytes between the slot directory and the record content. -/
def freeSpace (h : DataHeader) : Nat := h.contentStart.toNat - h.directoryEnd

end DataHeader

end PagedHeap
