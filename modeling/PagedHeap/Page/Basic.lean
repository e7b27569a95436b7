import PagedHeap.Error

/-!
# Pages

Files are read and written in pages of one size. The first byte of a page says what it holds.
-/

namespace PagedHeap

/-- The size of a page in bytes. -/
abbrev pageSize : Nat := 4096

/-- The bytes of one page. -/
abbrev Page := Block pageSize

/-- The page that starts with the given bytes: zeros are appended, what does not fit is left out. -/
def Page.ofBytes (bytes : Bytes) : Page := (Block.zero pageSize).overwrite 0 bytes

/-- What a page holds. -/
inductive PageKind where
  /-- Allocated and never written. -/
  | free
  /-- The header page of a heap file. -/
  | heapHeader
  /-- Records of a heap file. -/
  | heapData
deriving DecidableEq

namespace PageKind

/-- The kind that a page's first byte stands for. -/
def ofByte? (b : UInt8) : Option PageKind :=
  if b = 0x00 then some .free
  else if b = 0x01 then some .heapHeader
  else if b = 0x0D then some .heapData
  else none

/-- The first byte of a page of this kind. -/
def toByte : PageKind → UInt8
  | .free => 0x00
  | .heapHeader => 0x01
  | .heapData => 0x0D

/-- The name of a kind in messages. -/
def text : PageKind → String
  | .free => "Free"
  | .heapHeader => "HeapHeader"
  | .heapData => "HeapData"

@[simp] theorem ofByte?_toByte (k : PageKind) : ofByte? k.toByte = some k := by
  cases k <;> rfl

theorem toByte_of_ofByte? {b : UInt8} {k : PageKind} (h : ofByte? b = some k) : k.toByte = b := by
  unfold ofByte? at h
  split at h
  · cases h; simp_all [toByte]
  · split at h
    · cases h; simp_all [toByte]
    · split at h
      · cases h; simp_all [toByte]
      · cases h

end PageKind

end PagedHeap
