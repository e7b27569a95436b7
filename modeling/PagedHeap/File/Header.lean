import PagedHeap.Checksum
import PagedHeap.Page.Basic

/-!
# The header of a file

Page zero of a file says that it is one of this format and how many pages it has. All numbers are
stored most significant byte first:

| offset | size | content                              |
|--------|------|--------------------------------------|
| 0      | 16   | the format's name, padded with zeros |
| 16     | 4    | size of a page                       |
| 20     | 4    | number of pages, this one included   |
| 24     | 4    | checksum of the bytes before         |
-/

namespace PagedHeap

/-- The header of a file. -/
structure FileHeader where
  /-- The size of a page. -/
  pageSize : UInt32
  /-- The number of pages, the header page included. -/
  pageCount : UInt32
deriving DecidableEq

namespace FileHeader

/-- The first sixteen bytes of a file, `HeapStorageV01` and two zeros. -/
def magic : Bytes :=
  [0x48, 0x65, 0x61, 0x70, 0x53, 0x74, 0x6F, 0x72, 0x61, 0x67, 0x65, 0x56, 0x30, 0x31, 0, 0]

/-- The number of bytes that the checksum covers. -/
def checkedSize : Nat := 24

/-- The header of a file without further pages. -/
def fresh : FileHeader := ⟨UInt32.ofNat PagedHeap.pageSize, 1⟩

/-- The bytes that the checksum covers. -/
def checkedBytes (h : FileHeader) : Bytes :=
  magic ++ bigEndian 4 h.pageSize.toNat ++ bigEndian 4 h.pageCount.toNat

/-- The stored form of a header. -/
def encode (h : FileHeader) : Bytes :=
  h.checkedBytes ++ bigEndian 4 (crc32 h.checkedBytes).toNat

variable {n : Nat}

/-- The header stored at the start of a buffer. -/
def read (b : Block n) : Result FileHeader :=
  let size := UInt32.ofNat (b.number 16 4)
  let count := UInt32.ofNat (b.number 20 4)
  if n < checkedSize + 4 then .refuse (.invalidDatabaseFile "header too short")
  else if b.slice 0 16 ≠ magic then .refuse (.invalidDatabaseFile "invalid magic bytes")
  else if UInt32.ofNat (b.number checkedSize 4) ≠ crc32 (b.slice 0 checkedSize) then
    .refuse (.corruption "file header checksum mismatch")
  else if size ≠ UInt32.ofNat PagedHeap.pageSize then
    .refuse (.invalidDatabaseFile
      s!"unsupported page size: {size.toNat} (expected {PagedHeap.pageSize})")
  else if count = 0 then
    .refuse (.invalidDatabaseFile "page count must include the header page")
  else .ok ⟨size, count⟩

/-- Fills a page at the start of a buffer with a header. -/
def write (h : FileHeader) (b : Block n) : Result (Block n) :=
  if n < PagedHeap.pageSize then .stop .outOfRange
  else .ok ((b.overwrite 0 (List.replicate PagedHeap.pageSize 0)).overwrite 0 h.encode)

/-- Page zero of a file with this header. -/
def toPage (h : FileHeader) : Page := Page.ofBytes h.encode

/-- Counts one more page and answers its number. -/
def allocate (h : FileHeader) : Result (PageId × FileHeader) := do
  let count ← count32 (h.pageCount.toNat + 1)
  return (⟨h.pageCount⟩, { h with pageCount := count })

end FileHeader

end PagedHeap
