import PagedHeap.Checksum
import PagedHeap.File.Name
import PagedHeap.Page.Basic

/-!
# The header of a heap file

The first page of a heap file names it and tells where its chain of data pages starts and ends. All
numbers are stored most significant byte first:

| offset | size | content                         |
|--------|------|---------------------------------|
| 0      | 1    | kind of the page                |
| 1      | 3    | zero                            |
| 4      | 8    | `HEAPFILE`                      |
| 12     | 1    | length of the file's name       |
| 13     | 64   | the name, padded with zeros     |
| 77     | 4    | number of data pages            |
| 81     | 4    | number of live records          |
| 85     | 4    | first data page                 |
| 89     | 4    | last data page                  |
| 93     | 4    | checksum of the bytes before    |
-/

namespace PagedHeap

/-- The header of a heap file. -/
structure HeapHeader where
  /-- The name under which the file was made. -/
  fileName : String
  /-- The number of data pages. -/
  pageCount : UInt32
  /-- The number of live records. -/
  recordCount : UInt32
  /-- The first page of the chain. -/
  firstPage : PageId
  /-- The last page of the chain. -/
  lastPage : PageId
deriving DecidableEq

namespace HeapHeader

/-- The mark of a heap file's header page, `HEAPFILE`. -/
def magic : Bytes := [0x48, 0x45, 0x41, 0x50, 0x46, 0x49, 0x4C, 0x45]

/-- The number of bytes that the checksum covers. -/
def checkedSize : Nat := 93

/-- The size of the stored header, checksum included. -/
def encodedSize : Nat := checkedSize + 4

/-- The header of a new file with one empty data page. -/
def new (fileName : String) (firstPage : PageId) : Result HeapHeader :=
  if fileName.isEmpty || maxFileNameSize < fileName.utf8ByteSize then
    .refuse (.invalidFileName fileName)
  else .ok ⟨fileName, 1, 0, firstPage, firstPage⟩

/-- The bytes of the name that are stored. -/
def nameBytes (h : HeapHeader) : Bytes := h.fileName.toUTF8.data.toList.take maxFileNameSize

/-- The bytes that the checksum covers. -/
def checkedBytes (h : HeapHeader) : Bytes :=
  [PageKind.heapHeader.toByte, 0, 0, 0] ++ magic ++ [UInt8.ofNat h.nameBytes.length] ++
    (h.nameBytes ++ List.replicate (maxFileNameSize - h.nameBytes.length) 0) ++
    bigEndian 4 h.pageCount.toNat ++ bigEndian 4 h.recordCount.toNat ++
    bigEndian 4 h.firstPage.val.toNat ++ bigEndian 4 h.lastPage.val.toNat

/-- The stored form of a header. -/
def encode (h : HeapHeader) : Bytes :=
  h.checkedBytes ++ bigEndian 4 (crc32 h.checkedBytes).toNat

variable {n : Nat}

/-- The header stored at the start of a buffer. -/
def read (b : Block n) : Result HeapHeader :=
  let nameSize := (b.byteAt 12).toNat
  let first : PageId := ⟨UInt32.ofNat (b.number 85 4)⟩
  let last : PageId := ⟨UInt32.ofNat (b.number 89 4)⟩
  if n < encodedSize then .refuse (.invalidDatabaseFile "heap header too short")
  else if PageKind.ofByte? (b.byteAt 0) ≠ some .heapHeader ∨ b.slice 4 8 ≠ magic then
    .refuse (.invalidDatabaseFile "not a heap file header page")
  else if UInt32.ofNat (b.number checkedSize 4) ≠ crc32 (b.slice 0 checkedSize) then
    .refuse (.corruption "heap header checksum mismatch")
  else if nameSize = 0 ∨ maxFileNameSize < nameSize then
    .refuse (.corruption s!"heap header file name length {nameSize}")
  else
    match String.fromUTF8? ⟨(b.slice 13 nameSize).toArray⟩ with
    | none => .refuse (.corruption "heap header file name is not UTF-8")
    | some name =>
      if !first.isValid || !last.isValid then
        .refuse (.corruption "heap header has no data pages")
      else .ok ⟨name, UInt32.ofNat (b.number 77 4), UInt32.ofNat (b.number 81 4), first, last⟩

/-- Stores a header at the start of a buffer. The rest of its first page is cleared. -/
def write (h : HeapHeader) (b : Block n) : Result (Block n) :=
  if n < encodedSize then .stop .outOfRange
  else .ok ((b.overwrite 0 (List.replicate pageSize 0)).overwrite 0 h.encode)

end HeapHeader

end PagedHeap
