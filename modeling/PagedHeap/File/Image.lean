import PagedHeap.File.Header
import PagedHeap.Table

/-!
# The bytes of a file

A file in a directory is a string of bytes of any length. It is kept in chunks of the size of a
page, and a chunk that was never written reads as zeros: `FileImage.bytes` is the string that the
chunks stand for, and reading and writing a page touches one chunk only.
-/

namespace PagedHeap

/-- The bytes of a file. -/
structure FileImage where
  /-- The chunks that were written, by their position; past the end of the file they hold zeros. -/
  chunks : Table Nat Page
  /-- The length of the file. -/
  size : Nat
deriving DecidableEq

namespace FileImage

/-- The length of a file that has every page for which there is a number. -/
def maxSize : Nat := (UInt32.size - 1) * pageSize

/-- The file of length zero. -/
def empty : FileImage := ⟨[], 0⟩

/-- The chunk at a position. -/
def chunk (f : FileImage) (i : Nat) : Page := (f.chunks.find? i).getD (Block.zero pageSize)

/-- The number of chunks that bytes of the given number take. -/
def chunkCount (size : Nat) : Nat := (size + pageSize - 1) / pageSize

/-- The bytes of the file. -/
def bytes (f : FileImage) : Bytes :=
  ((List.range (chunkCount f.size)).flatMap fun i => (f.chunk i).bytes).take f.size

/-- Cuts a string of bytes into `count` chunks, the first of them at position `i`, and fills up the
last one with zeros. -/
def cut (i : Nat) : (count : Nat) → Bytes → Table Nat Page
  | 0, _ => []
  | k + 1, bytes => (i, Page.ofBytes (bytes.take pageSize)) :: cut (i + 1) k (bytes.drop pageSize)

/-- The file with the given bytes. -/
def ofBytes (bytes : Bytes) : FileImage := ⟨cut 0 (chunkCount bytes.length) bytes, bytes.length⟩

/-- The file that holds only the header of a file without pages. -/
def fresh : FileImage := ⟨[(0, FileHeader.fresh.toPage)], pageSize⟩

/-- The page at a position, if the file is long enough. -/
def page? (f : FileImage) (i : Nat) : Option Page :=
  if (i + 1) * pageSize ≤ f.size then some (f.chunk i) else none

/-- The file with a page written at a position. A gap before it reads as zeros. -/
def writePage (f : FileImage) (i : Nat) (page : Page) : FileImage where
  chunks := f.chunks.put i page
  size := max f.size ((i + 1) * pageSize)

/-- The file cut or extended with zeros to the given length. -/
def resize (f : FileImage) (size : Nat) : FileImage where
  chunks := f.chunks.filterMap fun (i, page) =>
    if i * pageSize < size then some (i, Page.ofBytes (page.bytes.take (size - i * pageSize)))
    else none
  size := size

/-- The chunk at a position after bytes are written into the file at an offset. -/
def overwriteChunk (f : FileImage) (offset : Nat) (bytes : Bytes) (i : Nat) : Page :=
  if i * pageSize ≤ offset then (f.chunk i).overwrite (offset - i * pageSize) bytes
  else (f.chunk i).overwrite 0 (bytes.drop (i * pageSize - offset))

/-- The file with bytes written at an offset. A gap before them reads as zeros. -/
def writeBytes (f : FileImage) (offset : Nat) (bytes : Bytes) : FileImage :=
  if bytes.isEmpty then f
  else
    let first := offset / pageSize
    let touched := List.range' first (chunkCount (offset + bytes.length) - first)
    { chunks := touched.foldl (fun t i => t.put i (f.overwriteChunk offset bytes i)) f.chunks
      size := max f.size (offset + bytes.length) }

/-- Reads the header of the file called `name`. -/
def readHeader (f : FileImage) (name : String) : Result FileHeader :=
  if f.size < pageSize then .refuse (.invalidDatabaseFile s!"{name} is shorter than one page")
  else FileHeader.read (f.chunk 0)

end FileImage

end PagedHeap
