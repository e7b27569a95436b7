import PagedHeap.File.Image
import PagedHeap.File.Store

/-!
# Files in a directory

A store whose files are kept in a directory. Opening a file reads its header, and from then on the
header is remembered: it is written back whenever a page is allocated and whenever the file is
synced. A file that is removed from the directory stays readable for those who still have it open.
-/

namespace PagedHeap

/-- The files of a directory by name. -/
abbrev Directory := Table String FileImage

/-- A file as it is remembered after it was opened. -/
structure OpenFile where
  /-- Which image holds its bytes. -/
  image : Nat
  /-- The header as it was last read or changed. -/
  header : FileHeader
deriving DecidableEq

/-- Files in a directory. -/
structure DiskFiles where
  /-- The bytes of every file that is or was in the directory. -/
  images : Array FileImage
  /-- The images of the files that are in the directory. -/
  named : Table String Nat
  /-- Every file that was ever opened. -/
  files : Table FileId OpenFile
  /-- The files that are open. -/
  opened : OpenTable
  /-- The number of the next file that is opened. -/
  nextId : UInt32

namespace DiskFiles

/-- The store that finds the given files in its directory. -/
def ofDirectory (d : Directory) : DiskFiles where
  images := (d.map Prod.snd).toArray
  named := (d.map Prod.fst).zipIdx
  files := []
  opened := []
  nextId := 1

/-- The image with a number. -/
def image (s : DiskFiles) (i : Nat) : FileImage := (s.images[i]?).getD .empty

/-- The files that are in the directory. -/
def directory (s : DiskFiles) : Directory := s.named.map fun (name, i) => (name, s.image i)

/-- The file of a name in the directory. -/
def imageNamed? (s : DiskFiles) (name : String) : Option FileImage :=
  (s.named.find? name).map s.image

/-- Puts a file into the directory or replaces its bytes. -/
def putImage (s : DiskFiles) (name : String) (f : FileImage) : DiskFiles :=
  match s.named.find? name with
  | some i => { s with images := s.images.setIfInBounds i f }
  | none => { s with images := s.images.push f, named := s.named.put name s.images.size }

/-- A file that was opened. -/
def openFileOf (file : FileId) : Action DiskFiles OpenFile := do
  match (← get).files.find? file with
  | some f => return f
  | none => Action.refuse .io

/-- Writes a page of an image. -/
def storePage (image : Nat) (i : Nat) (page : Page) : Action DiskFiles Unit :=
  modify fun s => { s with images := s.images.modify image (·.writePage i page) }

/-- Writes the remembered header into page zero. -/
def flushHeader (file : FileId) : Action DiskFiles Unit := do
  let f ← openFileOf file
  storePage f.image 0 f.header.toPage

/-- Reads a page. -/
def readPage (file : FileId) (page : PageId) : Action DiskFiles Page := do
  let f ← openFileOf file
  Action.ofResult (page.check f.header.pageCount.toNat)
  match ((← get).image f.image).page? page.val.toNat with
  | some data => return data
  | none => Action.refuse .io

/-- Writes a page. The number of the page is checked before the size of the data. -/
def writePage {n : Nat} (file : FileId) (page : PageId) (data : Block n) :
    Action DiskFiles Unit := do
  let f ← openFileOf file
  Action.ofResult (page.check f.header.pageCount.toNat)
  let data ← Action.ofResult (Page.ofBlock data)
  storePage f.image page.val.toNat data

/-- Adds a page of zeros. -/
def allocatePage (file : FileId) : Action DiskFiles PageId := do
  let f ← openFileOf file
  let (page, header) ← Action.ofResult f.header.allocate
  modify fun s => { s with files := s.files.put file { f with header := header } }
  storePage f.image page.val.toNat (Block.zero pageSize)
  flushHeader file
  return page

/-- The number of pages. -/
def pageCount (file : FileId) : Action DiskFiles UInt32 := do
  return (← openFileOf file).header.pageCount

/-- Makes an empty file. -/
def create (name : String) : Action DiskFiles Unit := do
  Action.ofResult (FileName.check name)
  let s ← get
  if s.named.has name then Action.refuse (.fileExists name)
  else set (s.putImage name .fresh)

/-- Opens a file. -/
def openFile (name : String) : Action DiskFiles FileHandle := do
  Action.ofResult (FileName.check name)
  let s ← get
  match s.opened.reopen? name with
  | some (file, opened) =>
    set { s with opened := opened }
    return file
  | none =>
    match s.named.find? name with
    | none => Action.refuse (.fileNotFound name)
    | some i =>
      let header ← Action.ofResult ((s.image i).readHeader name)
      let nextId ← Action.ofResult (count32 (s.nextId.toNat + 1))
      let file : FileHandle := ⟨⟨s.nextId⟩, name⟩
      set { s with
        files := s.files.put file.id ⟨i, header⟩
        opened := s.opened.enter file
        nextId := nextId }
      return file

/-- Gives back one opening. The last one writes the header back. -/
def close (file : FileHandle) : Action DiskFiles Unit := do
  let s ← get
  let (last, opened) ← Action.ofResult (s.opened.release file)
  set { s with opened := opened }
  if last then flushHeader file.id

/-- Removes a file that is not open. -/
def destroy (name : String) : Action DiskFiles Unit := do
  Action.ofResult (FileName.check name)
  let s ← get
  if s.opened.has name then Action.refuse (.fileOpen name)
  else if s.named.has name then set { s with named := s.named.erase name }
  else Action.refuse (.fileNotFound name)

/-- Whether there is a file of this name. -/
def hasFile (name : String) : Action DiskFiles Bool := do
  return FileName.isValid name && (← get).named.has name

instance : FileStore DiskFiles where
  readPage := readPage
  writePage := writePage
  allocatePage := allocatePage
  pageCount := pageCount
  sync := flushHeader
  create := create
  openFile := openFile
  close := close
  destroy := destroy
  hasFile := hasFile

end DiskFiles

end PagedHeap
