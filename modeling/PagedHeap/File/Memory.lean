import PagedHeap.File.Store

/-!
# Files in memory

A store whose files are lists of pages. A file gets its number when it is made and keeps its pages
for those who still have it open after it was removed.
-/

namespace PagedHeap

/-- Files that live in memory. -/
structure MemoryFiles where
  /-- The pages of every file that was ever made; the first stands for the store's own page. -/
  contents : Table FileId (Array Page)
  /-- The files that can be opened. -/
  named : Table String FileId
  /-- The files that are open. -/
  opened : OpenTable
  /-- The number of the next file. -/
  nextId : UInt32

namespace MemoryFiles

/-- A store without files. -/
def empty : MemoryFiles := ⟨[], [], [], 1⟩

/-- The pages of a file. -/
def pages (s : MemoryFiles) (file : FileId) : Array Page := (s.contents.find? file).getD #[]

/-- The pages of a file, its own page included. -/
def readPages (file : FileId) : Action MemoryFiles (Array Page) := do return (← get).pages file

/-- Reads a page. -/
def readPage (file : FileId) (page : PageId) : Action MemoryFiles Page := do
  let pages ← readPages file
  Action.ofResult (page.check pages.size)
  match pages[page.val.toNat]? with
  | some data => return data
  | none => Action.stop .outOfRange

/-- Writes a page. The size of the data is checked before the number of the page. -/
def writePage {n : Nat} (file : FileId) (page : PageId) (data : Block n) :
    Action MemoryFiles Unit := do
  let data ← Action.ofResult (Page.ofBlock data)
  let pages ← readPages file
  Action.ofResult (page.check pages.size)
  modify fun s =>
    { s with contents := s.contents.adjust file (·.setIfInBounds page.val.toNat data) }

/-- Adds a page of zeros. -/
def allocatePage (file : FileId) : Action MemoryFiles PageId := do
  let pages ← readPages file
  modify fun s => { s with contents := s.contents.adjust file (·.push (Block.zero pageSize)) }
  return ⟨UInt32.ofNat pages.size⟩

/-- The number of pages. -/
def pageCount (file : FileId) : Action MemoryFiles UInt32 := do
  return UInt32.ofNat (← readPages file).size

/-- Makes an empty file. -/
def create (name : String) : Action MemoryFiles Unit := do
  Action.ofResult (FileName.check name)
  let s ← get
  if s.named.has name then Action.refuse (.fileExists name)
  else
    let nextId ← Action.ofResult (count32 (s.nextId.toNat + 1))
    set { s with
      contents := s.contents.put ⟨s.nextId⟩ #[Block.zero pageSize]
      named := s.named.put name ⟨s.nextId⟩
      nextId := nextId }

/-- Opens a file. -/
def openFile (name : String) : Action MemoryFiles FileHandle := do
  Action.ofResult (FileName.check name)
  let s ← get
  match s.opened.reopen? name with
  | some (file, opened) =>
    set { s with opened := opened }
    return file
  | none =>
    match s.named.find? name with
    | none => Action.refuse (.fileNotFound name)
    | some id =>
      let file : FileHandle := ⟨id, name⟩
      set { s with opened := s.opened.enter file }
      return file

/-- Gives back one opening. -/
def close (file : FileHandle) : Action MemoryFiles Unit := do
  let s ← get
  let (_, opened) ← Action.ofResult (s.opened.release file)
  set { s with opened := opened }

/-- Removes a file that is not open. -/
def destroy (name : String) : Action MemoryFiles Unit := do
  Action.ofResult (FileName.check name)
  let s ← get
  if s.opened.has name then Action.refuse (.fileOpen name)
  else if s.named.has name then set { s with named := s.named.erase name }
  else Action.refuse (.fileNotFound name)

/-- Whether there is a file of this name. -/
def hasFile (name : String) : Action MemoryFiles Bool := do return (← get).named.has name

instance : FileStore MemoryFiles where
  readPage := readPage
  writePage := writePage
  allocatePage := allocatePage
  pageCount := pageCount
  sync _ := pure ()
  create := create
  openFile := openFile
  close := close
  destroy := destroy
  hasFile := hasFile

end MemoryFiles

end PagedHeap
