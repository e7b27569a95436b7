import PagedHeap.Action
import PagedHeap.File.Name
import PagedHeap.Page.Basic
import PagedHeap.Table

/-!
# Stores of files

What the rest of the library needs from the place where the files are: reading and writing the pages
of an open file (`PageStore`), and making, opening, closing and removing files by name
(`FileStore`). A name that is already open is opened again as the same file, and the file stays open
until it was closed as often as it was opened (`OpenTable`).
-/

namespace PagedHeap

/-- Access to the pages of the files that are open. Page zero is the store's own; the others are
numbered from one in the order in which they were allocated. -/
class PageStore (σ : Type) where
  /-- Reads a page. -/
  readPage : FileId → PageId → Action σ Page
  /-- Writes a page; the data must have the size of a page. -/
  writePage : {n : Nat} → FileId → PageId → Block n → Action σ Unit
  /-- Adds a page of zeros to the end of the file. -/
  allocatePage : FileId → Action σ PageId
  /-- The number of pages, page zero included. -/
  pageCount : FileId → Action σ UInt32
  /-- Brings the file up to date with everything that was written. -/
  sync : FileId → Action σ Unit

/-- The first page behind the store's own. -/
def PageStore.firstPage {σ : Type} [PageStore σ] (file : FileId) : Action σ PageId := do
  let count ← pageCount file
  if 1 < count.toNat then return ⟨1⟩ else Action.refuse (.pageNotFound ⟨1⟩)

/-- An open file. -/
structure FileHandle where
  /-- The number under which it is open. -/
  id : FileId
  /-- The name under which it was opened. -/
  name : String
deriving DecidableEq

/-- Files by name. -/
class FileStore (σ : Type) extends PageStore σ where
  /-- Makes an empty file. -/
  create : String → Action σ Unit
  /-- Opens a file. -/
  openFile : String → Action σ FileHandle
  /-- Gives back one opening of a file. -/
  close : FileHandle → Action σ Unit
  /-- Removes a file that is not open. -/
  destroy : String → Action σ Unit
  /-- Whether there is a file of this name. -/
  hasFile : String → Action σ Bool

/-! ## The table of open files -/

/-- A file that is open and how often it was opened. -/
structure OpenEntry where
  /-- The open file. -/
  file : FileHandle
  /-- The number of openings that were not given back.  There is one for each handle at most
  (`Session.Course.counters_lt`), so that no counter is too short for them. -/
  openings : Nat
deriving DecidableEq

/-- The files that are open, by name. -/
abbrev OpenTable := Table String OpenEntry

namespace OpenTable

/-- Opens a file again that is already open. -/
def reopen? (t : OpenTable) (name : String) : Option (FileHandle × OpenTable) :=
  (t.find? name).map fun entry =>
    (entry.file, t.put name { entry with openings := entry.openings + 1 })

/-- Enters a file that was not open. -/
def enter (t : OpenTable) (file : FileHandle) : OpenTable := t.put file.name ⟨file, 1⟩

/-- Gives back one opening. The answer tells whether it was the last one. -/
def release (t : OpenTable) (file : FileHandle) : Result (Bool × OpenTable) :=
  match t.find? file.name with
  | some entry =>
    if entry.file.id = file.id then
      if entry.openings ≤ 1 then .ok (true, t.erase file.name)
      else .ok (false, t.put file.name { entry with openings := entry.openings - 1 })
    else .refuse (.invalidOperation s!"file {file.name} is not open")
  | none => .refuse (.invalidOperation s!"file {file.name} is not open")

end OpenTable

/-! ## Checks that every store makes -/

/-- Refuses the pages that callers cannot access in a file of the given size. -/
def PageId.check (page : PageId) (pageCount : Nat) : Result Unit :=
  if page = .header then .refuse (.invalidOperation "cannot access file header page directly")
  else if pageCount ≤ page.val.toNat then .refuse (.pageNotFound page)
  else .ok ()

/-- The data as a page, if it has the size of one. -/
def Page.ofBlock {n : Nat} (data : Block n) : Result Page :=
  if h : n = pageSize then .ok (data.cast h)
  else .refuse (.invalidOperation s!"page data must be {pageSize} bytes, got {n}")

end PagedHeap
