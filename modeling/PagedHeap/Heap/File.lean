import PagedHeap.Heap.Header
import PagedHeap.Page.Slotted
import PagedHeap.Pool.Access

/-!
# Open heap files

A heap file is a header page and a chain of data pages. An open heap file keeps its header page
pinned, and at most one data page besides, the current page. Its position is the page from which a
scan goes on and the record on which it stands; the position stays when the current page is given
up.
-/

namespace PagedHeap

/-- An open heap file. -/
structure HeapFile where
  /-- The file. -/
  file : FileHandle
  /-- The name stored in the file's header. -/
  name : String
  /-- The first page of the chain. -/
  firstPage : PageId
  /-- The hold on the header page. -/
  headerPin : Pin
  /-- The hold on the current page. -/
  current : Option Pin
  /-- The page from which a scan goes on; none at the end of the chain. -/
  position : Option PageId
  /-- The record on which a scan or an insert stands. -/
  record : Option RecordId
deriving DecidableEq

/-- An open heap file together with the database that has its pages. -/
structure HeapState (σ : Type) where
  /-- The database. -/
  db : Database σ
  /-- The open file. -/
  heap : HeapFile

/-- An operation on an open heap file. -/
abbrev HeapAction (σ : Type) := Action (HeapState σ)

namespace HeapFile

variable {σ α : Type}

/-- The page of the current pin. -/
def currentPage? (h : HeapFile) : Option PageId := h.current.map fun pin => pin.key.page

/-- Runs an action on the database. -/
def onDatabase (action : Action (Database σ) α) : HeapAction σ α :=
  Action.onPart HeapState.db (fun db s => { s with db := db }) action

/-- Changes what is remembered about the open file. -/
def modifyHeap (f : HeapFile → HeapFile) : HeapAction σ Unit :=
  modify fun s => { s with heap := f s.heap }

/-! ## The header -/

/-- The header of the file, with the changes made through other handles. -/
def header : HeapAction σ HeapHeader := do
  let page ← onDatabase (Database.pageOf (← get).heap.headerPin)
  Action.ofResult (HeapHeader.read page)

/-- Changes the header. The header page counts as changed even if that fails. -/
def updateHeader (f : HeapHeader → Result HeapHeader) : HeapAction σ Unit := do
  modifyHeap fun h => { h with headerPin := h.headerPin.markDirty }
  let pin := (← get).heap.headerPin
  let page ← onDatabase (Database.pageOf pin)
  let old ← Action.ofResult (HeapHeader.read page)
  let new ← Action.ofResult (f old)
  let page ← Action.ofResult (new.write page)
  onDatabase (Database.setPage pin page)

/-! ## The current page -/

/-- The hold on the current page. -/
def currentPin : HeapAction σ Pin := do
  match (← get).heap.current with
  | some pin => return pin
  | none => Action.refuse (.invalidOperation "no data page is pinned")

/-- The current page. -/
def currentPage : HeapAction σ SlottedPage := do
  let page ← onDatabase (Database.pageOf (← currentPin))
  Action.ofResult (SlottedPage.read page)

/-- Changes the current page. It counts as changed even if that fails. -/
def updatePage (f : SlottedPage → Result (α × SlottedPage)) : HeapAction σ α := do
  let pin := (← currentPin).markDirty
  modifyHeap fun h => { h with current := some pin }
  let page ← onDatabase (Database.pageOf pin)
  let page ← Action.ofResult (SlottedPage.read page)
  let (a, page) ← Action.ofResult (f page)
  onDatabase (Database.setPage pin page.data)
  return a

variable [PageStore σ]

/-- Gives up the current page. -/
def releaseCurrent : HeapAction σ Unit := do
  match (← get).heap.current with
  | none => pure ()
  | some pin =>
    modifyHeap fun h => { h with current := none }
    onDatabase (Database.release pin)

/-- Makes a page the current one. -/
def switchTo (page : PageId) : HeapAction σ Unit := do
  let heap := (← get).heap
  if heap.currentPage? ≠ some page then
    releaseCurrent
    let pin ← onDatabase (Database.pin heap.file.id page)
    modifyHeap fun h => { h with current := some pin }
  modifyHeap fun h => { h with position := some page }

/-- Reads the record at an address, which becomes the current record. -/
def getRecord (rid : RecordId) : HeapAction σ Bytes := do
  switchTo rid.page
  let page ← currentPage
  match page.get rid.slot with
  | .ok record =>
    modifyHeap fun h => { h with record := some rid }
    return record
  | .error _ => Action.refuse (.slotNotFound rid)

end HeapFile

/-! ## Opening and closing -/

namespace Database

variable {σ : Type}

/-- Pins the header page and the first data page of a heap file. -/
def pinFirstPages [PageStore σ] (file : FileHandle) : Action (Database σ) HeapFile := do
  let headerPin ← pin file.id (← onFiles (PageStore.firstPage file.id))
  let pinFirst : Action (Database σ) HeapFile := do
    let header ← Action.ofResult (HeapHeader.read (← pageOf headerPin))
    let firstPin ← pin file.id header.firstPage
    let check : Action (Database σ) Unit := do
      let _ ← Action.ofResult (SlottedPage.read (← pageOf firstPin))
    check.orClean (drop firstPin)
    return {
      file := file
      name := header.fileName
      firstPage := header.firstPage
      headerPin := headerPin
      current := some firstPin
      position := some header.firstPage
      record := none }
  pinFirst.orClean (drop headerPin)

variable [FileStore σ]

/-- Opens a heap file. -/
def openHeap (name : String) : Action (Database σ) HeapFile := do
  let file ← onFiles (FileStore.openFile name)
  (pinFirstPages file).orClean (onFiles (FileStore.close file))

/-- Closes a heap file: gives up its pages, writes its file back and closes it. Every step is taken
even if an earlier one was refused; the first refusal counts. -/
def closeHeap (h : HeapFile) : Action (Database σ) Unit :=
  let releaseCurrent := match h.current with
    | some pin => release pin
    | none => pure ()
  releaseCurrent
    |>.thenAlways (release h.headerPin)
    |>.thenAlways (flushFile h.file.id)
    |>.thenAlways (onFiles (FileStore.close h.file))

/-- Lays out a new file as a heap file: a header page and one empty data page. -/
def formatHeap (file : FileHandle) (name : String) : Action (Database σ) Unit := do
  let headerPin ← allocate file.id
  let firstPin ← (allocate file.id).orClean (drop headerPin)
  let write : Action (Database σ) Unit := do
    let first ← Action.ofResult (SlottedPage.format (← pageOf firstPin) firstPin.key.page)
    setPage firstPin first.data
    let header ← Action.ofResult (HeapHeader.new name firstPin.key.page)
    setPage headerPin (← Action.ofResult (header.write (← pageOf headerPin)))
  write.orClean do
    drop firstPin
    drop headerPin
  (release headerPin).orClean (drop firstPin)
  release firstPin
  flushFile file.id

/-- Makes an empty heap file. -/
def createHeap (name : String) : Action (Database σ) Unit := do
  onFiles (FileStore.create name)
  let file ← onFiles (FileStore.openFile name)
  (formatHeap file name).thenAlways (onFiles (FileStore.close file))

/-- Removes a heap file that is not open. -/
def destroyHeap (name : String) : Action (Database σ) Unit := onFiles (FileStore.destroy name)

end Database

end PagedHeap
