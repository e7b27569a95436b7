import PagedHeap.Filter.Basic
import PagedHeap.Heap.File

/-!
# Scans

A scan walks the chain of data pages and stops at each record that passes its filter. It remembers
the page and the record on which it stands, and goes on after that record, whether or not the record
is still there. A position can be marked and returned to.
-/

namespace PagedHeap

/-- A position of a scan. -/
structure ScanMark where
  /-- The page from which the scan goes on. -/
  position : Option PageId
  /-- The record on which it stands. -/
  record : Option RecordId
deriving DecidableEq

/-- An open heap file that is being scanned. -/
structure Scan where
  /-- The open file. -/
  heap : HeapFile
  /-- The condition on the records. -/
  filter : Option Filter
  /-- The marked position. -/
  mark : Option ScanMark
deriving DecidableEq

/-- The scan of an open file from its start, without a filter. -/
def Scan.start (heap : HeapFile) : Scan := ⟨heap, none, none⟩

/-- The first of the given slots whose record passes a filter. A record that cannot be read ends the
search with its error. -/
def SlottedPage.findPassing (p : SlottedPage) (filter : Option Filter) :
    List SlotId → Result (Option SlotId)
  | [] => .ok none
  | slot :: slots => do
    if passes filter (← p.get slot) then return some slot else p.findPassing filter slots

namespace HeapFile

variable {σ : Type}

/-- The position of a scan. -/
def mark (h : HeapFile) : ScanMark := ⟨h.position, h.record⟩

/-- The first slot that a scan looks at on a page: that after the current record, if it stands on
the page, otherwise the first. -/
def scanStart (h : HeapFile) (page : PageId) : Nat :=
  match h.record with
  | some rid => if rid.page = page then rid.slot.toNat + 1 else 0
  | none => 0

/-- The current record, if its page is the current one. -/
def currentRecord : HeapAction σ RecordId := do
  let heap := (← get).heap
  match heap.record with
  | some rid =>
    if heap.currentPage? = some rid.page then return rid else Action.refuse .noCurrentRecord
  | none => Action.refuse .noCurrentRecord

/-- Reads the current record. -/
def readCurrent : HeapAction σ Bytes := do
  let rid ← currentRecord
  let page ← currentPage
  Action.ofResult (page.get rid.slot)

/-- Changes the current record in place. -/
def modifyCurrent (edit : Edit) : HeapAction σ Unit := do
  let rid ← currentRecord
  updatePage fun page => (page.modify rid.slot edit).map (Prod.mk ())

/-- Deletes the current record. -/
def deleteCurrent : HeapAction σ Unit := do
  let rid ← currentRecord
  updatePage fun page => (page.delete rid.slot).map (Prod.mk ())
  updateHeader fun h => .ok { h with recordCount := UInt32.ofNat (h.recordCount.toNat - 1) }

/-- The current page counts as changed. -/
def markDirty : HeapAction σ Unit :=
  modifyHeap fun h => { h with current := h.current.map Pin.markDirty }

variable [PageStore σ]

/-- Looks through the rest of one page. The answer is the record found or else the next page. -/
def scanPage (filter : Option Filter) (page : PageId) :
    HeapAction σ (RecordId ⊕ Option PageId) := do
  switchTo page
  let start := (← get).heap.scanStart page
  let data ← currentPage
  match ← Action.ofResult (data.findPassing filter (data.slotsFrom start)) with
  | some slot =>
    modifyHeap fun h => { h with record := some ⟨page, slot⟩ }
    return .inl ⟨page, slot⟩
  | none =>
    modifyHeap fun h => { h with record := none }
    return .inr data.next

/-- Looks through the chain from a page on, through at most `steps` pages. -/
def scanChain (filter : Option Filter) : (steps : Nat) → Option PageId →
    HeapAction σ (Option RecordId)
  | _, none => do
    modifyHeap fun h => { h with position := none }
    return none
  | 0, some _ => Action.stop .endless
  | k + 1, some page => do
    match ← scanPage filter page with
    | .inl rid => return some rid
    | .inr next => scanChain filter k next

/-- The number of pages that a walk can visit before it must come to a page again: those of the file
and those in the pool. The page from which a scan goes on is looked at twice on a cyclic chain, once
from the current record on. -/
def walkBound : HeapAction σ Nat := do
  let s ← get
  let count ← onDatabase (Database.onFiles (PageStore.pageCount s.heap.file.id))
  return count.toNat + s.db.pool.size + 2

/-- Goes on to the next record that passes the filter; there is none at the end of the chain. -/
def scanNext (filter : Option Filter) : HeapAction σ (Option RecordId) := do
  let bound ← walkBound
  scanChain filter bound (← get).heap.position

/-- Goes back to the start of the chain and gives up the current page. -/
def endScan : HeapAction σ Unit :=
  Action.thenAlways releaseCurrent
    (modifyHeap fun h => { h with position := some h.firstPage, record := none })

/-- Goes back to a marked position. -/
def resetTo (mark : Option ScanMark) : HeapAction σ Unit := do
  match mark with
  | none => Action.refuse (.invalidOperation "reset_scan without mark_scan")
  | some mark =>
    match mark.position with
    | some page => switchTo page
    | none => modifyHeap fun h => { h with position := none }
    modifyHeap fun h => { h with record := mark.record }

end HeapFile

end PagedHeap
