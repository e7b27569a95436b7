import PagedHeap.Heap.File

/-!
# Inserting records

Records are inserted on the current page. When it is full the last page of the chain is tried, and
when that one is full, too, a new page is linked after it.
-/

namespace PagedHeap

namespace HeapFile

variable {σ : Type} [PageStore σ]

/-- Links a new empty page after the current page, which must be the last of its chain, and makes it
the current page. -/
def appendPage : HeapAction σ Unit := do
  let tail ← currentPage
  if tail.next.isSome then
    Action.refuse (.invalidOperation "current page is not the end of the chain")
  let pin ← onDatabase (Database.allocate (← get).heap.file.id)
  let link : HeapAction σ Unit := do
    let page ← Action.ofResult
      (SlottedPage.format (← onDatabase (Database.pageOf pin)) pin.key.page)
    onDatabase (Database.setPage pin page.data)
    updatePage fun page => .ok ((), page.setNext (some pin.key.page))
    updateHeader fun h => do
      let count ← count32 (h.pageCount.toNat + 1)
      return { h with lastPage := pin.key.page, pageCount := count }
    modifyHeap fun h => { h with current := h.current.map Pin.markDirty }
    releaseCurrent
  link.orClean (onDatabase (Database.drop pin))
  modifyHeap fun h =>
    { h with current := some pin, position := some pin.key.page, record := none }

/-- Tries to insert a record on the current page. There is no answer if the page is full. -/
def tryInsert (record : Bytes) : HeapAction σ (Option RecordId) := do
  match ← Action.attempt (updatePage fun page => page.insert record) with
  | .ok slot =>
    let rid : RecordId := ⟨(← currentPin).key.page, slot⟩
    modifyHeap fun h => { h with record := some rid }
    updateHeader fun h => do
      let count ← count32 (h.recordCount.toNat + 1)
      return { h with recordCount := count }
    return some rid
  | .error (.pageFull ..) => return none
  | .error e => Action.refuse e

/-- Goes on to a page with more room: the last page of the chain or, from there, a new one. -/
def advance : HeapAction σ Unit := do
  let last := (← header).lastPage
  if (← get).heap.currentPage? = some last then appendPage else switchTo last

/-- Inserts a record on the current page or on those that `advance` leads to, trying `attempts`
pages. -/
def insertWithin (record : Bytes) : (attempts : Nat) → HeapAction σ RecordId
  | 0 => Action.stop .endless
  | k + 1 => do
    match ← tryInsert record with
    | some rid => return rid
    | none =>
      advance
      insertWithin record k

/-- Inserts a record and answers its address. Three pages are enough: the current one, the last one
of the chain and a new one. -/
def insert (record : Bytes) : HeapAction σ RecordId := do
  if maxRecordSize < record.length then
    Action.refuse (.invalidRecordLength record.length maxRecordSize)
  else
    if (← get).heap.current.isNone then switchTo (← header).lastPage
    insertWithin record 3

end HeapFile

end PagedHeap
