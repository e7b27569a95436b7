import PagedHeap.Heap.Describe
import PagedHeap.Heap.Insert
import PagedHeap.Heap.Scan
import PagedHeap.Session.Command

/-!
# Running a session

A session is a database and what is open on it. `Session.step` carries out one command; it is total
on every command and every state, and answers a trap only where the command itself stopped.
-/

namespace PagedHeap

/-- What is open under a name. -/
inductive Handle where
  /-- A heap file for reading. -/
  | heap (heap : HeapFile)
  /-- A scan. -/
  | scan (scan : Scan)
  /-- A heap file for inserting. -/
  | inserter (heap : HeapFile)
  /-- A file. -/
  | file (file : FileHandle)
  /-- A pinned page. -/
  | page (pin : Pin)

/-- A database and what is open on it. -/
structure Session (σ : Type) where
  /-- The database. -/
  db : Database σ
  /-- What is open, by name. -/
  handles : Table String Handle

/-- What can be seen of the pool from outside. -/
structure PoolStatus where
  /-- The number of frames in use. -/
  size : Nat
  /-- The number of pins on all pages. -/
  pinned : Nat
  /-- The pages in the pool with their pins, in the order of files and pages. -/
  frames : List (FrameKey × Nat)

/-- What can be seen of a pool. -/
def Pool.status (p : Pool) : PoolStatus where
  size := p.size
  pinned := p.pinned
  frames := (p.frames.map fun (key, frame) => (key, frame.pins)).mergeSort fun a b =>
    a.1.file.val < b.1.file.val ∨ a.1.file.val = b.1.file.val ∧ a.1.page.val ≤ b.1.page.val

/-- An operation of a session. -/
abbrev SessionAction (σ : Type) := Action (Session σ)

namespace Session

variable {σ α : Type}

/-- A session on a database on which nothing is open. -/
def start (files : σ) (capacity : Nat) : Session σ := ⟨⟨files, .empty capacity⟩, []⟩

/-- A session on new files, if there can be a pool of the given capacity. -/
def start? (files : σ) (capacity : Nat) : Except Trap (Session σ) :=
  if Pool.maxCapacity < capacity then .error .overflow else .ok (start files capacity)

/-- Runs an action on the database. -/
def onDatabase (action : Action (Database σ) α) : SessionAction σ α :=
  Action.onPart Session.db (fun db s => { s with db := db }) action

/-- Runs an action on the files. -/
def onFiles (action : Action σ α) : SessionAction σ α := onDatabase (Database.onFiles action)

/-- Runs an action on the heap file behind a handle. -/
def onHeap (handle : String) (heap : HeapFile) (wrap : HeapFile → Handle)
    (action : HeapAction σ α) : SessionAction σ α :=
  Action.onPart (fun s => ⟨s.db, heap⟩)
    (fun h s => { s with db := h.db, handles := s.handles.put handle (wrap h.heap) }) action

/-- Changes what is open. -/
def setHandle (handle : String) (value : Handle) : SessionAction σ Unit :=
  modify fun s => { s with handles := s.handles.put handle value }

/-- Forgets a handle. -/
def forgetHandle (handle : String) : SessionAction σ Unit :=
  modify fun s => { s with handles := s.handles.erase handle }

/-- The reply to what cannot be understood. -/
def unusable : SessionAction σ Reply := return .refused .unusable

variable [FileStore σ]

/-! ## Handles of heap files -/

/-- Closes a heap file after a scan. -/
def closeScan (heap : HeapFile) : Action (Database σ) Unit :=
  Action.onPart (fun db => ⟨db, heap⟩) (fun h _ => h.db) do
    HeapFile.endScan.thenAlways do
      HeapFile.onDatabase (Database.closeHeap (← get).heap)

/-- Closes a heap file after inserts: its current page counts as changed. -/
def closeInserter (heap : HeapFile) : Action (Database σ) Unit :=
  Database.closeHeap { heap with current := heap.current.map Pin.markDirty }

/-- The commands that every handle of a heap file understands, but for closing it. -/
def onAnyHeap (handle : String) (heap : HeapFile) (wrap : HeapFile → Handle) :
    HandleCommand → SessionAction σ Reply
  | .name => return .text heap.name
  | .recordCount => do
    let header ← onHeap handle heap wrap HeapFile.header
    return .number header.recordCount.toNat
  | .header => return .heapHeader (← onHeap handle heap wrap HeapFile.header)
  | .current => return .address heap.record
  | .describe => return .text heap.describe
  | _ => unusable

/-- The commands on a heap file that is open for reading. -/
def onLookup (handle : String) (heap : HeapFile) : HandleCommand → SessionAction σ Reply
  | .readAt record =>
    return .record (← onHeap handle heap .heap (HeapFile.getRecord record))
  | .close => do
    forgetHandle handle
    onDatabase (Database.closeHeap heap)
    return .done
  | .drop => do
    forgetHandle handle
    onDatabase (Action.quietly (Database.closeHeap heap))
    return .done
  | c => onAnyHeap handle heap .heap c

/-- The records of a bulk insert. -/
def bulkRecord (size : Nat) (number : Int32) : Bytes :=
  let unit := littleEndian 4 number.toUInt32.toNat
  ((List.replicate (size / 4 + 1) unit).flatten).take size

/-- Inserts records, counted up from `number`, until one is refused. A record that memory cannot
hold is a trap. -/
def insertMany (size : Nat) : (count : Nat) → (number : Int32) →
    HeapAction σ (List RecordId × Option StorageError)
  | 0, _ => return ([], none)
  | k + 1, number => do
    if maxBytesSize < size then Action.stop .overflow
    match ← Action.attempt (HeapFile.insert (bulkRecord size number)) with
    | .ok record =>
      let (records, stopped) ← insertMany size k (number + 1)
      return (record :: records, stopped)
    | .error e => return ([], some e)

/-- The commands on a heap file that is open for inserting. -/
def onInserter (handle : String) (heap : HeapFile) : HandleCommand → SessionAction σ Reply
  | .insert record =>
    return .address (some (← onHeap handle heap .inserter (HeapFile.insert record)))
  | .insertMany count size seed => do
    let (records, stopped) ← onHeap handle heap .inserter (insertMany size count seed)
    return .inserted records stopped
  | .close => do
    forgetHandle handle
    onDatabase (closeInserter heap)
    return .done
  | .drop => do
    forgetHandle handle
    onDatabase (Action.quietly (closeInserter heap))
    return .done
  | c => onAnyHeap handle heap .inserter c

/-! ## Scans -/

/-- The filter that the parameters of a scan describe. -/
def ScanRequest.resolve (r : ScanRequest) : Result (Option Filter) := do
  let datatype ← Datatype.ofText r.datatype
  let comparison ← Comparison.ofText r.comparison
  match r.value with
  | none => return none
  | some value => return some (← Filter.new r.offset r.length datatype value comparison)

/-- Reads at most `limit` records. An error of the scan ends the list, an error of reading a record
that the scan found is the whole answer. -/
def readRows (filter : Option Filter) : (limit : Nat) →
    HeapAction σ (List (RecordId × Bytes) × ScanEnd)
  | 0 => return ([], .limit)
  | k + 1 => do
    match ← Action.attempt (HeapFile.scanNext filter) with
    | .error e => return ([], .failed e)
    | .ok none => return ([], .endOfFile)
    | .ok (some rid) =>
      let record ← HeapFile.readCurrent
      let (rows, scanEnd) ← readRows filter k
      return ((rid, record) :: rows, scanEnd)

/-- The commands on a scan. -/
def onScan (handle : String) (scan : Scan) (c : HandleCommand) : SessionAction σ Reply :=
  let wrap := fun heap => Handle.scan { scan with heap := heap }
  let run {α : Type} (action : HeapAction σ α) : SessionAction σ α :=
    onHeap handle scan.heap wrap action
  match c with
  | .readAt record => return .record (← run (HeapFile.getRecord record))
  | .startScan request => do
    let filter ← Action.ofResult (ScanRequest.resolve request)
    setHandle handle (.scan { scan with filter := filter })
    return .done
  | .setFilter request => do
    let filter ← Action.ofResult (request.mapM FilterRequest.resolve)
    setHandle handle (.scan { scan with filter := filter })
    return .done
  | .filter => return .filter scan.filter
  | .next => return .address (← run (HeapFile.scanNext scan.filter))
  | .scan limit => do
    let (rows, scanEnd) ← run (readRows scan.filter limit)
    return .rows rows scanEnd
  | .read => return .record (← run HeapFile.readCurrent)
  | .modify offset bytes => do
    run (HeapFile.modifyCurrent (Edit.store offset bytes))
    return .done
  | .delete => do
    run HeapFile.deleteCurrent
    return .done
  | .mark => do
    setHandle handle (.scan { scan with mark := some scan.heap.mark })
    return .done
  | .reset => do
    run (HeapFile.resetTo scan.mark)
    return .done
  | .endScan => do
    run HeapFile.endScan
    return .done
  | .markDirty => do
    run HeapFile.markDirty
    return .done
  | .accepts record => return .flag (passes scan.filter record)
  | .close => do
    forgetHandle handle
    onDatabase (closeScan scan.heap)
    return .done
  | .drop => do
    forgetHandle handle
    onDatabase (Action.quietly (Database.closeHeap scan.heap))
    return .done
  | c => onAnyHeap handle scan.heap wrap c

/-! ## Files and pages -/

/-- The reply to a question for bytes of a page, all of which the page must have. -/
def bytesReply (page : Page) (offset length : Nat) : SessionAction σ Reply :=
  match page.slice? offset length with
  | some bytes => return .bytes page bytes
  | none => unusable

/-- The number, name and size of a file. -/
def describeFile (file : FileHandle) : SessionAction σ Reply :=
  return .file file.id file.name (← onFiles (PageStore.pageCount file.id))

/-- The commands on a file. -/
def onFile (handle : String) (file : FileHandle) : HandleCommand → SessionAction σ Reply
  | .drop => do
    forgetHandle handle
    return .done
  | .closeFile => do
    onFiles (FileStore.close file)
    return .done
  | .info => describeFile file
  | .readPage page offset length => do
    bytesReply (← onFiles (PageStore.readPage file.id page)) offset length
  | .writePage page bytes patches => do
    onFiles (PageStore.writePage file.id page ((Block.ofBytes bytes).patch patches))
    return .done
  | .allocatePage => return .page (← onFiles (PageStore.allocatePage file.id))
  | .firstPage => return .page (← onFiles (PageStore.firstPage file.id))
  | .sync => do
    onFiles (PageStore.sync file.id)
    return .done
  | .pinCount page => return .number ((← get).db.pool.pinCount ⟨file.id, page⟩)
  | .unpin page dirty => do
    onDatabase (Database.unpin ⟨file.id, page⟩ dirty)
    return .done
  | .flushFile => do
    onDatabase (Database.flushFile file.id)
    return .done
  | _ => unusable

/-- Changes a pinned page; the holder counts it as changed even if that fails. -/
def changePage (handle : String) (pin : Pin) (f : Page → Result (α × Page)) :
    SessionAction σ α := do
  let pin := pin.markDirty
  setHandle handle (.page pin)
  let page ← onDatabase (Database.pageOf pin)
  let (a, page) ← Action.ofResult (f page)
  onDatabase (Database.setPage pin page)
  return a

/-- Stores the checksum of a heap header into its place. -/
def sealHeapHeader (page : Page) : Page :=
  page.overwrite HeapHeader.checkedSize
    (bigEndian 4 (crc32 (page.slice 0 HeapHeader.checkedSize)).toNat)

/-- The commands on a pinned page. -/
def onPage (handle : String) (pin : Pin) : HandleCommand → SessionAction σ Reply
  | .drop => do
    forgetHandle handle
    onDatabase (Database.drop pin)
    return .done
  | .release => do
    forgetHandle handle
    onDatabase (Database.release pin)
    return .done
  | .peek offset length => do
    bytesReply (← onDatabase (Database.pageOf pin)) offset length
  | .poke patches resealed => do
    changePage handle pin fun page =>
      let page := page.patch patches
      .ok ((), if resealed then sealHeapHeader page else page)
    return .dirty true
  | .markDirty => do
    setHandle handle (.page pin.markDirty)
    return .dirty true
  | .format => do
    changePage handle pin fun page => do
      let page ← SlottedPage.format page pin.key.page
      return ((), page.data)
    return .done
  | .insert record => do
    let slot ← changePage handle pin fun page => do
      let page ← SlottedPage.read page
      let (slot, page) ← page.insert record
      return (slot, page.data)
    return .slot slot
  | _ => unusable

/-! ## Commands -/

/-- The reply to a pinned page. -/
def pinReply (handle : String) (pin : Pin) : SessionAction σ Reply := do
  setHandle handle (.page pin)
  return .pinned pin.key.file pin.key.page pin.dirty

/-- Runs an action on the file behind a handle; a handle of anything else is no handle of a file. -/
def withFile (handle : String) (action : FileHandle → SessionAction σ Reply) :
    SessionAction σ Reply := do
  match (← get).handles.find? handle with
  | some (.file file) => action file
  | _ => return .refused .noHandle

/-- Opens something under a name that is free. -/
def openHandle (handle : String) : Opening → SessionAction σ Reply
  | .heap use name => do
    let heap ← onDatabase (Database.openHeap name)
    setHandle handle <| match use with
      | .lookup => .heap heap
      | .scan => .scan (Scan.start heap)
      | .insert => .inserter heap
    return .done
  | .file name => do
    let file ← onFiles (FileStore.openFile name)
    setHandle handle (.file file)
    describeFile file
  | .pin file page =>
    withFile file fun file => do
      pinReply handle (← onDatabase (Database.pin file.id page))
  | .allocate file =>
    withFile file fun file => do
      pinReply handle (← onDatabase (Database.allocate file.id))
  | .unusable => unusable

/-- Sends a command to a handle. -/
def tellHandle (handle : String) (c : HandleCommand) : SessionAction σ Reply := do
  match (← get).handles.find? handle with
  | none => return .refused .noHandle
  | some (.heap heap) => onLookup handle heap c
  | some (.scan scan) => onScan handle scan c
  | some (.inserter heap) => onInserter handle heap c
  | some (.file file) => onFile handle file c
  | some (.page pin) => onPage handle pin c

/-- Carries out a command. -/
def perform : Command → SessionAction σ Reply
  | .create name => do
    onDatabase (Database.createHeap name)
    return .done
  | .destroy name => do
    onDatabase (Database.destroyHeap name)
    return .done
  | .flush => do
    onDatabase Database.flushAll
    return .done
  | .capacity => return .number (← get).db.pool.capacity
  | .createFile name => do
    onFiles (FileStore.create name)
    return .done
  | .destroyFile name => do
    onFiles (FileStore.destroy name)
    return .done
  | .hasFile name => return .flag (← onFiles (FileStore.hasFile name))
  | .openAs handle opening => do
    if (← get).handles.has handle then return .refused .handleInUse
    else openHandle handle opening
  | .tell handle command => tellHandle handle command
  | .unusable => unusable

/-- The outcome of an action: its reply, or the cause of its refusal as the reply. -/
def settle (action : SessionAction σ Reply) (s : Session σ) : Except Trap (Reply × Session σ) :=
  match action s with
  | .ok reply s => .ok (reply, s)
  | .error (.error e) s => .ok (.failed e, s)
  | .error (.trap t) _ => .error t

/-- Carries out a command and replies to it. -/
def step (s : Session σ) (c : Command) : Except Trap (Reply × Session σ) := settle (perform c) s

end Session

end PagedHeap
