import PagedHeap.File.Store
import PagedHeap.Pool.Basic

/-!
# Pages through the pool

A database is a store of files with a pool of their pages. Pinning a page reads it from its file
unless the pool has it; a page that was changed is written back when its frame is given up or when
it is flushed.
-/

namespace PagedHeap

/-- Files and the pool of their pages. -/
structure Database (σ : Type) where
  /-- The files. -/
  files : σ
  /-- The pages in memory. -/
  pool : Pool

namespace Database

variable {σ α : Type}

/-- Runs an action on the files. -/
def onFiles (action : Action σ α) : Action (Database σ) α :=
  Action.onPart Database.files (fun files db => { db with files := files }) action

/-- Changes the pool. -/
def modifyPool (f : Pool → Pool) : Action (Database σ) Unit :=
  modify fun db => { db with pool := f db.pool }

/-- The bytes of a held page. -/
def pageOf (pin : Pin) : Action (Database σ) Page := do return (← get).pool.page pin

/-- Stores bytes into a held page. -/
def setPage (pin : Pin) (page : Page) : Action (Database σ) Unit := modifyPool (·.setPage pin page)

variable [PageStore σ]

/-- Writes a page into its file if its frame is dirty. -/
def writeBack (key : FrameKey) : Action (Database σ) Unit := do
  match (← get).pool.frames.find? key with
  | some frame => if frame.dirty then onFiles (PageStore.writePage key.file key.page frame.page)
  | none => pure ()

/-- Makes sure that there is room for one more frame. -/
def makeRoom : Action (Database σ) Unit := do
  let pool := (← get).pool
  if pool.capacity ≤ pool.size then
    match pool.victim? with
    | none => Action.refuse .bufferPoolExhausted
    | some key =>
      writeBack key
      modifyPool (·.unload key)

/-- Adds a frame and answers its holder. -/
def load (key : FrameKey) (page : Page) (dirty : Bool) : Action (Database σ) Pin := do
  let db ← get
  let (pin, pool) := db.pool.load key page dirty
  set { db with pool := pool }
  return pin

/-- Pins a page. -/
def pin (file : FileId) (page : PageId) : Action (Database σ) Pin := do
  let key : FrameKey := ⟨file, page⟩
  match (← get).pool.frames.find? key with
  | some frame =>
    modifyPool fun p =>
      { p with
        frames := p.frames.adjust key fun f =>
          { f with pins := f.pins + 1, holders := f.holders + 1 }
        recency := p.recency.touch key }
    return ⟨key, frame.serial, false⟩
  | none =>
    makeRoom
    let data ← onFiles (PageStore.readPage file page)
    load key data false

/-- Drops one pin of a page and records whether its holder changed the page. -/
def unpin (key : FrameKey) (dirty : Bool) : Action (Database σ) Unit := do
  match (← get).pool.frames.find? key with
  | none => Action.refuse (.pageNotFound key.page)
  | some frame =>
    if frame.pins = 0 then Action.refuse (.pageNotPinned key.page)
    else
      modifyPool fun p =>
        { p with
          frames := p.frames.adjust key fun f =>
            { f with pins := f.pins - 1, dirty := f.dirty || dirty }
          recency := p.recency.touch key }

/-- Lets go of a page. -/
def release (pin : Pin) : Action (Database σ) Unit := do
  modifyPool (·.forgetHolder pin)
  unpin pin.key pin.dirty

/-- Lets go of a page without asking whether that went well. -/
def drop (pin : Pin) : Action (Database σ) Unit := Action.quietly (release pin)

/-- Adds a page of zeros to a file and pins it. -/
def allocate (file : FileId) : Action (Database σ) Pin := do
  makeRoom
  let page ← onFiles (PageStore.allocatePage file)
  load ⟨file, page⟩ (Block.zero pageSize) true

/-- Writes back one page; its frame is given up if nobody has a pin on it. -/
def flushPage (key : FrameKey) : Action (Database σ) Unit := do
  writeBack key
  modifyPool (·.setClean key)
  match (← get).pool.frames.find? key with
  | some frame => if frame.pins = 0 then modifyPool (·.unload key)
  | none => pure ()

/-- Writes back the pages of a file and gives up those that nobody has a pin on. -/
def flushFile (file : FileId) : Action (Database σ) Unit := do
  let keys := (← get).pool.frames.keys.filter fun key => key.file = file
  keys.forM flushPage

/-- The files that have frames, in the order of their numbers. -/
def cachedFiles (pool : Pool) : List FileId :=
  (pool.frames.keys.map FrameKey.file).eraseDups.mergeSort fun a b => a.val ≤ b.val

/-- Writes back all pages, which stay in the pool, and syncs their files. -/
def flushAll : Action (Database σ) Unit := do
  let pool := (← get).pool
  pool.frames.keys.forM fun key => do
    writeBack key
    modifyPool (·.setClean key)
  (cachedFiles pool).forM fun file => onFiles (PageStore.sync file)

end Database

end PagedHeap
