import PagedHeap.Page.Basic
import PagedHeap.Pool.Recency

/-!
# The buffer pool

The pool holds copies of pages of open files in a bounded number of frames. Whoever works on a page
pins it; a frame with a pin stays in the pool. A holder (`Pin`) remembers whether it changed the
page, and tells the frame when it lets go.

A frame is known to its holders by a serial number. Pins are counted by key and can be dropped by
key, so that a frame may leave the pool under a holder; the holder then keeps the last bytes of the
page to itself (`Pool.detached`).
-/

namespace PagedHeap

/-- Which page of which file a frame holds. -/
structure FrameKey where
  /-- The file. -/
  file : FileId
  /-- The page of that file. -/
  page : PageId
deriving DecidableEq

/-- A page in the pool. -/
structure Frame where
  /-- The bytes of the page. -/
  page : Page
  /-- Whether the frame is known to differ from the page in the file. -/
  dirty : Bool
  /-- The number of pins.  There are no more on a page than it was used (`Usage.Run.pinCount_le`),
  and no more than two for each handle (`Session.Course.counters_lt`), so that no counter is too
  short for them. -/
  pins : Nat
  /-- The number of holders that were handed out for this frame and did not let go. -/
  holders : Nat
  /-- The serial number of this copy of the page. -/
  serial : Nat

/-- A hold on a page of the pool. -/
structure Pin where
  /-- The page. -/
  key : FrameKey
  /-- The serial number of the copy that is held. -/
  serial : Nat
  /-- Whether the holder changed the page. -/
  dirty : Bool
deriving DecidableEq

/-- The holder changes the page. -/
def Pin.markDirty (p : Pin) : Pin := { p with dirty := true }

/-- The pages in memory. -/
structure Pool where
  /-- The largest number of frames. -/
  capacity : Nat
  /-- The frames. -/
  frames : Table FrameKey Frame
  /-- The order in which the pages were last used. -/
  recency : Recency FrameKey
  /-- The bytes of copies that left the pool under a holder, by serial number. -/
  detached : Table Nat Page
  /-- The serial number of the next copy. -/
  nextSerial : Nat

namespace Pool

/-- The largest capacity of a pool. Its frames are found through a table with a power of two of
places, of which at most seven eighths are in use; the next larger table would not fit into the
range of addresses. -/
def maxCapacity : Nat := 7 * (1 <<< 54)

/-- A pool without pages. -/
def empty (capacity : Nat) : Pool := ⟨capacity, [], .empty, [], 0⟩

/-- The number of frames in use. -/
def size (p : Pool) : Nat := p.frames.length

/-- The number of pins on all pages. -/
def pinned (p : Pool) : Nat := p.frames.foldr (fun entry n => entry.2.pins + n) 0

/-- The number of pins on one page. -/
def pinCount (p : Pool) (key : FrameKey) : Nat := ((p.frames.find? key).map Frame.pins).getD 0

/-- The bytes of a page as its holder sees them. -/
def page (p : Pool) (pin : Pin) : Page :=
  let detached := (p.detached.find? pin.serial).getD (Block.zero pageSize)
  match p.frames.find? pin.key with
  | some frame => if frame.serial = pin.serial then frame.page else detached
  | none => detached

/-- Stores bytes into a page through a holder. -/
def setPage (p : Pool) (pin : Pin) (page : Page) : Pool where
  capacity := p.capacity
  frames := p.frames.adjust pin.key fun frame =>
    if frame.serial = pin.serial then { frame with page := page } else frame
  recency := p.recency
  detached := p.detached.adjust pin.serial fun _ => page
  nextSerial := p.nextSerial

/-- Adds a frame for a page, with one pin, and answers its holder. -/
def load (p : Pool) (key : FrameKey) (page : Page) (dirty : Bool) : Pin × Pool :=
  (⟨key, p.nextSerial, dirty⟩,
    { p with
      frames := p.frames.put key ⟨page, dirty, 1, 1, p.nextSerial⟩
      recency := p.recency.touch key
      nextSerial := p.nextSerial + 1 })

/-- Takes a frame out. If it still has holders, they keep its bytes. -/
def unload (p : Pool) (key : FrameKey) : Pool where
  capacity := p.capacity
  frames := p.frames.erase key
  recency := p.recency.forget key
  detached :=
    match p.frames.find? key with
    | some frame => if frame.holders = 0 then p.detached else p.detached.put frame.serial frame.page
    | none => p.detached
  nextSerial := p.nextSerial

/-- The frame agrees with the file now. -/
def setClean (p : Pool) (key : FrameKey) : Pool :=
  { p with frames := p.frames.adjust key fun frame => { frame with dirty := false } }

/-- A holder lets go of its copy. -/
def forgetHolder (p : Pool) (pin : Pin) : Pool :=
  { p with
    frames := p.frames.adjust pin.key fun frame =>
      if frame.serial = pin.serial then { frame with holders := frame.holders - 1 } else frame }

/-- The page whose frame is given up for another: of those without a pin, the one that was used
longest ago. -/
def victim? (p : Pool) : Option FrameKey :=
  p.recency.toList.find? fun key =>
    match p.frames.find? key with
    | some frame => frame.pins == 0
    | none => true

end Pool

end PagedHeap
