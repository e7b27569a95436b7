import PagedHeap.Page.Slot

/-!
# Slotted pages

A data page holds a finite map from slots to records. The header and the slot directory grow from
the start of the page, the records from its end, and the free space lies between them:

```
| header | slot 0 | slot 1 | … |   free space   | … | record 1 | record 0 |
```

A record keeps its slot until it is deleted; an emptied slot is used again by the next insert. The
space of deleted records is only counted, and is taken back when an insert needs it
(`SlottedPage.compact`). The bytes of a page may come from anywhere: reading them checks the header
and nothing else, so that on a damaged page the counters can leave their range, which is a trap.
-/

namespace PagedHeap

/-- The longest record that fits on an empty page. -/
def maxRecordSize : Nat := pageSize - dataHeaderSize - slotSize

/-- A data page that is being worked on: its bytes and its decoded header. -/
structure SlottedPage where
  /-- The bytes of the page. -/
  data : Page
  /-- The header, kept in step with the bytes. -/
  header : DataHeader

/-- A change of a string of bytes that keeps its length. -/
abbrev Edit := (n : Nat) → Block n → Block n

/-- Stores bytes from an offset on and drops those past the end. -/
def Edit.store (offset : Nat) (bytes : Bytes) : Edit := fun _ b => b.overwrite offset bytes

namespace SlottedPage

variable {n : Nat}

/-- Applies a function to a buffer that has the size of a page. -/
def ofBlock {α : Type} (b : Block n) (f : Page → Result α) : Result α :=
  if h : n = pageSize then f (b.cast h)
  else .refuse (.invalidPage s!"page data must be {pageSize} bytes, got {n}")

/-- Reads a buffer as a data page. Only the header is checked. -/
def read (b : Block n) : Result SlottedPage :=
  ofBlock b fun data =>
    match DataHeader.read? data with
    | none => .refuse (.invalidPage "unknown page type")
    | some h =>
      if h.kind ≠ .heapData then
        .refuse (.invalidPage s!"expected a data page, found {h.kind.text}")
      else if h.contentStart.toNat < h.directoryEnd ∨ pageSize < h.contentStart.toNat then
        .refuse (.corruption s!"page {h.page.text}: slot directory overlaps record content")
      else .ok ⟨data, h⟩

/-- The empty data page with the given number. -/
def empty (page : PageId) : SlottedPage :=
  ⟨(Block.zero pageSize).overwrite 0 (DataHeader.empty page).encode, DataHeader.empty page⟩

/-- Turns a buffer into an empty data page; its old bytes are lost. -/
def format (b : Block n) (page : PageId) : Result SlottedPage :=
  ofBlock b fun _ => .ok (empty page)

/-- The number stored in the page. -/
def page (p : SlottedPage) : PageId := p.header.page

/-- The next page of the chain. -/
def next (p : SlottedPage) : Option PageId := p.header.next

/-- The number of entries in the slot directory. -/
def slotCount (p : SlottedPage) : Nat := p.header.slotCount.toNat

/-- The bytes between the slot directory and the record content. -/
def freeSpace (p : SlottedPage) : Nat := p.header.freeSpace

/-! ## Looking things up -/

/-- Entry `i` of the slot directory. -/
def slotAt (p : SlottedPage) (i : Nat) : Slot := Slot.load p.data (Slot.position i)

/-- The entry of a live record. It belongs to the directory, is not empty and its range lies inside
the page. -/
def liveSlot (p : SlottedPage) (slot : SlotId) : Result Slot :=
  let entry := p.slotAt slot.toNat
  if slot.toNat < p.slotCount ∧ !entry.isEmpty ∧ entry.stop ≤ pageSize then .ok entry
  else .refuse (.slotNotFound ⟨p.page, slot⟩)

/-- The bytes of the record in a slot. -/
def get (p : SlottedPage) (slot : SlotId) : Result Bytes := do
  let entry ← p.liveSlot slot
  return p.data.slice entry.offset.toNat entry.length.toNat

/-- The slots in use from `start` on, in increasing order. -/
def slotsFrom (p : SlottedPage) (start : Nat) : List SlotId :=
  ((List.range' start (p.slotCount - start)).filter fun i => !(p.slotAt i).isEmpty).map
    UInt16.ofNat

/-- The slots in use, in increasing order. -/
def slots (p : SlottedPage) : List SlotId := p.slotsFrom 0

/-- The first slot in use. -/
def first? (p : SlottedPage) : Option SlotId := p.slots.head?

/-- The first slot in use after the given one, which need not be in use itself. -/
def nextAfter? (p : SlottedPage) (slot : SlotId) : Option SlotId :=
  (p.slotsFrom (slot.toNat + 1)).head?

/-- The number of slots in use. -/
def recordCount (p : SlottedPage) : Nat := p.slots.length

/-- The records that can be read, in the order of their slots. -/
def records (p : SlottedPage) : List (SlotId × Bytes) :=
  p.slots.filterMap fun slot => (p.get slot).toOption.map fun bytes => (slot, bytes)

/-! ## Changes -/

/-- Stores the header into the page. -/
def sync (p : SlottedPage) : SlottedPage := { p with data := p.data.overwrite 0 p.header.encode }

/-- Changes the header and stores it. -/
def withHeader (p : SlottedPage) (h : DataHeader) : SlottedPage := sync { p with header := h }

/-- Stores entry `i` of the slot directory. -/
def setSlot (p : SlottedPage) (i : Nat) (entry : Slot) : Result SlottedPage :=
  if Slot.position i + slotSize ≤ pageSize then
    .ok { p with data := p.data.overwrite (Slot.position i) entry.encode }
  else .stop .outOfRange

/-- Stores the bytes of a record. -/
def setContent (p : SlottedPage) (offset : Nat) (bytes : Bytes) : Result SlottedPage :=
  if offset + bytes.length ≤ pageSize then .ok { p with data := p.data.overwrite offset bytes }
  else .stop .outOfRange

/-- Links the page to the next one of its chain. -/
def setNext (p : SlottedPage) (next : Option PageId) : SlottedPage :=
  p.withHeader { p.header with next := next }

/-- Puts a record directly below `start`, as the record of an entry of the directory; the answer
has the new start of the content. -/
def pack (start : Nat) (p : SlottedPage) (slot : SlotId) (bytes : Bytes) :
    Result (Nat × SlottedPage) := do
  let offset ← subtract start bytes.length
  let p ← p.setContent offset bytes
  let p ← p.setSlot slot.toNat ⟨UInt16.ofNat offset, UInt16.ofNat bytes.length⟩
  return (offset, p)

/-- Packs records one below the other. -/
def packAll (start : Nat) (p : SlottedPage) :
    List (SlotId × Bytes) → Result (Nat × SlottedPage)
  | [] => .ok (start, p)
  | (slot, bytes) :: rest => do
    let (start, p) ← pack start p slot bytes
    packAll start p rest

/-- Moves all records to the end of the page, which takes back the space of deleted ones. No record
changes its slot. -/
def compact (p : SlottedPage) : Result SlottedPage := do
  let (start, q) ← packAll pageSize p p.records
  return q.withHeader { p.header with contentStart := UInt16.ofNat start, fragmented := 0 }

/-- The first empty entry of the directory. -/
def emptySlot? (p : SlottedPage) : Option SlotId :=
  ((List.range p.slotCount).find? fun i => (p.slotAt i).isEmpty).map UInt16.ofNat

/-- The page with at least `needed` free bytes: as it is or compacted. It is refused as full if
even the space of all deleted records is not enough. -/
def withRoom (p : SlottedPage) (needed : Nat) : Result SlottedPage :=
  if needed ≤ p.freeSpace then .ok p
  else
    let available := p.freeSpace + p.header.fragmented.toNat
    if available < needed then .refuse (.pageFull p.page needed available) else p.compact

/-- Stores a record in the given empty entry or, without one, in a new entry at the end of the
directory. -/
def place (p : SlottedPage) (reuse : Option SlotId) (record : Bytes) :
    Result (SlotId × SlottedPage) := do
  let slotCount ← match reuse with
    | some _ => pure p.header.slotCount
    | none => count16 (p.slotCount + 1)
  let slot := reuse.getD p.header.slotCount
  let (offset, q) ← pack p.header.contentStart.toNat p slot record
  return (slot, q.withHeader
    { p.header with slotCount := slotCount, contentStart := UInt16.ofNat offset })

/-- Adds a record and answers its slot. -/
def insert (p : SlottedPage) (record : Bytes) : Result (SlotId × SlottedPage) :=
  if maxRecordSize < record.length then
    .refuse (.invalidRecordLength record.length maxRecordSize)
  else do
    let reuse := p.emptySlot?
    let needed := record.length + if reuse.isSome then 0 else slotSize
    let p ← p.withRoom needed
    p.place reuse record

/-- The length of the directory without the empty entries at its end. -/
def trimmed (p : SlottedPage) : (count : Nat) → Nat
  | 0 => 0
  | k + 1 => if (p.slotAt k).isEmpty then trimmed p k else k + 1

/-- Deletes the record in a slot. -/
def delete (p : SlottedPage) (slot : SlotId) : Result SlottedPage := do
  let entry ← p.liveSlot slot
  let q ← p.setSlot slot.toNat .empty
  let fragmented ← count16 (p.header.fragmented.toNat + entry.length.toNat)
  return q.withHeader
    { p.header with slotCount := UInt16.ofNat (q.trimmed q.slotCount), fragmented := fragmented }

/-- Changes the bytes of the record in a slot in place. -/
def modify (p : SlottedPage) (slot : SlotId) (edit : Edit) : Result SlottedPage := do
  let entry ← p.liveSlot slot
  let record := Block.ofBytes (p.data.slice entry.offset.toNat entry.length.toNat)
  return { p with data := p.data.overwrite entry.offset.toNat (edit _ record).bytes }

end SlottedPage

end PagedHeap
