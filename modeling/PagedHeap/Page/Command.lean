import PagedHeap.Page.Slotted

/-!
# Sequences of operations on one page

The operations on a slotted page as data, and what a page answers to them. A refused operation is
an answer and leaves the page as it was.
-/

namespace PagedHeap

/-- Bytes to be stored at an offset of a buffer. -/
abbrev Patch := Nat × Bytes

/-- Stores patches in their order; bytes past the end are dropped. -/
def Block.patch {n : Nat} (b : Block n) (patches : List Patch) : Block n :=
  patches.foldl (fun b (offset, bytes) => b.overwrite offset bytes) b

/-- An operation on a slotted page. -/
inductive PageCommand where
  /-- Adds a record. -/
  | insert (record : Bytes)
  /-- Adds copies of a record until one is refused, at most `count` of them. -/
  | fill (record : Bytes) (count : Nat)
  /-- Deletes a record. -/
  | delete (slot : SlotId)
  /-- Reads a record. -/
  | get (slot : SlotId)
  /-- Stores bytes into a record. -/
  | modify (slot : SlotId) (offset : Nat) (bytes : Bytes)
  /-- Asks for the first slot in use. -/
  | first
  /-- Asks for the slot in use after the given one. -/
  | next (slot : SlotId)
  /-- Lists the records. -/
  | records
  /-- Compacts the page. -/
  | compact
  /-- Links the page. -/
  | setNext (next : Option PageId)
  /-- Asks for the header. -/
  | header
  /-- Asks for bytes of the page. -/
  | bytes (offset length : Nat)
  /-- Patches a copy of the bytes and reads it as a page, which replaces the old one. -/
  | reopen (patches : List Patch)

/-- The answer to an operation on a slotted page. -/
inductive PageReply where
  /-- Done. -/
  | done
  /-- A slot. -/
  | slot (slot : SlotId)
  /-- A slot, if there is one. -/
  | slot? (slot : Option SlotId)
  /-- The slots that were filled, and what stopped the filling. -/
  | filled (slots : List SlotId) (stopped : Option StorageError)
  /-- The bytes of a record. -/
  | record (bytes : Bytes)
  /-- All records. -/
  | records (records : List (SlotId × Bytes))
  /-- The header. -/
  | header (header : DataHeader)
  /-- Bytes of the page. -/
  | bytes (bytes : Bytes)
  /-- The page does not have the bytes that were asked for. -/
  | noBytes
  /-- The operation was refused. -/
  | refused (cause : StorageError)

namespace SlottedPage

/-- Inserts copies of a record, at most `count`, until one is refused. -/
def fill (p : SlottedPage) (record : Bytes) :
    (count : Nat) → Except Trap (List SlotId × Option StorageError × SlottedPage)
  | 0 => .ok ([], none, p)
  | k + 1 =>
    match p.insert record with
    | .error (.trap t) => .error t
    | .error (.error e) => .ok ([], some e, p)
    | .ok (slot, p) => do
      let (slots, stopped, p) ← fill p record k
      return (slot :: slots, stopped, p)

/-- The answer and the page after an operation that changes the page. -/
def settle {α : Type} (p : SlottedPage) (result : Result (α × SlottedPage))
    (reply : α → PageReply) :
    Except Trap (PageReply × SlottedPage) :=
  match result with
  | .ok (a, q) => .ok (reply a, q)
  | .error (.error e) => .ok (.refused e, p)
  | .error (.trap t) => .error t

/-- Carries out one operation. -/
def step (p : SlottedPage) : PageCommand → Except Trap (PageReply × SlottedPage)
  | .insert record => p.settle (p.insert record) .slot
  | .fill record count => do
    let (slots, stopped, q) ← p.fill record count
    return (.filled slots stopped, q)
  | .delete slot => p.settle ((p.delete slot).map (Prod.mk ())) fun _ => .done
  | .get slot => p.settle ((p.get slot).map (·, p)) .record
  | .modify slot offset bytes =>
    p.settle ((p.modify slot (Edit.store offset bytes)).map (Prod.mk ())) fun _ => .done
  | .first => .ok (.slot? p.first?, p)
  | .next slot => .ok (.slot? (p.nextAfter? slot), p)
  | .records => .ok (.records p.records, p)
  | .compact => p.settle (p.compact.map (Prod.mk ())) fun _ => .done
  | .setNext next => .ok (.done, p.setNext next)
  | .header => .ok (.header p.header, p)
  | .bytes offset length =>
    .ok (((p.data.slice? offset length).map .bytes).getD .noBytes, p)
  | .reopen patches => p.settle ((read (p.data.patch patches)).map (Prod.mk ())) fun _ => .done

/-- Carries out operations one after the other. The answers come with the page after each; a trap
ends the sequence. -/
def run (p : SlottedPage) : List PageCommand → List (PageReply × SlottedPage) × Option Trap
  | [] => ([], none)
  | c :: cs =>
    match p.step c with
    | .error t => ([], some t)
    | .ok (reply, q) =>
      let (rest, trap) := run q cs
      ((reply, q) :: rest, trap)

end SlottedPage

end PagedHeap
